import Mathlib.Data.List.GetD
import Brother420.Shell.Commands

/-! # Command lines

Names as they are typed, and what the hand-written loops of the commands make of
them.  A typed line is followed by zeros, as the keyboard buffer is.
-/

namespace Brother420.Shell

open Packed (Bytes)

variable {m : Memory} {n start limit a : Nat} {word first second : List UInt8} {stop : UInt8 → Bool} {c : UInt8}

/-! ## Text in memory -/

def padded (n : Nat) (word : List UInt8) : Bytes n := fun i => word.getD i.val 0

def lineOf (text : List UInt8) : Memory := fun a => text.getD a 0

/-- The bytes from `start` on are those of the word. -/
def Spells (m : Memory) : (start : Nat) → List UInt8 → Prop
  | _, [] => True
  | start, c :: word => m start = c ∧ Spells m (start + 1) word

theorem spells_iff :
    Spells m start word ↔ ∀ i, i < word.length → m (start + i) = word.getD i 0 := by
  induction word generalizing start with
  | nil => simp [Spells]
  | cons c word ih =>
    rw [Spells, ih]
    constructor
    · rintro ⟨head, tail⟩ i inside
      cases i with
      | zero => exact head
      | succ i =>
        have next := tail i (by simpa using inside)
        rwa [Nat.add_assoc, Nat.add_comm 1 i] at next
    · intro all
      refine ⟨all 0 (by simp), fun i inside => ?_⟩
      have next := all (i + 1) (by simpa using inside)
      rwa [Nat.add_assoc, Nat.add_comm 1 i]

theorem Spells.append (spells : Spells m start (first ++ second)) :
    Spells m start first ∧ Spells m (start + first.length) second := by
  induction first generalizing start with
  | nil => exact ⟨trivial, spells⟩
  | cons c first ih =>
    obtain ⟨head, tail⟩ := spells
    obtain ⟨rest, second⟩ := ih tail
    rw [Nat.add_assoc, Nat.add_comm 1 first.length] at second
    exact ⟨⟨head, rest⟩, second⟩

theorem lineOf_spells (text : List UInt8) : Spells (lineOf text) 0 text :=
  spells_iff.mpr fun i _ => by rw [Nat.zero_add, lineOf]

theorem lineOf_end {text : List UInt8} (outside : text.length ≤ a) : lineOf text a = 0 := by
  simp [lineOf, outside]

/-- A loop that stops behind a word counts its bytes. -/
theorem span_word (spells : Spells m start word) (body : ∀ c ∈ word, stop c = false)
    (ends : stop (m (start + word.length)) = true) (fits : word.length ≤ limit) :
    span stop m start limit = word.length := by
  induction word generalizing start limit with
  | nil =>
    cases limit with
    | zero => rfl
    | succ limit =>
      rw [List.length_nil, Nat.add_zero] at ends
      simp [span, ends]
  | cons c word ih =>
    obtain ⟨head, tail⟩ := spells
    cases limit with
    | zero => simp at fits
    | succ limit =>
      have here : stop (m start) = false := head ▸ body c List.mem_cons_self
      have behind : start + 1 + word.length = start + (c :: word).length := by
        rw [List.length_cons]
        omega
      have rest := ih tail (fun d member => body d (List.mem_cons_of_mem _ member)) (behind ▸ ends) (by simpa using fits)
      simp [span, here, rest]

theorem field_word (spells : Spells m start word) :
    field n m start word.length = padded n word := by
  funext i
  rw [field, padded]
  split
  · rename_i inside
    exact spells_iff.mp spells i inside
  · rename_i outside
    rw [List.getD_eq_default _ _ (by omega)]

/-- Zero-padding loses nothing of a word without zeros. -/
theorem padded_injective (fits : first.length ≤ n) (fits' : second.length ≤ n)
    (text : ∀ c ∈ first, c ≠ 0)
    (text' : ∀ c ∈ second, c ≠ 0) (same : padded n first = padded n second) : first = second := by
  have digit (i : Nat) (inside : i < n) : first.getD i 0 = second.getD i 0 :=
    congrFun same ⟨i, inside⟩
  -- a position behind one word and inside the other would hold a zero
  have within {one other : List UInt8} (fits : one.length ≤ n) (text : ∀ c ∈ one, c ≠ 0)
      (digit : ∀ i, i < n → one.getD i 0 = other.getD i 0) : one.length ≤ other.length := by
    by_contra longer
    have inside : other.length < one.length := by omega
    have there := digit other.length (by omega)
    rw [List.getD_eq_default other _ (Nat.le_refl _), List.getD_eq_getElem _ _ inside] at there
    exact text _ (List.getElem_mem inside) there
  have length : first.length = second.length :=
    Nat.le_antisymm (within fits text digit) (within fits' text' fun i inside => (digit i inside).symm)
  apply List.ext_getElem length
  intro i inside inside'
  have there := digit i (by omega)
  rwa [List.getD_eq_getElem _ _ inside, List.getD_eq_getElem _ _ inside'] at there

/-! ## Names -/

/-- A name of one to eight bytes and an extension of up to three, as a command line can say them. -/
structure ShortName where
  base : List UInt8
  ext : List UInt8
  base_ne : base ≠ []
  base_le : base.length ≤ 8
  ext_le : ext.length ≤ 3
  plain : ∀ c ∈ base ++ ext, c ≠ 0 ∧ c ≠ space ∧ c ≠ dot

namespace ShortName

variable {old new : ShortName}

def name (x : ShortName) : Bytes 8 := padded 8 x.base

def extension (x : ShortName) : Bytes 3 := padded 3 x.ext

/-- The dot is typed only before an extension. -/
def typed (x : ShortName) : List UInt8 := x.base ++ if x.ext = [] then [] else dot :: x.ext

theorem base_plain (x : ShortName) : ∀ c ∈ x.base, c ≠ 0 ∧ c ≠ space ∧ c ≠ dot :=
  fun c member => x.plain c (List.mem_append_left _ member)

theorem ext_plain (x : ShortName) : ∀ c ∈ x.ext, c ≠ 0 ∧ c ≠ space ∧ c ≠ dot :=
  fun c member => x.plain c (List.mem_append_right _ member)

theorem extension_eq_noExt (x : ShortName) : x.extension = noExt ↔ x.ext = [] := by
  constructor
  · intro same
    have empty : padded 3 x.ext = padded 3 [] := same
    exact padded_injective x.ext_le (by simp) (fun c member => (x.ext_plain c member).1) (by simp) empty
  · intro empty
    rw [extension, empty]
    rfl

/-- The name is not that of a free slot. -/
theorem name_ne (x : ShortName) : x.name ≠ fun _ => 0 := by
  intro same
  have empty : padded 8 x.base = padded 8 [] := same
  exact x.base_ne (padded_injective x.base_le (by simp) (fun c member => (x.base_plain c member).1) (by simp) empty)

theorem typed_of_no_ext {x : ShortName} (plain : x.ext = []) : x.typed = x.base := by
  simp [typed, plain]

theorem typed_of_ext {x : ShortName} (dotted : x.ext ≠ []) : x.typed = x.base ++ dot :: x.ext := by
  simp [typed, dotted]

end ShortName

/-- A name that `mv` gives to an entry.  Behind a slash it looks for a folder. -/
structure TargetName extends ShortName where
  unslashed : base.head? ≠ some slash

instance : Coe TargetName ShortName := ⟨TargetName.toShortName⟩

theorem TargetName.typed_head (x : TargetName) : ∃ c rest, x.typed = c :: rest ∧ c ≠ slash := by
  obtain ⟨c, rest, split⟩ := List.exists_cons_of_ne_nil x.base_ne
  have unslashed := x.unslashed
  rw [split] at unslashed
  exact ⟨c, _, by rw [ShortName.typed, split]; rfl, fun same => unslashed (congrArg some same)⟩

/-- One letter, with an extension of one letter or none. -/
def nameD : ShortName :=
  ⟨['d'.toUInt8], [], by decide, by decide, by decide, List.forall_mem_singleton.mpr (by decide)⟩

def nameE : ShortName :=
  ⟨['e'.toUInt8], [], by decide, by decide, by decide, List.forall_mem_singleton.mpr (by decide)⟩

def nameAT : ShortName :=
  ⟨['a'.toUInt8], ['t'.toUInt8], by decide, by decide, by decide,
    List.forall_mem_cons.mpr ⟨by decide, List.forall_mem_singleton.mpr (by decide)⟩⟩

def nameBT : ShortName :=
  ⟨['b'.toUInt8], ['t'.toUInt8], by decide, by decide, by decide,
    List.forall_mem_cons.mpr ⟨by decide, List.forall_mem_singleton.mpr (by decide)⟩⟩

def targetE : TargetName := ⟨nameE, by decide⟩

def targetBT : TargetName := ⟨nameBT, by decide⟩

/-- A folder's name as it is typed behind a slash. -/
structure FolderName where
  text : List UInt8
  text_ne : text ≠ []
  text_le : text.length ≤ 8
  plain : ∀ c ∈ text, c ≠ 0

def FolderName.name (d : FolderName) : Bytes 8 := padded 8 d.text

def folderNameD : FolderName :=
  ⟨['d'.toUInt8], by decide, by decide, List.forall_mem_singleton.mpr (by decide)⟩

/-- The name starts with two dots. -/
def FolderName.Dotted (d : FolderName) : Prop := ∃ rest, d.text = dot :: dot :: rest

/-- No name of an entry that `mv` can be given starts with a dot. -/
theorem ShortName.name_ne_dotted (x : ShortName) {d : FolderName} (dotted : d.Dotted) :
    x.name ≠ d.name := by
  intro same
  obtain ⟨rest, split⟩ := dotted
  obtain ⟨c, tail, base⟩ := List.exists_cons_of_ne_nil x.base_ne
  have plain := x.base_plain c (base ▸ List.mem_cons_self)
  -- the same padded names would start with the same byte
  have first : c = dot := by
    have there := congrFun same 0
    simpa [ShortName.name, FolderName.name, padded, base, split] using there
  exact plain.2.2 first

/-! ## What mv reads -/

variable {path : Memory} {x : ShortName} {d : FolderName} {isFile : Bool} {i : Nat}

theorem parseMvSource_typed (spells : Spells path 0 (x.typed ++ [space])) :
    parseMvSource path = some (x.name, x.extension, decide (x.ext ≠ []), x.typed.length) := by
  have body : ∀ c ∈ x.base, (c == space || c == dot) = false := by
    intro c member
    have plain := x.base_plain c member
    simp [plain.2.1, plain.2.2]
  -- the name ends at the blank, or at a dot with the extension behind it
  by_cases dotless : x.ext = []
  · rw [x.typed_of_no_ext dotless] at spells ⊢
    obtain ⟨base, blank, _⟩ := spells.append
    rw [Nat.zero_add] at blank
    have count := span_word base body (by simp [blank]) x.base_le
    simp only [parseMvSource, count, blank, ↓reduceIte, field_word base, dotless]
    rw [(x.extension_eq_noExt).mpr dotless]
    rfl
  · rw [x.typed_of_ext dotless, List.append_assoc] at spells
    obtain ⟨base, mark, spells⟩ := spells.append
    obtain ⟨ext, blank, _⟩ := spells.append
    rw [Nat.zero_add] at mark ext blank
    have count := span_word base body (by simp [mark]) x.base_le
    have count' : span (· == space) path (x.base.length + 1) 3 = x.ext.length :=
      span_word ext (fun c member => by simp [(x.ext_plain c member).2.1]) (by simp [blank]) x.ext_le
    have notBlank : dot ≠ space := by decide
    have length : x.typed.length = x.base.length + 1 + x.ext.length := by
      rw [x.typed_of_ext dotless, List.length_append, List.length_cons]
      omega
    simp only [parseMvSource, count, mark, notBlank, ↓reduceIte, count', blank, field_word base, field_word ext, length]
    rw [decide_eq_true dotless]
    rfl

/-- A new name; the new extension is only looked at behind a name that had one. -/
theorem parseMvTarget_rename {x : TargetName} (spells : Spells path (i + 1) x.typed)
    (behind : ∀ a, i + 1 + x.typed.length ≤ a → path a = 0) :
    parseMvTarget path isFile i =
    some (.rename x.name (if isFile then x.extension else noExt)) := by
  have body : ∀ c ∈ x.base, (c == 0 || c == dot) = false := by
    intro c member
    have plain := x.base_plain c member
    simp [plain.1, plain.2.2]
  have notSlash : path (i + 1) ≠ slash := by
    obtain ⟨c, rest, split, plain⟩ := x.typed_head
    rw [split] at spells
    rw [spells.1]
    exact plain
  obtain ⟨base, tail⟩ : Spells path (i + 1) x.base ∧
      Spells path (i + 1 + x.base.length) (if x.ext = [] then [] else dot :: x.ext) := spells.append
  by_cases dotless : x.ext = []
  · rw [x.typed_of_no_ext dotless] at behind
    have count := span_word base body (by simp [behind]) x.base_le
    -- behind the line there are zeros, which read as an empty extension
    have none_ : Spells path (i + 1 + x.base.length + 1) x.ext := by
      rw [dotless]
      trivial
    have count' : span (· == 0) path (i + 1 + x.base.length + 1) 3 = x.ext.length :=
      span_word none_ (by simp [dotless]) (by simp [behind, dotless]) x.ext_le
    have zero := behind (i + 1 + x.base.length + 1 + x.ext.length) (by omega)
    simp only [parseMvTarget, notSlash, ne_eq, not_false_eq_true, ↓reduceIte, count, count', zero, field_word base,
      field_word none_]
    cases isFile <;> rfl
  · rw [if_neg dotless] at tail
    obtain ⟨mark, ext⟩ := tail
    have length : x.typed.length = x.base.length + 1 + x.ext.length := by
      rw [x.typed_of_ext dotless, List.length_append, List.length_cons]
      omega
    have zero := behind (i + 1 + x.base.length + 1 + x.ext.length) (by omega)
    have count := span_word base body (by simp [mark]) x.base_le
    have count' : span (· == 0) path (i + 1 + x.base.length + 1) 3 = x.ext.length :=
      span_word ext (fun c member => by simp [(x.ext_plain c member).1]) (by simp [zero]) x.ext_le
    simp only [parseMvTarget, notSlash, ne_eq, not_false_eq_true, ↓reduceIte, count, count', zero, field_word base,
      field_word ext]
    cases isFile <;> rfl

theorem parseMvTarget_parent (spells : Spells path (i + 1) [slash, dot, dot]) :
    parseMvTarget path isFile i = some .parent := by
  obtain ⟨first, second, third, _⟩ := spells
  simp [parseMvTarget, first, second, third]

/-- A folder whose name starts with two dots is taken for the parent. -/
theorem parseMvTarget_dotted (spells : Spells path (i + 1) (slash :: d.text)) (dotted : d.Dotted) :
    parseMvTarget path isFile i = some .parent := by
  obtain ⟨rest, split⟩ := dotted
  rw [split] at spells
  obtain ⟨first, second, third, _⟩ := spells
  exact parseMvTarget_parent ⟨first, second, third, trivial⟩

theorem parseMvTarget_folder (spells : Spells path (i + 1) (slash :: d.text))
    (behind : ∀ a, i + 1 + (slash :: d.text).length ≤ a → path a = 0) (notDotted : ¬ d.Dotted) :
    parseMvTarget path isFile i = some (.folder d.name) := by
  obtain ⟨mark, text⟩ := spells
  rw [List.length_cons] at behind
  have zero := behind (i + 1 + 1 + d.text.length) (by omega)
  have count : span (· == 0) path (i + 2) 8 = d.text.length :=
    span_word text (fun c member => by simp [d.plain c member]) (by simp [zero]) d.text_le
  have notUp : ¬ (path (i + 2) = dot ∧ path (i + 3) = dot) := by
    rintro ⟨first, second⟩
    apply notDotted
    -- the two dots lie inside the name: what follows it is zero
    have digit := spells_iff.mp text
    have long : 2 ≤ d.text.length := by
      by_contra short
      have zero := behind (i + 3) (by omega)
      rw [second] at zero
      exact absurd zero (by decide)
    match split : d.text, long with
    | a :: b :: rest, _ =>
      rw [split] at text
      refine ⟨rest, ?_⟩
      rw [split, ← text.1, ← text.2.1]
      simp [first, second]
  have isSlash : path (i + 1) = slash := mark
  simp only [parseMvTarget, isSlash, ne_eq, not_true_eq_false, ↓reduceIte, notUp, count, zero, field_word text]
  rfl

/-- The lines of `mv`, without the command itself. -/
inductive MvLine
  | rename (old : ShortName) (new : TargetName)
  | parent (old : ShortName)
  | folder (old : ShortName) (d : FolderName)

def MvLine.old : MvLine → ShortName
  | rename old _ => old
  | parent old => old
  | folder old _ => old

def MvLine.text : MvLine → List UInt8
  | rename old new => old.typed ++ space :: new.typed
  | parent old => old.typed ++ [space, slash, dot, dot]
  | folder old d => old.typed ++ space :: slash :: d.text

variable {s : ShellState} {old new : ShortName} {selfLocation : Nat}

/-- A line splits at the blank behind the first name. -/
theorem spells_source (x : ShortName) (rest : List UInt8) :
    Spells (lineOf (x.typed ++ space :: rest)) 0 (x.typed ++ [space]) ∧
      Spells (lineOf (x.typed ++ space :: rest)) (x.typed.length + 1) rest := by
  have whole := lineOf_spells (x.typed ++ space :: rest)
  rw [List.append_cons] at whole ⊢
  obtain ⟨source, target⟩ := whole.append
  rw [List.length_append, Nat.zero_add] at target
  exact ⟨source, target⟩

theorem lineOf_behind {rest : List UInt8} (outside : x.typed.length + 1 + rest.length ≤ a) :
    lineOf (x.typed ++ space :: rest) a = 0 := by
  apply lineOf_end
  rw [List.length_append, List.length_cons]
  omega

theorem commandCallMv_rename {new : TargetName} :
    commandCallMv s (lineOf (MvLine.rename old new).text) selfLocation =
      some (mvRename s old.name old.extension new.name (if old.ext ≠ [] then new.extension else noExt)) := by
  obtain ⟨source, target⟩ := spells_source old new.typed
  simp only [commandCallMv, MvLine.text, parseMvSource_typed source, Option.bind_eq_bind, Option.bind_some,
    parseMvTarget_rename target fun a => lineOf_behind, decide_eq_true_eq]

theorem commandCallMv_parent :
    commandCallMv s (lineOf (MvLine.parent old).text) selfLocation =
      mvParent s old.name old.extension selfLocation := by
  obtain ⟨source, target⟩ := spells_source old [slash, dot, dot]
  simp only [commandCallMv, MvLine.text, parseMvSource_typed source, Option.bind_eq_bind, Option.bind_some,
    parseMvTarget_parent target]

theorem commandCallMv_dotted (dotted : d.Dotted) :
    commandCallMv s (lineOf (MvLine.folder old d).text) selfLocation =
      mvParent s old.name old.extension selfLocation := by
  obtain ⟨source, target⟩ := spells_source old (slash :: d.text)
  simp only [commandCallMv, MvLine.text, parseMvSource_typed source, Option.bind_eq_bind, Option.bind_some,
    parseMvTarget_dotted target dotted]

theorem commandCallMv_folder (notDotted : ¬ d.Dotted) :
    commandCallMv s (lineOf (MvLine.folder old d).text) selfLocation =
      some (mvFolder s old.name old.extension d.name) := by
  obtain ⟨source, target⟩ := spells_source old (slash :: d.text)
  simp only [commandCallMv, MvLine.text, parseMvSource_typed source, Option.bind_eq_bind, Option.bind_some,
    parseMvTarget_folder target (fun a => lineOf_behind) notDotted]

/-! ## What cp reads -/

theorem parseCpSource_typed {line : Memory} (spells : Spells line 3 (x.typed ++ [space]))
    (dotted : x.ext ≠ []) :
    parseCpSource line = some (x.name, x.extension, x.base.length + 1 + x.ext.length) := by
  have body : ∀ c ∈ x.base, (c == dot || c == space) = false := by
    intro c member
    have plain := x.base_plain c member
    simp [plain.2.1, plain.2.2]
  rw [x.typed_of_ext dotted, List.append_assoc] at spells
  obtain ⟨base, mark, spells⟩ := spells.append
  obtain ⟨ext, blank, _⟩ := spells.append
  rw [show 3 + x.base.length = x.base.length + 3 by omega] at mark
  rw [show 3 + x.base.length + 1 = x.base.length + 1 + 3 by omega] at ext blank
  rw [show x.base.length + 1 + 3 + x.ext.length = x.base.length + 1 + x.ext.length + 3 by omega] at blank
  have count : span (fun c => c == dot || c == space) line 3 8 = x.base.length :=
    span_word base body (by simp [Nat.add_comm 3, mark]) x.base_le
  have count' : span (· == space) line (x.base.length + 1 + 3) 3 = x.ext.length := by
    apply span_word ext (fun c member => by simp [(x.ext_plain c member).2.1]) _ x.ext_le
    rw [show x.base.length + 1 + 3 + x.ext.length = x.base.length + 1 + x.ext.length + 3 by omega, blank]
    rfl
  have notBlank : dot ≠ space := by decide
  simp only [parseCpSource, count, mark, notBlank, ne_eq, not_true_eq_false, and_false, ↓reduceIte, count', blank,
    field_word base, field_word ext]
  rfl

theorem parseCpTarget_typed {line : Memory} {ext : Bytes 3} {j : Nat}
    (spells : Spells line (j + 4) x.typed)
    (behind : ∀ a, j + 4 + x.typed.length ≤ a → line a = 0) (dotted : x.ext ≠ []) :
    parseCpTarget line ext j = some (x.name, x.extension) := by
  have body : ∀ c ∈ x.base, (c == dot || c == space || c == 0) = false := by
    intro c member
    have plain := x.base_plain c member
    simp [plain.1, plain.2.1, plain.2.2]
  have body' : ∀ c ∈ x.ext, (c == space || c == 0) = false := by
    intro c member
    have plain := x.ext_plain c member
    simp [plain.1, plain.2.1]
  have positive : x.ext.length ≠ 0 := by simpa using dotted
  have length : x.typed.length = x.base.length + 1 + x.ext.length := by
    rw [x.typed_of_ext dotted, List.length_append, List.length_cons]
    omega
  rw [x.typed_of_ext dotted] at spells
  obtain ⟨base, mark, word⟩ := spells.append
  rw [show j + 4 + x.base.length = j + x.base.length + 4 by omega] at mark
  rw [show j + 4 + x.base.length + 1 = j + x.base.length + 5 by omega] at word
  have zero : line (j + x.base.length + 5 + x.ext.length) = 0 := behind _ (by omega)
  have zero' : line (x.ext.length + (j + x.base.length) + 5) = 0 := behind _ (by omega)
  have count : span (fun c => c == dot || c == space || c == 0) line (j + 4) 8 = x.base.length := by
    apply span_word base body _ x.base_le
    rw [show j + 4 + x.base.length = j + x.base.length + 4 by omega, mark]
    rfl
  -- a typed line ends in zeros, so the loop for the extension stops at its end
  have count' : span (fun c => c == space || c == 0) line (j + x.base.length + 5) 3 = x.ext.length :=
    span_word word body' (by simp [zero]) x.ext_le
  have notBlank : dot ≠ space := by decide
  simp only [parseCpTarget, count, mark, notBlank, ne_eq, not_true_eq_false, false_and, and_false, ↓reduceIte, count',
    zero', positive, field_word base, field_word word]
  rfl

/-- The line `cp old new`. -/
def cpText (old new : ShortName) : List UInt8 :=
  ['c'.toUInt8, 'p'.toUInt8, space] ++ (old.typed ++ space :: new.typed)

theorem spells_cpText (new : ShortName) (dotted : old.ext ≠ []) :
    Spells (lineOf (cpText old new)) 3 (old.typed ++ [space]) ∧
      Spells (lineOf (cpText old new)) (old.base.length + 1 + old.ext.length + 4) new.typed ∧
      ∀ a, old.base.length + 1 + old.ext.length + 4 + new.typed.length ≤ a → lineOf (cpText old new) a = 0 := by
  have length : old.typed.length = old.base.length + 1 + old.ext.length := by
    rw [old.typed_of_ext dotted, List.length_append, List.length_cons]
    omega
  have whole := lineOf_spells (cpText old new)
  obtain ⟨_, rest⟩ := Spells.append whole
  rw [List.append_cons] at rest
  obtain ⟨source, target⟩ := rest.append
  rw [List.length_append, length] at target
  refine ⟨source, ?_, fun a outside => lineOf_end ?_⟩
  · rwa [show 0 + ['c'.toUInt8, 'p'.toUInt8, space].length + (old.base.length + 1 + old.ext.length + [space].length) =
      old.base.length + 1 + old.ext.length + 4 by simp; omega] at target
  · rw [cpText, List.length_append, List.length_append, List.length_cons, length]
    simp only [List.length_cons, List.length_nil]
    omega

end Brother420.Shell
