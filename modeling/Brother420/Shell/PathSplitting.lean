import Brother420.Library.Words
import Brother420.Shell.DirectoryStack
import Brother420.Shell.Lines

/-! # Splitting a path

The rest of `directorystack.c`: `get_dir_stack` cuts a path at its slashes.  Its buffer for a
component has 8 bytes, and the test of a component's length stands behind the loop that fills it.
-/

namespace Brother420.Shell

open Packed (Bytes)
open Words (words)

/-- A store that is not made: at this index of `path[8]`, or of `stack[256]`.  `endless` is a loop
    that has not ended after the rounds it was given. -/
inductive Fault
  | component (j : Nat)
  | push (top : Int)
  | endless
  deriving DecidableEq

/-! ## The functions -/

/-- The inner loop.  `path` is the memory from the buffer on. -/
def copyComponent (request : Memory) : (rounds : Nat) → (i j : Nat) → (path : Memory) →
    Except Fault (Nat × Nat × Memory)
  | 0, _, _, _ => .error .endless
  | rounds + 1, i, j, path =>
    if request i ≠ slash ∧ request i ≠ 0 then
      if j < 8 then copyComponent request rounds (i + 1) (j + 1) (Function.update path j (request i))
      else .error (.component j)
    else .ok (i, j, path)

/-- The outer loop.  `stack i` is what the memory from the buffer on holds before the component at `i`
    is copied; `push_dir` reads 255 bytes of it. -/
def getDirStackLoop (request : Memory) (stack : Nat → Memory) : (rounds : Nat) → (i : Nat) → (validate : Int) →
    DirStack → Except Fault (DirStack × Int)
  | 0, _, _, _ => .error .endless
  | rounds + 1, i, validate, ds =>
    if request i = 0 then .ok (ds, validate)
    else if request i = slash then getDirStackLoop request stack rounds (i + 1) validate ds
    else do
      -- nine rounds are enough: the ninth character has no place
      let (i', j, path) ← copyComponent request 9 i 0 (stack i)
      if 8 < j then .ok (ds, 0)
      else
        let path : Memory := fun a => if j ≤ a ∧ a < 8 then 0 else path a
        match ds.pushDir (path.bytes 0 255) with
        | none => .error (.push (ds.top + 1))
        | some ds => getDirStackLoop request stack rounds i' validate ds

/-- `ds` is not initialised. -/
def getDirStack (request : Memory) (stack : Nat → Memory) (ds : DirStack) (rounds : Nat) (validate : Int) :
    Except Fault (DirStack × Int) :=
  getDirStackLoop request stack rounds 0 validate ds.initDirStack

/-- The first 8 bytes of a path. -/
def prefix8 (path : Bytes 255) : Bytes 8 := fun a => path ⟨a, by omega⟩

namespace DirStack

def component (ds : DirStack) (i : Nat) : Bytes 8 := prefix8 (ds.cell i)

def setComponent (ds : DirStack) (i : Nat) (b : Bytes 8) : DirStack :=
  { ds with stack := fun k a =>
      if h : k.val = i ∧ a.val < 8 then b ⟨a, h.2⟩ else ds.stack k a }

/-- The loop of `reverse_dir`: what stands behind the first 8 bytes of an element stays. -/
def reverseLoop : (rounds : Nat) → (i j : Int) → DirStack → Option DirStack
  | 0, _, _, _ => none
  | rounds + 1, i, j, ds =>
    if i < j then
      let temp := ds.component i.toNat
      let ds := ds.setComponent i.toNat (ds.component j.toNat)
      let ds := ds.setComponent j.toNat temp
      reverseLoop rounds (i + 1) (j - 1) ds
    else some ds

def reverseDir (ds : DirStack) : Option DirStack := reverseLoop 256 0 ds.top ds

/-- `none` is the address of the constant "\0". -/
def popDir (ds : DirStack) : Option (Bytes 255) × DirStack :=
  if ds.top = -1 then (none, ds) else (some (ds.cell ds.top.toNat), { ds with top := ds.top - 1 })

/-- `pop_dir` until the stack is empty. -/
def popAll : (rounds : Nat) → DirStack → Option (List (Bytes 255) × DirStack)
  | 0, _ => none
  | rounds + 1, ds =>
    match ds.popDir with
    | (none, ds) => some ([], ds)
    | (some path, ds) => do
      let (paths, ds) ← popAll rounds ds
      some (path :: paths, ds)

end DirStack

/-- `request` is the address of a string with these characters. -/
structure CString (request : Memory) (text : List UInt8) : Prop where
  spells : Spells request 0 text
  plain : ∀ c ∈ text, c ≠ 0
  ends : request text.length = 0

/-! ## Cutting off components -/

variable {request path : Memory} {stack : Nat → Memory} {ds ds' : DirStack} {word rest text : List UInt8}
  {i j rounds : Nat} {validate : Int}

/-- The memory with the word from index `j` on. -/
def withWord (path : Memory) (j : Nat) (word : List UInt8) : Memory :=
  fun a => if j ≤ a ∧ a < j + word.length then word.getD (a - j) 0 else path a

theorem withWord_nil : withWord path j [] = path := by
  funext a
  exact if_neg (by simp)

theorem withWord_cons (c : UInt8) : withWord (Function.update path j c) (j + 1) word = withWord path j (c :: word) := by
  funext a
  simp only [withWord, List.length_cons]
  rcases Nat.lt_trichotomy a j with before | rfl | after
  · rw [if_neg (by omega), if_neg (by omega), Function.update_of_ne (by omega)]
  · rw [if_neg (by omega), if_pos (by omega), Function.update_self, Nat.sub_self]
    rfl
  · obtain ⟨k, rfl⟩ : ∃ k, a = j + (k + 1) := ⟨a - j - 1, by omega⟩
    rw [Function.update_of_ne (by omega), show j + (k + 1) - (j + 1) = k by omega, Nat.add_sub_cancel_left,
      List.getD_cons_succ]
    congr 1
    simp only [eq_iff_iff]
    omega

/-- The loop copies the component if it fits, and else comes to store its ninth character. -/
theorem copyComponent_word (spells : Spells request i word) (plain : ∀ c ∈ word, c ≠ slash ∧ c ≠ 0)
    (ends : request (i + word.length) = slash ∨ request (i + word.length) = 0) (inside : j ≤ 8)
    (enough : 8 < rounds + j) :
    copyComponent request rounds i j path =
      if j + word.length ≤ 8 then .ok (i + word.length, j + word.length, withWord path j word)
      else .error (.component 8) := by
  induction word generalizing i j rounds path with
  | nil =>
    obtain ⟨rounds, rfl⟩ : ∃ r, rounds = r + 1 := ⟨rounds - 1, by omega⟩
    have stops : ¬ (request i ≠ slash ∧ request i ≠ 0) := by
      rintro ⟨notSlash, notZero⟩
      exact ends.elim notSlash notZero
    simp [copyComponent, stops, inside, withWord_nil]
  | cons c word ih =>
    obtain ⟨rounds, rfl⟩ : ∃ r, rounds = r + 1 := ⟨rounds - 1, by omega⟩
    obtain ⟨rfl, tail⟩ := spells
    have goes : request i ≠ slash ∧ request i ≠ 0 := plain _ List.mem_cons_self
    have behind : i + 1 + word.length = i + (request i :: word).length := by
      rw [List.length_cons]
      omega
    have count : j + 1 + word.length = j + (request i :: word).length := by
      rw [List.length_cons]
      omega
    rw [copyComponent, if_pos goes]
    by_cases room : j < 8
    · have plain' : ∀ c ∈ word, c ≠ slash ∧ c ≠ 0 := fun d member => plain d (List.mem_cons_of_mem _ member)
      rw [if_pos room, ih tail plain' (behind ▸ ends) room (by omega), behind, count, withWord_cons]
    · obtain rfl : j = 8 := by omega
      simp

/-! ## One round -/

theorem getDirStackLoop_end (ends : request i = 0) :
    getDirStackLoop request stack (rounds + 1) i validate ds = .ok (ds, validate) := by
  simp [getDirStackLoop, ends]

theorem getDirStackLoop_slash (here : request i = slash) :
    getDirStackLoop request stack (rounds + 1) i validate ds =
      getDirStackLoop request stack rounds (i + 1) validate ds := by
  have notEnd : slash ≠ 0 := by decide
  simp [getDirStackLoop, here, notEnd]

/-- What is pushed for a component. -/
def pushed (stack : Memory) (word : List UInt8) : Bytes 255 :=
  Memory.bytes (fun a => if word.length ≤ a ∧ a < 8 then 0 else withWord stack 0 word a) 0 255

theorem prefix8_pushed : prefix8 (pushed (stack i) word) = padded 8 word := by
  funext a
  simp only [prefix8, pushed, Memory.bytes, withWord, padded, Nat.zero_add, Nat.sub_zero, Nat.zero_le, true_and]
  by_cases inside : a.val < word.length
  · simp [inside, Nat.not_le.mpr inside]
  · rw [if_pos (by omega), List.getD_eq_default _ _ (by omega)]

section Components

variable (spells : Spells request i word) (plain : ∀ c ∈ word, c ≠ slash ∧ c ≠ 0) (word_ne : word ≠ [])
  (ends : request (i + word.length) = slash ∨ request (i + word.length) = 0)

include spells plain word_ne in
theorem component_starts : request i ≠ 0 ∧ request i ≠ slash := by
  obtain ⟨c, tail, rfl⟩ := List.exists_cons_of_ne_nil word_ne
  rw [spells.1]
  exact (plain c List.mem_cons_self).symm

include spells plain word_ne ends

/-- A component that fits is pushed, if there is room. -/
theorem getDirStackLoop_word (fits : word.length ≤ 8) :
    getDirStackLoop request stack (rounds + 1) i validate ds =
      match ds.pushDir (pushed (stack i) word) with
      | none => .error (.push (ds.top + 1))
      | some ds => getDirStackLoop request stack rounds (i + word.length) validate ds := by
  obtain ⟨notEnd, notSlash⟩ := component_starts spells plain word_ne
  have copied : copyComponent request 9 i 0 (stack i) = _ :=
    copyComponent_word spells plain ends (by omega) (by omega)
  rw [if_pos (by omega), Nat.zero_add] at copied
  simp only [getDirStackLoop, notEnd, notSlash, ↓reduceIte, copied]
  exact if_neg (Nat.not_lt.mpr fits)

/-- A component that does not fit is stored behind the end of its buffer. -/
theorem getDirStackLoop_long (long : 8 < word.length) :
    getDirStackLoop request stack (rounds + 1) i validate ds = .error (.component 8) := by
  obtain ⟨notEnd, notSlash⟩ := component_starts spells plain word_ne
  have copied : copyComponent request 9 i 0 (stack i) = _ :=
    copyComponent_word spells plain ends (by omega) (by omega)
  rw [if_neg (by omega)] at copied
  simp only [getDirStackLoop, notEnd, notSlash, ↓reduceIte, copied]
  rfl

end Components

/-! ## Paths that fit -/

/-- A path as the loop meets it: its characters from `i` on, and the NUL behind them. -/
structure Remaining (request : Memory) (i : Nat) (text : List UInt8) : Prop where
  spells : Spells request i text
  plain : ∀ c ∈ text, c ≠ 0
  ends : request (i + text.length) = 0

theorem CString.remaining (string : CString request text) : Remaining request 0 text :=
  ⟨string.spells, string.plain, by rw [Nat.zero_add]; exact string.ends⟩

theorem Remaining.slash (remaining : Remaining request i (slash :: rest)) : Remaining request (i + 1) rest where
  spells := remaining.spells.2
  plain c member := remaining.plain c (List.mem_cons_of_mem _ member)
  ends := by
    have ends := remaining.ends
    rwa [List.length_cons, show i + (rest.length + 1) = i + 1 + rest.length by omega] at ends

theorem Remaining.behind (remaining : Remaining request i (word ++ rest)) :
    Remaining request (i + word.length) rest where
  spells := remaining.spells.append.2
  plain c member := remaining.plain c (List.mem_append_right _ member)
  ends := by
    have ends := remaining.ends
    rwa [List.length_append, ← Nat.add_assoc] at ends

/-- What the loop needs of the next component. -/
theorem Remaining.component (remaining : Remaining request i (word ++ rest)) (noSlash : Shell.slash ∉ word)
    (behind : rest = [] ∨ ∃ rest', rest = Shell.slash :: rest') :
    Spells request i word ∧ (∀ c ∈ word, c ≠ Shell.slash ∧ c ≠ 0) ∧
      (request (i + word.length) = Shell.slash ∨ request (i + word.length) = 0) := by
  refine ⟨remaining.spells.append.1, fun c member => ⟨?_, remaining.plain c (List.mem_append_left _ member)⟩, ?_⟩
  · rintro rfl
    exact noSlash member
  · rcases behind with rfl | ⟨rest, rfl⟩
    · exact .inr (by simpa using remaining.behind.ends)
    · exact .inl remaining.behind.spells.1

/-- Each component of a path that fits is pushed, and the validity is not touched. -/
theorem getDirStackLoop_fits (remaining : Remaining request i text) (enough : text.length < rounds)
    (bottom : -1 ≤ ds.top) (short : ∀ c ∈ words slash text, c.length ≤ 8)
    (shallow : ds.top + 1 + (words slash text).length ≤ 256) :
    ∃ ds', getDirStackLoop request stack rounds i validate ds = .ok (ds', validate) ∧
      ds'.top = ds.top + (words slash text).length ∧
      ds'.entries.map prefix8 = ds.entries.map prefix8 ++ (words slash text).map (padded 8) := by
  induction text using Words.text_induction slash generalizing i rounds ds with
  | nil =>
    obtain ⟨rounds, rfl⟩ : ∃ r, rounds = r + 1 := ⟨rounds - 1, by omega⟩
    exact ⟨ds, getDirStackLoop_end remaining.ends, by simp, by simp⟩
  | mark_ rest ih =>
    obtain ⟨rounds, rfl⟩ : ∃ r, rounds = r + 1 := ⟨rounds - 1, by omega⟩
    rw [Words.words_mark] at short shallow ⊢
    rw [getDirStackLoop_slash remaining.spells.1]
    exact ih remaining.slash (by simpa using enough) bottom short shallow
  | word word rest word_ne noSlash behind ih =>
    obtain ⟨rounds, rfl⟩ : ∃ r, rounds = r + 1 := ⟨rounds - 1, by omega⟩
    obtain ⟨spells, plain, ends⟩ := remaining.component noSlash behind
    have positive := List.length_pos_iff.mpr word_ne
    rw [List.length_append] at enough
    rw [Words.words_word word_ne noSlash behind] at short shallow ⊢
    rw [List.length_cons] at shallow
    obtain ⟨ds₁, room, top, entries⟩ := ds.pushDir_entries bottom (by omega) (pushed (stack i) word)
    rw [getDirStackLoop_word spells plain word_ne ends (short word List.mem_cons_self), room]
    have enough' : rest.length < rounds := by omega
    have bottom' : -1 ≤ ds₁.top := by omega
    obtain ⟨ds', result, top', entries'⟩ := ih remaining.behind enough' bottom'
      (fun c member => short c (List.mem_cons_of_mem _ member)) (by omega)
    refine ⟨ds', result, ?_, ?_⟩
    · rw [top', top, List.length_cons]
      omega
    · rw [entries', entries, List.map_append, List.map_singleton, prefix8_pushed, List.map_cons, List.append_assoc,
        List.singleton_append]

/-! ## Paths that do not fit -/

/-- A component that is too long is copied over the end of its buffer, and a component too many over the end of the
    stack. -/
theorem getDirStackLoop_bad (remaining : Remaining request i text) (bottom : -1 ≤ ds.top) (inside : ds.top ≤ 255)
    (bad : (∃ c ∈ words slash text, 8 < c.length) ∨ 256 < ds.top + 1 + (words slash text).length) :
    getDirStackLoop request stack rounds i validate ds = .error (.component 8) ∨
      getDirStackLoop request stack rounds i validate ds = .error (.push 256) ∨
      rounds ≤ text.length ∧ getDirStackLoop request stack rounds i validate ds = .error .endless := by
  induction text using Words.text_induction slash generalizing i rounds ds with
  | nil =>
    exfalso
    rcases bad with ⟨c, member, _⟩ | deep
    · simp at member
    · simp only [Words.words_nil, List.length_nil] at deep
      omega
  | mark_ rest ih =>
    rw [Words.words_mark] at bad
    cases rounds with
    | zero => exact .inr (.inr ⟨Nat.zero_le _, rfl⟩)
    | succ rounds =>
      rw [getDirStackLoop_slash remaining.spells.1]
      rcases ih remaining.slash bottom inside bad with long | deep | ⟨short, endless⟩
      · exact .inl long
      · exact .inr (.inl deep)
      · exact .inr (.inr ⟨Nat.succ_le_succ short, endless⟩)
  | word word rest word_ne noSlash behind ih =>
    obtain ⟨spells, plain, ends⟩ := remaining.component noSlash behind
    have positive := List.length_pos_iff.mpr word_ne
    rw [Words.words_word word_ne noSlash behind] at bad
    cases rounds with
    | zero => exact .inr (.inr ⟨Nat.zero_le _, rfl⟩)
    | succ rounds =>
      rcases Nat.lt_or_ge 8 word.length with long | fits
      · exact .inl (getDirStackLoop_long spells plain word_ne ends long)
      · rw [getDirStackLoop_word spells plain word_ne ends fits]
        by_cases room : ds.top < 255
        · obtain ⟨ds₁, stored, top, _⟩ := ds.pushDir_entries bottom room (pushed (stack i) word)
          have later : (∃ c ∈ words slash rest, 8 < c.length) ∨ 256 < ds₁.top + 1 + (words slash rest).length := by
            rcases bad with ⟨c, member, long⟩ | deep
            · rcases List.mem_cons.mp member with rfl | later
              · omega
              · exact .inl ⟨c, later, long⟩
            · rw [List.length_cons] at deep
              exact .inr (by omega)
          rw [stored]
          rcases ih remaining.behind (by omega) (by omega) later with long | deep | ⟨short, endless⟩
          · exact .inl long
          · exact .inr (.inl deep)
          · refine .inr (.inr ⟨?_, endless⟩)
            rw [List.length_append]
            omega
        · obtain full : ds.top = 255 := by omega
          rw [ds.pushDir_full (by omega), full]
          exact .inr (.inl rfl)

/-! ## Reversing and popping -/

namespace DirStack

theorem entries_prefix8 : ds.entries.map prefix8 = (List.range (ds.top + 1).toNat).map ds.component :=
  List.map_map

theorem component_setComponent {k : Nat} {b : Bytes 8} (inside : k < 256) :
    (ds.setComponent i b).component k = if k = i then b else ds.component k := by
  funext a
  by_cases here : k = i
  · subst here
    simp [component, prefix8, cell, setComponent, inside]
  · simp [component, prefix8, cell, setComponent, inside, here]

/-- The loop exchanges what lies in mirrored places, and leaves what lies outside. -/
theorem reverseLoop_component {i j : Int} (lower : 0 ≤ i) (upper : j < 256) (enough : j - i < rounds)
    (some_ : 0 < rounds) :
    ∃ ds', reverseLoop rounds i j ds = some ds' ∧ ds'.top = ds.top ∧
      ∀ k : Nat, k < 256 → ds'.component k =
        if i ≤ k ∧ k ≤ j then ds.component (i + j - k).toNat else ds.component k := by
  induction rounds generalizing i j ds with
  | zero => omega
  | succ rounds ih =>
    rw [reverseLoop]
    by_cases goes : i < j
    · rw [if_pos goes]
      have lower' : 0 ≤ i + 1 := by omega
      have upper' : j - 1 < 256 := by omega
      obtain ⟨ds', result, top, mirrored⟩ := ih lower' upper' (by omega) (by omega)
      refine ⟨ds', result, top, fun k inside => ?_⟩
      rw [mirrored k inside]
      by_cases within : i ≤ k ∧ k ≤ j
      · rw [if_pos within]
        by_cases inner : i + 1 ≤ k ∧ k ≤ j - 1
        · rw [if_pos inner, show i + 1 + (j - 1) - k = i + j - k by omega, component_setComponent (by omega),
            component_setComponent (by omega), if_neg (by omega), if_neg (by omega)]
        · rw [if_neg inner, component_setComponent inside, component_setComponent inside]
          by_cases first : (k : Int) = i
          · rw [if_neg (by omega), if_pos (by omega), show (i + j - k).toNat = j.toNat by omega]
          · rw [if_pos (by omega), show (i + j - k).toNat = i.toNat by omega]
      · rw [if_neg within, if_neg (by omega), component_setComponent inside, component_setComponent inside,
          if_neg (by omega), if_neg (by omega)]
    · rw [if_neg goes]
      refine ⟨ds, rfl, rfl, fun k inside => ?_⟩
      split
      · -- the loop ends where the two indices meet
        rw [show (i + j - k).toNat = k by omega]
      · rfl

theorem reverseDir_entries (bottom : -1 ≤ ds.top) (upper : ds.top < 256) :
    ∃ ds', ds.reverseDir = some ds' ∧ ds'.top = ds.top ∧
      ds'.entries.map prefix8 = (ds.entries.map prefix8).reverse := by
  obtain ⟨ds', result, top, mirrored⟩ : ∃ ds', ds.reverseDir = some ds' ∧ ds'.top = ds.top ∧ _ :=
    reverseLoop_component (Int.le_refl 0) upper (by omega) (by omega)
  refine ⟨ds', result, top, ?_⟩
  rw [entries_prefix8, entries_prefix8, top]
  apply List.ext_getElem (by simp)
  intro k below below'
  have inside : k < (ds.top + 1).toNat := by simpa using below
  simp only [List.getElem_map, List.getElem_range, List.getElem_reverse, List.length_map, List.length_range]
  rw [mirrored k (by omega), if_pos (by omega)]
  congr 1
  omega

theorem popAll_entries (bottom : -1 ≤ ds.top) (enough : ds.top + 1 < rounds) :
    popAll rounds ds = some (ds.entries.reverse, { ds with top := -1 }) := by
  induction rounds generalizing ds with
  | zero => omega
  | succ rounds ih =>
    rw [popAll, popDir]
    by_cases empty : ds.top = -1
    · simp [empty, entries]
      rw [← empty]
    · rw [if_neg empty]
      have below : -1 ≤ ds.top - 1 := by omega
      have enough' : ds.top - 1 + 1 < rounds := by omega
      have last : ds.entries = ({ ds with top := ds.top - 1 } : DirStack).entries ++ [ds.cell ds.top.toNat] := by
        rw [entries, show (ds.top + 1).toNat = ds.top.toNat + 1 by omega, List.range_succ, List.map_append, entries]
        simp only [Int.sub_add_cancel]
        rfl
      have rest : popAll rounds { ds with top := ds.top - 1 } = _ := ih below enough'
      simp [rest, last]

end DirStack

/-! ## What a path comes to -/

theorem lineOf_cString (plain : ∀ c ∈ text, c ≠ 0) : CString (lineOf text) text :=
  ⟨lineOf_spells text, plain, lineOf_end (Nat.le_refl _)⟩

/-- A path whose components fit is taken apart into them, in its own order. -/
theorem getDirStack_roundTrip (string : CString request text) (short : ∀ c ∈ words slash text, c.length ≤ 8)
    (shallow : (words slash text).length ≤ 256) (stack : Nat → Memory) (ds : DirStack) (validate : Int) {rounds : Nat}
    (enough : text.length < rounds) :
    ∃ ds₁ ds₂ paths ds₃, getDirStack request stack ds rounds validate = .ok (ds₁, validate) ∧
      ds₁.reverseDir = some ds₂ ∧ ds₂.popAll 257 = some (paths, ds₃) ∧ ds₃.top = -1 ∧
      paths.map prefix8 = (words slash text).map (padded 8) := by
  have bottom : ds.initDirStack.top = -1 := rfl
  obtain ⟨ds₁, split, top, entries⟩ : ∃ ds₁, getDirStack request stack ds rounds validate = .ok (ds₁, validate) ∧ _ :=
    getDirStackLoop_fits string.remaining enough (Int.le_of_eq bottom.symm) short (by rw [bottom]; omega)
  rw [bottom] at top
  obtain ⟨ds₂, reversed, top', entries'⟩ := ds₁.reverseDir_entries (by omega) (by omega)
  have popped : ds₂.popAll 257 = _ := ds₂.popAll_entries (by omega) (by omega)
  refine ⟨ds₁, ds₂, _, _, split, reversed, popped, rfl, ?_⟩
  rw [List.map_reverse, entries', List.reverse_reverse, entries, DirStack.initDirStack_entries]
  rfl

/-- The path of the test program. -/
def testRequest : List UInt8 :=
  ['/', 'h', 'o', 'm', 'e', '/', 'a', 'b', 'c', '/', 'd', 'e', 'f', '/', 'g', 'h', 'i'].map Char.toUInt8

/-- What memory may hold that was used before. -/
def usedMemory : Nat → Memory := fun _ _ => 0xCC

def usedStack : DirStack := ⟨fun _ _ => 0xCC, 3⟩

theorem testRequest_string : CString (lineOf testRequest) testRequest := lineOf_cString (by decide +kernel)

theorem getDirStack_testRequest :
    ∃ ds₁ ds₂ paths ds₃, getDirStack (lineOf testRequest) usedMemory usedStack 18 1 = .ok (ds₁, 1) ∧
      ds₁.reverseDir = some ds₂ ∧ ds₂.popAll 257 = some (paths, ds₃) ∧ ds₃.top = -1 ∧
      paths.map prefix8 = (words slash testRequest).map (padded 8) :=
  getDirStack_roundTrip testRequest_string (by decide) (by decide) usedMemory usedStack 1 (by decide)

/-- A path that cannot be taken apart: a component is longer than a name, or there are more than the stack holds. -/
def BadPath (text : List UInt8) : Prop := (∃ c ∈ words slash text, 8 < c.length) ∨ 256 < (words slash text).length

/-- The function returns with the path marked as not valid, and all its stores are made. -/
def RejectedSafely (request : Memory) (stack : Nat → Memory) (ds : DirStack) (validate : Int) : Prop :=
  ∃ rounds ds', getDirStack request stack ds rounds validate = .ok (ds', 0)

theorem getDirStack_bad (string : CString request text) (bad : BadPath text) (rounds : Nat) :
    getDirStack request stack ds rounds validate = .error (.component 8) ∨
      getDirStack request stack ds rounds validate = .error (.push 256) ∨
      rounds ≤ text.length ∧ getDirStack request stack ds rounds validate = .error .endless := by
  have bottom : ds.initDirStack.top = -1 := rfl
  refine getDirStackLoop_bad string.remaining (by omega) (by omega) (bad.imp_right fun deep => ?_)
  omega

/-- No bad path is rejected: the store that it leads to comes before any test. -/
theorem getDirStack_not_rejected (string : CString request text) (bad : BadPath text) (stack : Nat → Memory)
    (ds : DirStack) (validate : Int) :
    ¬ RejectedSafely request stack ds validate ∧ ∀ rounds, text.length < rounds →
      getDirStack request stack ds rounds validate = .error (.component 8) ∨
        getDirStack request stack ds rounds validate = .error (.push 256) := by
  constructor
  · rintro ⟨rounds, ds', rejected⟩
    rcases getDirStack_bad string bad rounds with long | deep | ⟨_, endless⟩
    · cases rejected.symm.trans long
    · cases rejected.symm.trans deep
    · cases rejected.symm.trans endless
  · intro rounds enough
    rcases getDirStack_bad string bad rounds with long | deep | ⟨few, _⟩
    · exact .inl long
    · exact .inr deep
    · omega

/-- One component of nine characters. -/
def nineCharacters : List UInt8 := ['b', 'r', 'o', 't', 'h', 'e', 'r', '4', '2'].map Char.toUInt8

theorem nineCharacters_string : CString (lineOf nineCharacters) nineCharacters := lineOf_cString (by decide +kernel)

theorem nineCharacters_bad : BadPath nineCharacters := .inl (by decide)

theorem getDirStack_nineCharacters_stores :
    getDirStack (lineOf nineCharacters) usedMemory usedStack 10 1 = .error (.component 8) ∨
      getDirStack (lineOf nineCharacters) usedMemory usedStack 10 1 = .error (.push 256) :=
  (getDirStack_not_rejected nineCharacters_string nineCharacters_bad usedMemory usedStack 1).2 10 (by decide)

/-- A component of nine characters is not rejected. -/
theorem getDirStack_nineCharacters : CString (lineOf nineCharacters) nineCharacters ∧ BadPath nineCharacters ∧
    ¬ RejectedSafely (lineOf nineCharacters) usedMemory usedStack 1 := by
  refine ⟨nineCharacters_string, nineCharacters_bad, ?_⟩
  rintro ⟨rounds, ds', rejected⟩
  rcases getDirStack_bad nineCharacters_string nineCharacters_bad rounds with long | deep | ⟨_, endless⟩
  · cases rejected.symm.trans long
  · cases rejected.symm.trans deep
  · cases rejected.symm.trans endless

end Brother420.Shell
