import Brother420.Shell.Lines
import Brother420.Shell.Whereis

/-! # File names on a line

What `cat`, `rm` and `whereis` make of the same argument.  Their loops do not stop at a NUL.
-/

namespace Brother420.Shell

open Packed (Bytes)

/-! ## The lines -/

def catText (arg : List UInt8) : List UInt8 := ['c'.toUInt8, 'a'.toUInt8, 't'.toUInt8, space] ++ arg

def rmText (arg : List UInt8) : List UInt8 := ['r'.toUInt8, 'm'.toUInt8, space] ++ arg

def whereisText (arg : List UInt8) : List UInt8 :=
  ['w'.toUInt8, 'h'.toUInt8, 'e'.toUInt8, 'r'.toUInt8, 'e'.toUInt8, 'i'.toUInt8, 's'.toUInt8, space] ++ arg

/-- An argument without blanks. -/
abbrev Argument (arg : List UInt8) : Prop := ∀ c ∈ arg, c ≠ 0 ∧ c ≠ space

/-- The argument is a name of one to eight characters, with a dot and an extension of one to three or without. -/
structure IsName (arg base ext : List UInt8) : Prop where
  base_ne : base ≠ []
  base_le : base.length ≤ 8
  base_plain : dot ∉ base
  ext_le : ext.length ≤ 3
  ext_plain : dot ∉ ext
  text : arg = base ++ if ext = [] then [] else dot :: ext

/-- The three commands take the argument for the same name, and they accept nothing but names. -/
structure NamesAgree (arg : List UInt8) : Prop where
  rm : parseRm (lineOf (rmText arg)) = parseCat (lineOf (catText arg))
  whereis : parseWhereis (lineOf (whereisText arg)) = parseCat (lineOf (catText arg))
  exact : ∀ name ext, parseCat (lineOf (catText arg)) = some (name, ext) ↔
    ∃ base e, IsName arg base e ∧ name = padded 8 base ∧ ext = padded 3 e

variable {arg base ext rest front : List UInt8} {line line' : Memory} {start start' limit k n : Nat}
  {stop : UInt8 → Bool}

/-! ## Reading behind the command -/

theorem lineOf_append (front arg : List UInt8) (k : Nat) : lineOf (front ++ arg) (front.length + k) = lineOf arg k := by
  rw [lineOf, lineOf, List.getD_append_right _ _ _ _ (Nat.le_add_right _ _), Nat.add_sub_cancel_left]

theorem span_congr (same : ∀ k, line (start + k) = line' (start' + k)) :
    span stop line start limit = span stop line' start' limit := by
  induction limit generalizing start start' with
  | zero => rfl
  | succ limit ih =>
    have here := same 0
    rw [Nat.add_zero, Nat.add_zero] at here
    have next (k : Nat) : line (start + 1 + k) = line' (start' + 1 + k) := by
      rw [Nat.add_assoc, Nat.add_assoc]
      exact same (1 + k)
    rw [span, span, here, ih next]

theorem field_congr {count : Nat} (same : ∀ k, line (start + k) = line' (start' + k)) :
    field n line start count = field n line' start' count := by
  funext i
  rw [field, field, same i]

/-- A loop that nothing stops runs to its limit. -/
theorem span_limit (goes : ∀ k, k < limit → stop (line (start + k)) = false) : span stop line start limit = limit := by
  induction limit generalizing start with
  | zero => rfl
  | succ limit ih =>
    have here := goes 0 (Nat.succ_pos _)
    rw [Nat.add_zero] at here
    rw [span, here, if_neg Bool.false_ne_true, ih]
    intro k below
    rw [Nat.add_assoc, Nat.add_comm 1 k]
    exact goes (k + 1) (Nat.succ_lt_succ below)

theorem Argument.ne_space (argument : Argument arg) (k : Nat) : lineOf arg k ≠ space := by
  rw [lineOf]
  rcases Nat.lt_or_ge k arg.length with inside | outside
  · rw [List.getD_eq_getElem _ _ inside]
    exact (argument _ (List.getElem_mem inside)).2
  · rw [List.getD_eq_default _ _ outside]
    decide

/-- Where the loop over the name ends. -/
def nameEnd (arg : List UInt8) : Nat := span (fun c => c == dot || c == space) (lineOf arg) 0 8

theorem span_blank (argument : Argument arg) (start : Nat) : span (· == space) (lineOf arg) start 3 = 3 :=
  span_limit fun k _ => by simp [argument.ne_space]

/-- `cat` accepts every argument. -/
theorem parseCat_argument (argument : Argument arg) :
    parseCat (lineOf (catText arg)) =
      some (field 8 (lineOf arg) 0 (nameEnd arg), field 3 (lineOf arg) (nameEnd arg + 1) 3) := by
  have shift (k : Nat) : lineOf (catText arg) (4 + k) = lineOf arg (0 + k) := by
    rw [Nat.zero_add]
    exact lineOf_append _ arg k
  have count : span (fun c => c == dot || c == space) (lineOf (catText arg)) 4 8 = nameEnd arg := span_congr shift
  have shift' (k : Nat) : lineOf (catText arg) (nameEnd arg + 1 + 4 + k) = lineOf arg (nameEnd arg + 1 + k) := by
    rw [show nameEnd arg + 1 + 4 + k = 4 + (nameEnd arg + 1 + k) by omega, shift, Nat.zero_add]
  have notBlank : lineOf (catText arg) (nameEnd arg + 4) ≠ space := by
    rw [Nat.add_comm, shift]
    exact argument.ne_space _
  have count' : span (· == space) (lineOf (catText arg)) (nameEnd arg + 1 + 4) 3 = 3 :=
    (span_congr shift').trans (span_blank argument _)
  simp only [parseCat, count, notBlank, ↓reduceIte, count']
  rw [field_congr shift, field_congr shift']

/-- `rm` rejects an argument that goes on behind three characters of extension. -/
theorem parseRm_argument (argument : Argument arg) :
    parseRm (lineOf (rmText arg)) =
      if lineOf arg (nameEnd arg) = 0 then some (field 8 (lineOf arg) 0 (nameEnd arg), noExt)
      else if lineOf arg (nameEnd arg + 4) ≠ 0 then none
      else some (field 8 (lineOf arg) 0 (nameEnd arg), field 3 (lineOf arg) (nameEnd arg + 1) 3) := by
  have shift (k : Nat) : lineOf (rmText arg) (3 + k) = lineOf arg (0 + k) := by
    rw [Nat.zero_add]
    exact lineOf_append _ arg k
  have count : span (fun c => c == dot || c == space) (lineOf (rmText arg)) 3 8 = nameEnd arg := span_congr shift
  have shift' (k : Nat) : lineOf (rmText arg) (nameEnd arg + 1 + 3 + k) = lineOf arg (nameEnd arg + 1 + k) := by
    rw [show nameEnd arg + 1 + 3 + k = 3 + (nameEnd arg + 1 + k) by omega, shift, Nat.zero_add]
  have first : lineOf (rmText arg) (nameEnd arg + 3) = lineOf arg (nameEnd arg) := by
    rw [Nat.add_comm, shift, Nat.zero_add]
  have behind : lineOf (rmText arg) (nameEnd arg + 1 + 3 + 3) = lineOf arg (nameEnd arg + 4) := shift' 3
  have count' : span (· == space) (lineOf (rmText arg)) (nameEnd arg + 1 + 3) 3 = 3 :=
    (span_congr shift').trans (span_blank argument _)
  simp only [parseRm, count, first, argument.ne_space, ↓reduceIte, count', behind, ne_eq, not_false_eq_true, and_true,
    true_and]
  rw [field_congr shift, field_congr shift']

/-- What `whereis` reads in place of the extension lies before the name. -/
theorem parseWhereis_argument (argument : Argument arg) :
    parseWhereis (lineOf (whereisText arg)) =
      if lineOf arg (nameEnd arg) = 0 then some (field 8 (lineOf arg) 0 (nameEnd arg), noExt)
      else
        let z := span (· == space) (lineOf (whereisText arg)) (nameEnd arg + 4) 3
        if z = 3 ∧ lineOf (whereisText arg) (nameEnd arg + 4 + z) ≠ 0 ∧
          lineOf (whereisText arg) (nameEnd arg + 4 + z) ≠ space then none
        else some (field 8 (lineOf arg) 0 (nameEnd arg), field 3 (lineOf (whereisText arg)) (nameEnd arg + 4) z) := by
  have shift (k : Nat) : lineOf (whereisText arg) (8 + k) = lineOf arg (0 + k) := by
    rw [Nat.zero_add]
    exact lineOf_append _ arg k
  have count : span (fun c => c == dot || c == space) (lineOf (whereisText arg)) 8 8 = nameEnd arg := span_congr shift
  have first : lineOf (whereisText arg) (nameEnd arg + 8) = lineOf arg (nameEnd arg) := by
    rw [Nat.add_comm, shift, Nat.zero_add]
  have place (z : Nat) : nameEnd arg + 1 + z + 3 = nameEnd arg + 4 + z := by omega
  simp only [parseWhereis, count, first, argument.ne_space, ↓reduceIte, place, field_congr shift]

/-! ## Names -/

namespace IsName

theorem argument_base (name : IsName arg base ext) (argument : Argument arg) : Argument base := fun c member =>
  argument c (by rw [name.text]; exact List.mem_append_left _ member)

theorem argument_ext (name : IsName arg base ext) (argument : Argument arg) : Argument ext := by
  intro c member
  have dotted : ext ≠ [] := List.ne_nil_of_mem member
  apply argument c
  rw [name.text, if_neg dotted]
  exact List.mem_append_right _ (List.mem_cons_of_mem _ member)

/-- Without a dot the loop over the name goes to its limit. -/
theorem nameEnd_plain (name : IsName arg base []) (argument : Argument arg) : nameEnd arg = 8 := by
  apply span_limit
  intro k _
  rw [Nat.zero_add]
  have notDot : lineOf arg k ≠ dot := by
    obtain rfl : arg = base := by simpa using name.text
    rw [lineOf]
    rcases Nat.lt_or_ge k arg.length with inside | outside
    · rw [List.getD_eq_getElem _ _ inside]
      exact fun same => name.base_plain (same ▸ List.getElem_mem inside)
    · rw [List.getD_eq_default _ _ outside]
      decide
  simp [notDot, argument.ne_space]

theorem nameEnd_dotted (name : IsName arg base ext) (argument : Argument arg) (dotted : ext ≠ []) :
    nameEnd arg = base.length ∧ Spells (lineOf arg) 0 base ∧ lineOf arg base.length = dot ∧
      Spells (lineOf arg) (base.length + 1) ext := by
  have whole := lineOf_spells arg
  rw [name.text, if_neg dotted] at whole
  obtain ⟨spells, mark, rest⟩ := whole.append
  rw [Nat.zero_add] at mark rest
  rw [← if_neg (c := ext = []) (t := []) (e := dot :: ext) dotted, ← name.text] at spells mark rest
  refine ⟨?_, spells, mark, rest⟩
  apply span_word spells _ (by rw [Nat.zero_add, mark]; rfl) name.base_le
  intro c member
  have plain := (name.argument_base argument c member).2
  have notDot : c ≠ dot := fun same => name.base_plain (same ▸ member)
  simp [plain, notDot]

/-- Behind the dot there is the extension, and then zeros. -/
theorem lineOf_ext (name : IsName arg base ext) (dotted : ext ≠ []) (k : Nat) :
    lineOf arg (base.length + 1 + k) = lineOf ext k := by
  have split : arg = base ++ [dot] ++ ext := by
    rw [name.text, if_neg dotted, List.append_assoc, List.singleton_append]
  rw [split, ← lineOf_append (base ++ [dot]) ext k, List.length_append, List.length_singleton]

theorem field_ext (name : IsName arg base ext) (dotted : ext ≠ []) :
    field 3 (lineOf arg) (base.length + 1) 3 = padded 3 ext := by
  funext i
  rw [field, if_pos i.isLt, name.lineOf_ext dotted]
  rfl

theorem field_plain (name : IsName arg base []) : field 8 (lineOf arg) 0 8 = padded 8 base := by
  obtain rfl : arg = base := by simpa using name.text
  funext i
  rw [field, if_pos i.isLt, Nat.zero_add]
  rfl

theorem ends_plain (name : IsName arg base []) : lineOf arg 8 = 0 := by
  obtain rfl : arg = base := by simpa using name.text
  exact lineOf_end name.base_le

/-- `cat` reads a name as it is meant. -/
theorem parseCat_eq (name : IsName arg base ext) (argument : Argument arg) :
    parseCat (lineOf (catText arg)) = some (padded 8 base, padded 3 ext) := by
  rw [parseCat_argument argument]
  by_cases plain : ext = []
  · subst plain
    have whole : arg = base := by simpa using name.text
    have short := name.base_le
    subst whole
    rw [name.nameEnd_plain argument, name.field_plain]
    congr 2
    funext i
    rw [field, if_pos i.isLt, lineOf_end (by omega)]
    rfl
  · obtain ⟨count, spells, _, _⟩ := name.nameEnd_dotted argument plain
    rw [count, field_word spells, name.field_ext plain]

/-- So does `rm`. -/
theorem parseRm_eq (name : IsName arg base ext) (argument : Argument arg) :
    parseRm (lineOf (rmText arg)) = parseCat (lineOf (catText arg)) := by
  rw [parseRm_argument argument, name.parseCat_eq argument]
  by_cases plain : ext = []
  · subst plain
    rw [name.nameEnd_plain argument, if_pos name.ends_plain, name.field_plain]
    rfl
  · obtain ⟨count, spells, mark, _⟩ := name.nameEnd_dotted argument plain
    have notZero : dot ≠ 0 := by decide
    have ends : lineOf arg (base.length + 4) = 0 := by
      rw [show base.length + 4 = base.length + 1 + 3 by omega, name.lineOf_ext plain]
      exact lineOf_end name.ext_le
    rw [count, mark, if_neg notZero, ends, if_neg (not_not.mpr rfl), field_word spells, name.field_ext plain]

theorem parseWhereis_plain (name : IsName arg base []) (argument : Argument arg) :
    parseWhereis (lineOf (whereisText arg)) = parseCat (lineOf (catText arg)) := by
  rw [parseWhereis_argument argument, name.parseCat_eq argument, name.nameEnd_plain argument, if_pos name.ends_plain,
    name.field_plain]
  rfl

end IsName

/-! ## Where whereis agrees -/

/-- The extensions that `whereis` can read: what stands before the blank of the command, behind as many characters as
    the name has. -/
def whereisExt : Nat → List UInt8
  | 1 => ['i'.toUInt8, 's'.toUInt8]
  | 2 => ['s'.toUInt8]
  | _ => []

/-- The loop over the extension starts in the command, and stops at its blank. -/
theorem whereis_extension (short : n = 1 ∨ n = 2 ∨ n = 3) (arg : List UInt8) :
    let count := span (· == space) (lineOf (whereisText arg)) (n + 4) 3
    count < 3 ∧ field 3 (lineOf (whereisText arg)) (n + 4) count = padded 3 (whereisExt n) := by
  have third : lineOf (whereisText arg) 5 = 'i'.toUInt8 := rfl
  have second : lineOf (whereisText arg) 6 = 's'.toUInt8 := rfl
  have blank : lineOf (whereisText arg) 7 = space := rfl
  have notBlank : ('i'.toUInt8 == space) = false ∧ ('s'.toUInt8 == space) = false := by decide
  obtain rfl | rfl | rfl := short
  · have stops : span (· == space) (lineOf (whereisText arg)) 5 3 = 2 := by
      simp [span, third, second, blank, notBlank]
    simp only [Nat.reduceAdd, stops]
    refine ⟨by decide, ?_⟩
    funext i
    fin_cases i <;> rfl
  · have stops : span (· == space) (lineOf (whereisText arg)) 6 3 = 1 := by
      simp [span, second, blank, notBlank]
    simp only [Nat.reduceAdd, stops]
    refine ⟨by decide, ?_⟩
    funext i
    fin_cases i <;> rfl
  · have stops : span (· == space) (lineOf (whereisText arg)) 7 3 = 0 := by
      simp [span, blank]
    simp only [Nat.reduceAdd, stops]
    exact ⟨by decide, rfl⟩

/-- Behind a longer name it starts in the argument, and finds more than three characters. -/
theorem IsName.whereis_tooLong (name : IsName arg base ext) (argument : Argument arg)
    (spells : Spells (lineOf arg) 0 base) (long : 4 ≤ base.length) :
    span (· == space) (lineOf (whereisText arg)) (base.length + 4) 3 = 3 ∧
      lineOf (whereisText arg) (base.length + 4 + 3) ≠ 0 ∧ lineOf (whereisText arg) (base.length + 4 + 3) ≠ space := by
  have shift (k : Nat) : lineOf (whereisText arg) (8 + k) = lineOf arg k := lineOf_append _ arg k
  have inside (k : Nat) (below : k < base.length) : lineOf arg k ≠ 0 ∧ lineOf arg k ≠ space := by
    have there := spells_iff.mp spells k below
    rw [Nat.zero_add, List.getD_eq_getElem _ _ below] at there
    rw [there]
    exact name.argument_base argument _ (List.getElem_mem below)
  constructor
  · apply span_limit
    intro k below
    rw [show base.length + 4 + k = 8 + (base.length - 4 + k) by omega, shift]
    simp [argument.ne_space]
  · rw [show base.length + 4 + 3 = 8 + (base.length - 1) by omega, shift]
    exact inside _ (by omega)

/-- `whereis` takes the extension from its own command, and rejects a name of four characters or more. -/
theorem IsName.parseWhereis_dotted (name : IsName arg base ext) (argument : Argument arg) (dotted : ext ≠ []) :
    parseWhereis (lineOf (whereisText arg)) =
      if base.length < 4 then some (padded 8 base, padded 3 (whereisExt base.length)) else none := by
  obtain ⟨count, spells, mark, _⟩ := name.nameEnd_dotted argument dotted
  have notZero : dot ≠ 0 := by decide
  have positive := List.length_pos_iff.mpr name.base_ne
  rw [parseWhereis_argument argument, count, mark, if_neg notZero, field_word spells]
  by_cases short : base.length < 4
  · obtain ⟨few, extension⟩ := whereis_extension (show base.length = 1 ∨ base.length = 2 ∨ base.length = 3 by omega) arg
    dsimp only
    rw [if_pos short, if_neg fun full => absurd full.1 (Nat.ne_of_lt few), extension]
  · obtain ⟨full, more⟩ := name.whereis_tooLong argument spells (Nat.le_of_not_lt short)
    simp only [full]
    rw [if_neg short, if_pos ⟨trivial, more⟩]

/-- The arguments on which the commands agree: a name without an extension, and those names whose extension is what
    `whereis` takes for it. -/
def AgreedName (arg : List UInt8) : Prop :=
  (dot ∉ arg ∧ arg ≠ [] ∧ arg.length ≤ 8) ∨
    ∃ base, dot ∉ base ∧ (base.length = 1 ∨ base.length = 2) ∧ arg = base ++ dot :: whereisExt base.length

theorem whereisExt_name (n : Nat) :
    (whereisExt n).length ≤ 3 ∧ dot ∉ whereisExt n ∧ ∀ c ∈ whereisExt n, c ≠ 0 := by
  unfold whereisExt
  split <;> decide +kernel

theorem whereisExt_ne (short : n = 1 ∨ n = 2) : whereisExt n ≠ [] := by
  rcases short with rfl | rfl <;> decide

theorem AgreedName.isName (agreed : AgreedName arg) :
    ∃ base ext, IsName arg base ext ∧ (ext = [] ∨ base.length < 4 ∧ ext = whereisExt base.length) := by
  rcases agreed with ⟨plain, ne, le⟩ | ⟨base, plain, short, text⟩
  · exact ⟨arg, [], ⟨ne, le, plain, by decide, List.not_mem_nil, by simp⟩, .inl rfl⟩
  · have ne : base ≠ [] := by
      rintro rfl
      simp at short
    obtain ⟨ext_le, ext_plain, _⟩ := whereisExt_name base.length
    refine ⟨base, whereisExt base.length, ⟨ne, by omega, plain, ext_le, ext_plain, ?_⟩, .inr ⟨by omega, rfl⟩⟩
    rw [if_neg (whereisExt_ne short), text]

/-- An argument is one name only. -/
theorem IsName.unique {base' ext' : List UInt8} (name : IsName arg base ext) (other : IsName arg base' ext') :
    base = base' ∧ ext = ext' := by
  have cut {base ext : List UInt8} (name : IsName arg base ext) : arg.takeWhile (· ≠ dot) = base := by
    have body : ∀ c ∈ base, decide (c ≠ dot) = true := fun c member =>
      decide_eq_true fun same => name.base_plain (same ▸ member)
    rw [name.text, List.takeWhile_append_of_pos body]
    split <;> simp
  obtain rfl : base = base' := (cut name).symm.trans (cut other)
  refine ⟨rfl, ?_⟩
  have rest := List.append_cancel_left (name.text.symm.trans other.text)
  split at rest <;> split at rest
  · rename_i none_ none_'
    rw [none_, none_']
  · cases rest
  · cases rest
  · exact (List.cons.inj rest).2

/-- The three commands agree on an argument if it is a name without an extension, or `x.is`, or `xy.s`. -/
theorem namesAgree_iff (argument : Argument arg) : NamesAgree arg ↔ AgreedName arg := by
  constructor
  · intro agree
    obtain ⟨base, ext, name, _⟩ := (agree.exact _ _).mp (parseCat_argument argument)
    by_cases plain : ext = []
    · subst plain
      obtain rfl : arg = base := by simpa using name.text
      exact .inl ⟨name.base_plain, name.base_ne, name.base_le⟩
    · have whereis := agree.whereis
      rw [name.parseWhereis_dotted argument plain, name.parseCat_eq argument] at whereis
      split at whereis
      · rename_i short
        have same : padded 3 (whereisExt base.length) = padded 3 ext :=
          (Prod.mk.inj (Option.some.inj whereis)).2
        have positive := List.length_pos_iff.mpr name.base_ne
        obtain ⟨fits, _, letters⟩ := whereisExt_name base.length
        obtain rfl := padded_injective fits name.ext_le letters
          (fun c member => (name.argument_ext argument c member).1) same
        have few : base.length = 1 ∨ base.length = 2 := by
          by_contra many
          have three : base.length = 3 := by omega
          exact plain (by rw [three]; rfl)
        exact .inr ⟨base, name.base_plain, few, by rw [← if_neg (c := whereisExt base.length = []) (t := [])
          (e := dot :: whereisExt base.length) plain]; exact name.text⟩
      · cases whereis
  · intro agreed
    obtain ⟨base, ext, name, found⟩ := agreed.isName
    refine ⟨name.parseRm_eq argument, ?_, ?_⟩
    · rcases found with rfl | ⟨short, rfl⟩
      · exact name.parseWhereis_plain argument
      · by_cases plain : whereisExt base.length = []
        · rw [plain] at name
          exact name.parseWhereis_plain argument
        · rw [name.parseWhereis_dotted argument plain, if_pos short, name.parseCat_eq argument]
    · intro name' ext'
      rw [name.parseCat_eq argument]
      constructor
      · intro same
        obtain ⟨rfl, rfl⟩ := Prod.mk.inj (Option.some.inj same)
        exact ⟨base, ext, name, rfl, rfl⟩
      · rintro ⟨base', e, other, rfl, rfl⟩
        obtain ⟨rfl, rfl⟩ := name.unique other
        rfl

theorem namesAgree_docs : NamesAgree ['d'.toUInt8, 'o'.toUInt8, 'c'.toUInt8, 's'.toUInt8] :=
  (namesAgree_iff (by decide +kernel)).mpr (.inl (by decide))

def argAT : List UInt8 := ['a'.toUInt8, dot, 't'.toUInt8]

/-- `whereis` looks for `a.is` when it is asked for `a.t`. -/
theorem not_namesAgree_argAT : Argument argAT ∧ IsName argAT ['a'.toUInt8] ['t'.toUInt8] ∧ ¬ NamesAgree argAT := by
  refine ⟨by decide +kernel, ⟨by decide, by decide, by decide, by decide, by decide, by decide⟩, fun agree => ?_⟩
  exact absurd agree.whereis (by decide)

end Brother420.Shell
