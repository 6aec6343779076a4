import Brother420.Shell.Navigation
import Brother420.Shell.PathSplitting
import Mathlib.Data.Fintype.EquivFin

/-! # cd with several names

`command_call_multi_cd` cuts off one name after the other into an array that is not initialised, and
`command_call_cd` compares eight bytes of it, those behind the NUL too.
-/

namespace Brother420

open Packed (Bytes)
open Runs (Run)

namespace Shell

open Fat32 Volume

/-! ## The single commands -/

/-- `cd` by each of these names in turn, padded with zeros, up to the first that fails. -/
def cdEach : ShellState → List (List UInt8) → Option ShellState
  | s, [] => some s
  | s, name :: names => do
    let (retVal, s) ← commandCallCd s (lineOf name)
    if retVal = 0 then cdEach s names else some s

/-- A name between slashes. -/
structure Component (name : List UInt8) : Prop where
  ne : name ≠ []
  le : name.length ≤ 8
  plain : ∀ c ∈ name, c ≠ 0 ∧ c ≠ slash

/-- The cluster that `cd` goes to by these eight bytes. -/
def lookup (s : ShellState) (name : Bytes 8) : Option Nat :=
  (findLive (readTable s.kernel s.currentDirectoryCluster) name noExt).map fun i =>
    (readTable s.kernel s.currentDirectoryCluster i).cluster

/-- The memory holds the name and a NUL behind it. -/
def Holds (m : Memory) (name : List UInt8) : Prop := ∀ a ≤ name.length, m a = name.getD a 0

/-- A slot in use, without an extension, whose name is this one with a NUL and anything behind it. -/
def Begins (s : ShellState) (name : List UInt8) (i : Fin 64) : Prop :=
  i ≠ 0 ∧ (readTable s.kernel s.currentDirectoryCluster i).Live ∧
    (readTable s.kernel s.currentDirectoryCluster i).ext = noExt ∧
    ∀ a : Fin 8, a.val ≤ name.length → (readTable s.kernel s.currentDirectoryCluster i).name a = name.getD a 0

/-- It does not matter what follows the name: it starts with two dots, it leaves no room for anything, or no
    folder's name begins with it. -/
def Steady (s : ShellState) (name : List UInt8) : Prop :=
  Upward (lineOf name) ∨ 7 ≤ name.length ∨ ∀ i, ¬ Begins s name i

/-- Every name that is reached is steady, and the last one is looked up right with the bytes that follow it. -/
def Faithful : (path : Memory) → ShellState → List (List UInt8) → Prop
  | _, _, [] => True
  | path, s, [name] => Upward (lineOf name) ∨ lookup s (path.bytes 0 8) = lookup s (padded 8 name)
  | path, s, name :: names =>
    Steady s name ∧ ∀ s', commandCallCd s (lineOf name) = some (0, s') →
      Faithful (fun a => path (name.length + 1 + a)) s' names

/-- The names that start with two dots stand in front. -/
def Descending (names : List (List UInt8)) : Prop :=
  names.Pairwise fun name later => Upward (lineOf later) → Upward (lineOf name)

variable {s s' t : ShellState} {path m m' : Memory} {stack : Nat → Memory} {fuel : Nat} {name second : List UInt8}
  {names : List (List UInt8)} {c : Nat} {i : Fin 64} {code : UInt8}

/-! ## One command -/

theorem cd_upward_congr (upward : Upward m) (upward' : Upward m') : commandCallCd s m = commandCallCd s m' := by
  have dots : memcmp (m.bytes 0 2) dotDot = 0 := memcmp_eq_zero_iff.mpr upward
  have dots' : memcmp (m'.bytes 0 2) dotDot = 0 := memcmp_eq_zero_iff.mpr upward'
  simp only [commandCallCd, dots, dots', ↓reduceIte]

/-- Otherwise `cd` only looks the name up. -/
theorem cd_lookup (notUp : ¬ Upward m) :
    commandCallCd s m =
      match lookup s (m.bytes 0 8) with
      | some c => (pushDirectory { s with currentDirectoryCluster := c } c).bind fun s => some (0, s)
      | none => some (1, s) := by
  have notDots : ¬ memcmp (m.bytes 0 2) dotDot = 0 := by rwa [memcmp_eq_zero_iff]
  simp only [commandCallCd, notDots, ↓reduceIte, lookup]
  cases findLive (readTable s.kernel s.currentDirectoryCluster) (m.bytes 0 8) noExt with
  | none => rfl
  | some i => rfl

theorem lineOf_bytes (name : List UInt8) : (lineOf name).bytes 0 8 = padded 8 name := by
  funext a
  simp [Memory.bytes, lineOf, padded]

theorem lineOf_holds (name : List UInt8) : Holds (lineOf name) name := fun _ _ => rfl

theorem Holds.upward (holds : Holds m name) (component : Component name) : Upward m ↔ Upward (lineOf name) := by
  have positive := List.length_pos_iff.mpr component.ne
  have same : m.bytes 0 2 = (lineOf name).bytes 0 2 := by
    funext a
    exact holds (0 + a.val) (by omega)
  rw [Upward, Upward, same]

/-- A steady name is looked up with anything behind it as with zeros. -/
theorem cd_steady (holds : Holds m name) (component : Component name) (steady : Steady s name) :
    commandCallCd s m = commandCallCd s (lineOf name) := by
  by_cases up : Upward (lineOf name)
  · exact cd_upward_congr ((holds.upward component).mpr up) up
  · rw [cd_lookup up, cd_lookup (mt (holds.upward component).mp up)]
    have same : lookup s (m.bytes 0 8) = lookup s ((lineOf name).bytes 0 8) := by
      rcases steady with up' | long | nothing
      · exact absurd up' up
      · congr 1
        funext a
        exact holds (0 + a.val) (by omega)
      · have absent {m' : Memory} (holds : Holds m' name) : lookup s (m'.bytes 0 8) = none := by
          rw [lookup, Option.map_eq_none_iff, findLive_none]
          intro j entry live found bare
          refine nothing j ⟨entry, live, bare, fun a inside => ?_⟩
          rw [found, Memory.bytes, Nat.zero_add, holds a inside]
        rw [absent holds, absent (lineOf_holds name)]
    rw [same]

/-- Without two dots, `cd` stays, or its stack grows. -/
theorem cd_top (notUp : ¬ Upward m) (answer : commandCallCd s m = some (code, s')) :
    (code = 1 ∧ s' = s ∧ lookup s (m.bytes 0 8) = none) ∨
      code = 0 ∧ s'.currentDirStack.top = s.currentDirStack.top + 1 ∧
        lookup s (m.bytes 0 8) = some s'.currentDirectoryCluster := by
  rw [cd_lookup notUp] at answer
  cases found : lookup s (m.bytes 0 8) with
  | none =>
    rw [found] at answer
    cases answer
    exact .inl ⟨rfl, rfl, rfl⟩
  | some c =>
    rw [found] at answer
    obtain ⟨s₁, pushed, same⟩ := Option.bind_eq_some_iff.mp answer
    obtain ⟨cds, stored, entered⟩ := Option.bind_eq_some_iff.mp pushed
    cases entered
    cases same
    refine .inr ⟨rfl, ?_, rfl⟩
    simp only [CurrentDirStack.pushCurrentDir] at stored
    split at stored
    · cases stored
      rfl
    · cases stored

theorem cdEach_entered (answer : commandCallCd s (lineOf name) = some (0, s')) :
    cdEach s (name :: names) = cdEach s' names := by
  rw [cdEach, answer]
  rfl

/-! ## One name of several -/

/-- The last name is given to `cd` as it stands in memory. -/
theorem multiCd_last (string : CString path name) (component : Component name) :
    commandCallMultiCd s stack (fuel + 1) path = (commandCallCd s path).map Prod.snd := by
  have count : span (fun c => c == 0 || c == slash) path 0 256 = name.length :=
    span_word string.spells (fun c member => by simp [component.plain c member]) (by simp [string.ends])
      (Nat.le_trans component.le (by decide))
  have short : name.length ≠ 256 := by
    have := component.le
    omega
  have notSlash : (0 : UInt8) ≠ slash := by decide
  simp only [commandCallMultiCd, count, short, string.ends, notSlash, ↓reduceIte, Option.map_eq_bind]
  rfl

/-- A name before a slash is copied, and the rest of the path is for the next call. -/
theorem multiCd_cons (spells : Spells path 0 name) (ends : path name.length = slash) (component : Component name) :
    commandCallMultiCd s stack (fuel + 1) path =
      (commandCallCd s (newPath (stack fuel) path name.length)).bind fun answer =>
        if answer.1 = 0 then commandCallMultiCd answer.2 stack fuel (fun a => path (name.length + 1 + a))
        else some answer.2 := by
  have count : span (fun c => c == 0 || c == slash) path 0 256 = name.length :=
    span_word spells (fun c member => by simp [component.plain c member]) (by simp [ends])
      (Nat.le_trans component.le (by decide))
  have bound := component.le
  have positive := List.length_pos_iff.mpr component.ne
  have short : name.length ≠ 256 := by omega
  have inside : ¬ 64 ≤ name.length := by omega
  have some_ : name.length ≠ 0 := by omega
  simp only [commandCallMultiCd, count, short, ends, some_, inside, ↓reduceIte]
  rfl

theorem newPath_holds (stack : Memory) (spells : Spells path 0 name) : Holds (newPath stack path name.length) name := by
  intro a inside
  rw [newPath]
  split
  · rename_i below
    have there := spells_iff.mp spells a below
    rwa [Nat.zero_add] at there
  · rename_i notBelow
    rw [if_pos (by omega), List.getD_eq_default _ _ (by omega)]

theorem CString.holds (string : CString path name) : Holds path name := by
  intro a inside
  rcases Nat.lt_or_ge a name.length with below | above
  · have there := spells_iff.mp string.spells a below
    rwa [Nat.zero_add] at there
  · obtain rfl : a = name.length := by omega
    rw [string.ends, List.getD_eq_default _ _ (Nat.le_refl _)]

/-- A path of several names splits behind the first. -/
theorem CString.next (string : CString path ([slash].intercalate (name :: second :: names))) :
    Spells path 0 name ∧ path name.length = slash ∧
      CString (fun a => path (name.length + 1 + a)) ([slash].intercalate (second :: names)) := by
  rw [List.intercalate_cons_cons, List.append_assoc, List.singleton_append] at string
  obtain ⟨front, mark, rest⟩ := string.spells.append
  rw [Nat.zero_add] at mark rest
  refine ⟨front, mark, ?_, fun c member => string.plain c (by simp [member]), ?_⟩
  · rw [spells_iff] at rest ⊢
    intro i inside
    rw [Nat.zero_add]
    exact rest i inside
  · have ends := string.ends
    rwa [List.length_append, List.length_cons, ← Nat.add_assoc, Nat.add_right_comm] at ends

/-! ## All names -/

theorem multiCd_faithful (string : CString path ([slash].intercalate names)) (ne : names ≠ [])
    (components : ∀ name ∈ names, Component name) (faithful : Faithful path s names) (enough : names.length ≤ fuel)
    (stack : Nat → Memory) : commandCallMultiCd s stack fuel path = cdEach s names := by
  induction names generalizing s path fuel with
  | nil => exact absurd rfl ne
  | cons name names ih =>
    have component := components name List.mem_cons_self
    obtain ⟨fuel, rfl⟩ : ∃ f, fuel = f + 1 := ⟨fuel - 1, by simp only [List.length_cons] at enough; omega⟩
    cases names with
    | nil =>
      rw [List.intercalate_singleton] at string
      have same : commandCallCd s path = commandCallCd s (lineOf name) := by
        by_cases up : Upward (lineOf name)
        · exact cd_upward_congr ((string.holds.upward component).mpr up) up
        · have found := faithful.resolve_left up
          rw [cd_lookup up, cd_lookup (mt (string.holds.upward component).mp up), found, lineOf_bytes]
      rw [multiCd_last string component, same, cdEach]
      cases commandCallCd s (lineOf name) with
      | none => rfl
      | some answer => simp [cdEach]
    | cons second names =>
      obtain ⟨spells, ends, rest⟩ := string.next
      obtain ⟨steady, later⟩ := faithful
      rw [multiCd_cons spells ends component, cd_steady (newPath_holds (stack fuel) spells) component steady, cdEach]
      cases answer : commandCallCd s (lineOf name) with
      | none => rfl
      | some result =>
        obtain ⟨code, s₁⟩ := result
        simp only [Option.bind_eq_bind, Option.bind_some]
        by_cases entered : code = 0
        · subst entered
          rw [if_pos rfl, if_pos rfl]
          exact ih rest (List.cons_ne_nil _ _) (fun name member => components name (List.mem_cons_of_mem _ member))
            (later s₁ answer) (by simpa using enough)
        · rw [if_neg entered, if_neg entered]

/-- Going down, the stack does not get shorter. -/
theorem multiCd_top (string : CString path ([slash].intercalate names)) (ne : names ≠ [])
    (components : ∀ name ∈ names, Component name) (down : ∀ name ∈ names, ¬ Upward (lineOf name))
    (result : commandCallMultiCd s stack fuel path = some t) : s.currentDirStack.top ≤ t.currentDirStack.top := by
  induction names generalizing s path fuel with
  | nil => exact absurd rfl ne
  | cons name names ih =>
    have component := components name List.mem_cons_self
    have notUp := down name List.mem_cons_self
    cases fuel with
    | zero => cases result
    | succ fuel =>
      cases names with
      | nil =>
        rw [List.intercalate_singleton] at string
        rw [multiCd_last string component] at result
        obtain ⟨⟨code, s₁⟩, answer, rfl⟩ := Option.map_eq_some_iff.mp result
        rcases cd_top (mt (string.holds.upward component).mp notUp) answer with ⟨_, rfl, _⟩ | ⟨_, top, _⟩
        · exact Int.le_refl _
        · simp only [top]
          omega
      | cons second names =>
        obtain ⟨spells, ends, rest⟩ := string.next
        rw [multiCd_cons spells ends component] at result
        obtain ⟨⟨code, s₁⟩, answer, onward⟩ := Option.bind_eq_some_iff.mp result
        rcases cd_top (mt ((newPath_holds _ spells).upward component).mp notUp) answer with
          ⟨rfl, rfl, _⟩ | ⟨rfl, top, _⟩
        · obtain rfl : s₁ = t := by simpa using onward
          exact Int.le_refl _
        · have deeper : s₁.currentDirStack.top ≤ t.currentDirStack.top :=
            ih rest (List.cons_ne_nil _ _) (fun name member => components name (List.mem_cons_of_mem _ member))
              (fun name member => down name (List.mem_cons_of_mem _ member)) onward
          omega

/-- A byte that no entry of the table has in this place. -/
theorem exists_other_byte (table : FAT32DirectoryTable) (a : Fin 8) : ∃ b, ∀ i, (table i).name a ≠ b := by
  by_contra all
  push Not at all
  have onto : Function.Surjective fun i : Fin 64 => ((table i).name a).toFin := by
    intro value
    obtain ⟨i, same⟩ := all ⟨⟨value⟩⟩
    exact ⟨i, congrArg UInt8.toFin same⟩
  have count := Fintype.card_le_of_surjective _ onto
  simp only [Fintype.card_fin] at count
  exact absurd count (by decide)

/-- The new path with this name, whatever the array is to hold behind it. -/
theorem newPath_bytes {n : Bytes 8} (spells : Spells path 0 name)
    (begins : ∀ a : Fin 8, a.val ≤ name.length → n a = name.getD a 0) :
    (newPath (fun a => if h : a < 8 then n ⟨a, h⟩ else 0) path name.length).bytes 0 8 = n := by
  funext a
  rw [Memory.bytes, Nat.zero_add]
  by_cases inside : a.val ≤ name.length
  · rw [newPath_holds _ spells a inside, begins a inside]
  · simp only [newPath, show ¬ a.val < name.length by omega, show ¬ a.val = name.length by omega, ↓reduceIte, a.isLt,
      ↓reduceDIte]

/-- Some contents of the array make `cd` refuse a name of fewer than seven characters. -/
theorem refused (spells : Spells path 0 name) (component : Component name) (notUp : ¬ Upward (lineOf name))
    (short : name.length < 7) :
    ∃ g : Memory, commandCallCd s (newPath g path name.length) = some (1, s) := by
  obtain ⟨b, other⟩ :=
    exists_other_byte (readTable s.kernel s.currentDirectoryCluster) ⟨name.length + 1, by omega⟩
  refine ⟨fun _ => b, ?_⟩
  have holds := newPath_holds (fun _ => b) spells
  rw [cd_lookup (mt (holds.upward component).mp notUp)]
  have absent : lookup s ((newPath (fun _ => b) path name.length).bytes 0 8) = none := by
    rw [lookup, Option.map_eq_none_iff, findLive_none]
    intro i _ _ found _
    apply other i
    rw [found, Memory.bytes, Nat.zero_add, newPath, if_neg (by simp), if_neg (by simp)]
  rw [absent]

/-- Others make it find a folder whose name begins with the name. -/
theorem misled (spells : Spells path 0 name) (begins : Begins s name i) :
    ∃ (g : Memory) (c : Nat), lookup s ((newPath g path name.length).bytes 0 8) = some c := by
  obtain ⟨entry, live, bare, starts⟩ := begins
  refine ⟨fun a => if h : a < 8 then (readTable s.kernel s.currentDirectoryCluster i).name ⟨a, h⟩ else 0, ?_⟩
  rw [newPath_bytes spells starts, ← Option.isSome_iff_exists, lookup, Option.isSome_map, Option.isSome_iff_ne_none]
  intro absent
  exact findLive_none.mp absent i entry live rfl bare

/-- A last name that ends where the single command does is looked up right. -/
theorem faithful_last (string : CString path name) (component : Component name) (single : cdEach s [name] = some t)
    (multi : (commandCallCd s path).map Prod.snd = some t) :
    Upward (lineOf name) ∨ lookup s (path.bytes 0 8) = lookup s (padded 8 name) := by
  obtain ⟨⟨code, s₁⟩, answer, rfl⟩ := Option.map_eq_some_iff.mp multi
  obtain ⟨⟨code', s₂⟩, answer', ended⟩ := Option.bind_eq_some_iff.mp single
  obtain rfl : s₂ = s₁ := by simpa [cdEach] using ended
  by_cases up : Upward (lineOf name)
  · exact .inl up
  · right
    rw [← lineOf_bytes]
    -- the stack grows if and only if a folder is found, and then it is the one that is entered
    rcases cd_top (mt (string.holds.upward component).mp up) answer with ⟨_, stay, none_⟩ | ⟨_, top, found⟩ <;>
      rcases cd_top up answer' with ⟨_, stay', none_'⟩ | ⟨_, top', found'⟩
    · rw [none_, none_']
    · rw [stay] at top'
      omega
    · rw [stay'] at top
      omega
    · rw [found, found']

/-- A name before others, on a path that goes down behind it and ends in one state for all contents of the array. -/
theorem steady_of_multiCd {names : List (List UInt8)} (spells : Spells path 0 name) (ends : path name.length = slash)
    (component : Component name) (components : ∀ later ∈ second :: names, Component later)
    (rest : CString (fun a => path (name.length + 1 + a)) ([slash].intercalate (second :: names)))
    (later : ∀ later ∈ second :: names, Upward (lineOf later) → Upward (lineOf name))
    (same : ∀ stack, commandCallMultiCd s stack ((second :: names).length + 1) path = some t) : Steady s name := by
  by_contra unsteady
  obtain ⟨notUp, short, begun⟩ : ¬ Upward (lineOf name) ∧ ¬ 7 ≤ name.length ∧ ¬ ∀ i, ¬ Begins s name i := by
    simpa only [Steady, not_or] using unsteady
  have down : ∀ later ∈ second :: names, ¬ Upward (lineOf later) := fun name' member up =>
    notUp (later name' member up)
  -- with the first contents the path ends here, with the others it goes on below
  obtain ⟨g, stays⟩ := refused (s := s) spells component notUp (Nat.lt_of_not_le short)
  have ended := same fun _ => g
  rw [multiCd_cons spells ends component, stays] at ended
  obtain rfl : s = t := by simpa using ended
  obtain ⟨i, begins⟩ := not_forall_not.mp begun
  obtain ⟨g', c, found⟩ := misled spells begins
  have onward := same fun _ => g'
  rw [multiCd_cons spells ends component] at onward
  obtain ⟨⟨code, s₁⟩, answer, onward⟩ := Option.bind_eq_some_iff.mp onward
  rcases cd_top (mt ((newPath_holds _ spells).upward component).mp notUp) answer with
    ⟨_, _, absent⟩ | ⟨rfl, top, _⟩
  · rw [found] at absent
    cases absent
  · have deeper : s₁.currentDirStack.top ≤ s.currentDirStack.top :=
      multiCd_top rest (List.cons_ne_nil _ _) components down onward
    omega

/-- A path that goes down only ends where the single commands do, for all contents of the array, if it is faithful. -/
theorem faithful_of_multiCd (string : CString path ([slash].intercalate names)) (ne : names ≠ [])
    (components : ∀ name ∈ names, Component name) (descending : Descending names) (single : cdEach s names = some t)
    (same : ∀ stack, commandCallMultiCd s stack names.length path = some t) : Faithful path s names := by
  induction names generalizing s path with
  | nil => exact absurd rfl ne
  | cons name names ih =>
    have component := components name List.mem_cons_self
    obtain ⟨later, descending⟩ := List.pairwise_cons.mp descending
    cases names with
    | nil =>
      rw [List.intercalate_singleton] at string
      have multi := same fun _ _ => 0
      rw [List.length_singleton, multiCd_last string component] at multi
      exact faithful_last string component single multi
    | cons second names =>
      obtain ⟨spells, ends, rest⟩ := string.next
      have components' : ∀ name ∈ second :: names, Component name := fun name member =>
        components name (List.mem_cons_of_mem _ member)
      have steady : Steady s name := steady_of_multiCd spells ends component components' rest later same
      refine ⟨steady, fun s' entered => ?_⟩
      apply ih rest (List.cons_ne_nil _ _) components' descending
      · rwa [cdEach_entered entered] at single
      · intro stack
        have multi := same stack
        rwa [List.length_cons, multiCd_cons spells ends component,
          cd_steady (newPath_holds _ spells) component steady, entered, Option.bind_some, if_pos rfl] at multi

/-! ## Several names or one after the other -/

/-- On a faithful path `cd` with several names ends where the single commands do, whatever its arrays hold.  On a path
    that goes down only, and where the single commands have room for their pushes, it does so on no other. -/
theorem multiCd_iff (string : CString path ([slash].intercalate names)) (ne : names ≠ [])
    (components : ∀ name ∈ names, Component name) (s : ShellState) :
    (Faithful path s names →
      ∀ stack fuel, names.length ≤ fuel → commandCallMultiCd s stack fuel path = cdEach s names) ∧
    (Descending names → cdEach s names ≠ none →
      (∀ stack fuel, names.length ≤ fuel → commandCallMultiCd s stack fuel path = cdEach s names) →
      Faithful path s names) := by
  refine ⟨fun faithful stack fuel enough => multiCd_faithful string ne components faithful enough stack, ?_⟩
  intro descending ended same
  obtain ⟨t, single⟩ := Option.ne_none_iff_exists'.mp ended
  apply faithful_of_multiCd string ne components descending single
  intro stack
  rw [same stack _ (Nat.le_refl _), single]

/-- A folder whose name has seven characters, and a folder in it. -/
def archiveD : List (List UInt8) := [['a', 'r', 'c', 'h', 'i', 'v', 'e'].map Char.toUInt8, ['d'.toUInt8]]

def folderArchive : FAT32DriverRequest := ⟨fun _ => 0, padded 8 archiveD[0], fun _ => 0, 2, 0⟩

def innerD : FAT32DriverRequest := ⟨fun _ => 0, padded 8 archiveD[1], fun _ => 0, 3, 0⟩

theorem archiveD_components : ∀ name ∈ archiveD, Component name := by
  intro name member
  rcases List.mem_pair.mp member with rfl | rfl
  · exact ⟨by decide, by decide, by decide +kernel⟩
  · exact ⟨by decide, by decide, by decide +kernel⟩

theorem archiveD_faithful (s : ShellState) : Faithful (lineOf ([slash].intercalate archiveD)) s archiveD :=
  ⟨.inr (.inl (by decide)), fun s' _ => .inr (congrArg (lookup s') (by decide))⟩

/-- The single commands enter the two. -/
theorem cdEach_archiveD :
    ∃ k s₁ s₂, Run perform Intended Fresh [(.write folderArchive, 0), (.write innerD, 0)] k ∧
      (k.disk.table 3 0).name = folderArchive.name ∧ (k.disk.table 4 0).name = innerD.name ∧
      commandCallCd (startShell k) (lineOf archiveD[0]) = some (0, s₁) ∧ s₁.currentDirectoryCluster = 3 ∧
      commandCallCd s₁ (lineOf archiveD[1]) = some (0, s₂) ∧ s₂.currentDirectoryCluster = 4 := by
  obtain ⟨k₁, k, run, written₁, written, table₁, table⟩ := run_inside folderArchive innerD (t := []) rfl (by decide)
    (by decide) rfl rfl (by decide) (by decide) List.range'_succ rfl
  obtain ⟨_, entry₁⟩ := first_entry written₁
  have outer : k.disk.table rootClusterNumber 1 = newEntry folderArchive 3 := by
    rw [← entry₁]
    exact congrFun (written.added.tableFrame _ .root (by decide)) 1
  have inner : k.disk.table 3 1 = newEntry innerD 4 := written.added.table_new
  have standing := (started_startShell (run_regular run).wellFormed).standing
  have enters₁ : Enters (startShell k) (lineOf archiveD[0]) 1 3 :=
    enters_newEntry .root (by decide) rfl (by decide) outer (lineOf_bytes _)
  obtain ⟨s₁, answer₁, standing₁, kernel₁, here₁⟩ := standing.enter enters₁ (by decide) (by decide)
  have placed : s₁.kernel.disk.table s₁.currentDirectoryCluster 1 = newEntry innerD 4 := by
    rw [kernel₁, here₁]
    exact inner
  have enters : Enters s₁ (lineOf archiveD[1]) 1 4 :=
    enters_newEntry standing₁.route.directory (by decide) rfl (by decide) placed (lineOf_bytes _)
  obtain ⟨s₂, answer₂, _, _, here₂⟩ := standing₁.enter enters (by decide) (by decide)
  refine ⟨k, s₁, s₂, run, ?_, ?_, answer₁, here₁, answer₂, here₂⟩
  · have self : k.disk.table 3 0 = k₁.disk.table 3 0 := by
      have kept := written.added.tableParent
      rw [Disk.volume_table, Disk.volume_table] at kept
      rw [kept, Function.update_of_ne (by decide)]
    rw [self, table₁]
    rfl
  · rw [table rfl]
    rfl

/-- `cd archive/d` gets to the inner folder. -/
theorem multiCd_archiveD :
    ∃ k s, Run perform Intended Fresh [(.write folderArchive, 0), (.write innerD, 0)] k ∧
      commandCallMultiCd (startShell k) usedMemory 2 (lineOf ([slash].intercalate archiveD)) = some s ∧
      cdEach (startShell k) archiveD = some s ∧ s.currentDirectoryCluster = 4 := by
  obtain ⟨k, s₁, s, run, _, _, answer₁, _, answer, here⟩ := cdEach_archiveD
  have each : cdEach (startShell k) archiveD = some s := (cdEach_entered answer₁).trans (cdEach_entered answer)
  refine ⟨k, s, run, ?_, each, here⟩
  rw [← each]
  exact (multiCd_iff (lineOf_cString (by decide +kernel)) (List.cons_ne_nil _ _) archiveD_components _).1
    (archiveD_faithful _) _ _ (Nat.le_refl 2)

/-- The folder `d`, and a name in it. -/
def downDown : List (List UInt8) := [['d'.toUInt8], ['d'.toUInt8]]

theorem downDown_components : ∀ name ∈ downDown, Component name := by
  intro name member
  obtain rfl : name = ['d'.toUInt8] := by simpa [downDown] using member
  exact ⟨by decide, by decide, by decide +kernel⟩

/-- In a new file system with the folder `d`, `cd d/d` does not get to `d` if the array held something else. -/
theorem multiCd_downDown :
    ∃ s t t' stack, s.kernel.disk.WellFormed ∧ Started s ∧
      CString (lineOf ([slash].intercalate downDown)) ([slash].intercalate downDown) ∧
      (∀ name ∈ downDown, Component name) ∧ cdEach s downDown = some t ∧
      commandCallMultiCd s stack 2 (lineOf ([slash].intercalate downDown)) = some t' ∧
      t'.currentDirStack.top < t.currentDirStack.top := by
  obtain ⟨k, run, written⟩ := run_first folderD (l := []) (by decide) (by decide) rfl rfl rfl
  have wellFormed := (run_regular run).wellFormed
  have started := started_startShell wellFormed
  have string : CString (lineOf ([slash].intercalate downDown)) ([slash].intercalate downDown) :=
    lineOf_cString (by decide +kernel)
  have component := downDown_components _ List.mem_cons_self
  have notUp : ¬ Upward (lineOf ['d'.toUInt8]) := by decide
  obtain ⟨spells, ends, _⟩ := string.next
  obtain ⟨g, stays⟩ := refused (s := startShell k) spells component notUp (by decide)
  -- the folder is entered by its name alone
  have enters := enters_folderD fresh_zeroKernel.regular.sound (by decide) written
  obtain ⟨s', answer, standing, _, _⟩ := started.standing.enter enters lineD_not_upward (by decide)
  have bytes : lineD.bytes 0 8 = (lineOf ['d'.toUInt8]).bytes 0 8 := by
    rw [lineD_bytes, lineOf_bytes]
    rfl
  have answer' : commandCallCd (startShell k) (lineOf ['d'.toUInt8]) = some (0, s') := by
    rw [← answer, cd_lookup notUp, cd_lookup lineD_not_upward, bytes]
  have top : s'.currentDirStack.top = 1 := by
    have := standing.top
    simp only [List.length_append, List.length_singleton] at this
    omega
  obtain ⟨code, t, answer'', _⟩ := cd_answered (s := s') (lineOf ['d'.toUInt8]) (by omega) (by omega) (by omega)
  have higher : 1 ≤ t.currentDirStack.top := by
    rcases cd_top notUp answer'' with ⟨_, rfl, _⟩ | ⟨_, top', _⟩ <;> omega
  refine ⟨startShell k, t, startShell k, fun _ => g, wellFormed, started, string, downDown_components, ?_, ?_, ?_⟩
  · rw [downDown, cdEach_entered answer']
    simp [cdEach, answer'']
  · rw [multiCd_cons spells ends component, stays]
    rfl
  · have start : (startShell k).currentDirStack.top = 0 := rfl
    omega

end Shell

end Brother420
