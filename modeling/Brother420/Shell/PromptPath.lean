import Brother420.Library.Folds
import Brother420.Shell.MultiCd

/-! # The path in the prompt

`dirStackConverter` of the shell fetches the names of the directories on the stack,
and `convert_to_paths` of the kernel takes them where the stack points to.  Each name
is read from an array of 8 bytes up to a NUL, which a name of 8 characters does not have.
-/

namespace Brother420.Shell

open Packed (Bytes)
open Fat32
open Runs (Run)

/-! ## The stack with its names -/

/-- struct CURRENT_DIR_STACK.  A name is the address of the array `path_name` in the call that entered the
    directory; the array is taken to be there still. -/
structure NamedDirStack extends CurrentDirStack where
  cdStackName : Fin 256 → Nat

namespace NamedDirStack

/-- `root` is the address of the constant. -/
def initCurrentDirStack (cds : NamedDirStack) (root : Nat) : NamedDirStack where
  toCurrentDirStack := cds.toCurrentDirStack.initCurrentDirStack
  cdStackName := Function.update cds.cdStackName ⟨0, by decide⟩ root

def pushCurrentDir (cds : NamedDirStack) (dir : UInt8) (dirName : Nat) : Option NamedDirStack :=
  let top := cds.top + 1
  if h : 0 ≤ top ∧ top < 256 then
    some
      { cdStack := Function.update cds.cdStack ⟨top.toNat, by omega⟩ dir
        cdStackName := Function.update cds.cdStackName ⟨top.toNat, by omega⟩ dirName
        top }
  else none

def popCurrentDir (cds : NamedDirStack) : NamedDirStack := { cds with top := cds.top - 1 }

def nameCell (cds : NamedDirStack) (i : Nat) : Nat := if h : i < 256 then cds.cdStackName ⟨i, h⟩ else 0

end NamedDirStack

/-! ## The functions -/

/-- A read behind the array of a name, or a store behind `temp`, at this index. -/
inductive PathFault
  | name (k : Nat)
  | buffer (j : Nat)

/-- The store at index `j` of `temp`, which has `j` bytes so far. -/
def storeTemp (temp : List UInt8) (c : UInt8) : Except PathFault (List UInt8) :=
  if temp.length < 255 then .ok (temp ++ [c]) else .error (.buffer temp.length)

/-- The inner loop, with `left` bytes of the array from index `k` on. -/
def copyName (name : Memory) : (left k : Nat) → List UInt8 → Except PathFault (List UInt8)
  | 0, k, _ => .error (.name k)
  | left + 1, k, temp =>
    if name k = 0 then .ok temp
    else do
      let temp ← storeTemp temp (name k)
      copyName name left (k + 1) temp

/-- The name in the self entry of a directory. -/
def dirName (k : Kernel) (cluster : Nat) : Bytes 8 := (readTable k cluster 0).name

/-- The bytes of `temp` up to the NUL, and the memory with the names. -/
def dirStackConverter (k : Kernel) (dir : NamedDirStack) (m : Memory) : Except PathFault (List UInt8 × Memory) := do
  let (cwd, m) ← (List.range' 1 dir.top.toNat).foldlM (fun (cwd, m) i => do
    let cwd ← storeTemp cwd slash
    let m := m.store (dir.nameCell i) (dirName k (dir.cell i).toNat)
    let cwd ← copyName (fun a => m (dir.nameCell i + a)) 8 0 cwd
    .ok (cwd, m)) ([], m)
  let cwd ← storeTemp cwd 0
  .ok (cwd, m)

def convertToPaths (cds : NamedDirStack) (m : Memory) : Except PathFault (List UInt8) := do
  let path ← (List.range' 1 cds.top.toNat).foldlM (fun path i => do
    let path ← storeTemp path slash
    copyName (fun a => m (cds.nameCell i + a)) 8 0 path) []
  storeTemp path 0

/-! ## What they should yield -/

/-- The stacks that `cd` reaches, with the directories on the path: their clusters, and the places of the calls
    that entered them.  Calls at the same place have the same array. -/
inductive CdReached (array : Nat → Nat) : List (Nat × Nat) → NamedDirStack → Prop
  | init (cds : NamedDirStack) (root : Nat) : CdReached array [] (cds.initCurrentDirStack root)
  | enter {route : List (Nat × Nat)} {cds cds' : NamedDirStack} {cluster place : Nat} : CdReached array route cds →
      cds.pushCurrentDir (UInt8.ofNat cluster) (array place) = some cds' →
      CdReached array (route ++ [(cluster, place)]) cds'
  | leave {route : List (Nat × Nat)} {cds : NamedDirStack} {entry : Nat × Nat} :
      CdReached array (route ++ [entry]) cds → CdReached array route cds.popCurrentDir

/-- A name field up to its first NUL. -/
def fieldText (b : Bytes 8) : List UInt8 := (List.ofFn b).takeWhile (· ≠ 0)

def pathOf (names : List (List UInt8)) : List UInt8 := slash :: [slash].intercalate names

/-- The arrays hold the names of the directories. -/
def HoldsNames (k : Kernel) (route : List (Nat × Nat)) (dir : NamedDirStack) (m : Memory) : Prop :=
  ∀ i (below : i < route.length), m.bytes (dir.nameCell (i + 1)) 8 = dirName k route[i].1

/-- The path is yielded, without a fault; and the names are then in their arrays, where it is yielded again. -/
def PathShown (k : Kernel) (route : List (Nat × Nat)) (dir : NamedDirStack) (m : Memory) : Prop :=
  let path := pathOf (route.map fun entry => fieldText (dirName k entry.1))
  ∃ m', dirStackConverter k dir m = .ok (path ++ [0], m') ∧ HoldsNames k route dir m' ∧
    convertToPaths dir m' = .ok (path ++ [0])

/-! ## One name -/

variable {k : Kernel} {name name' m m' : Memory} {temp out : List UInt8} {c : UInt8} {left start : Nat} {b : Bytes 8}
  {names : List (Bytes 8)}

theorem storeTemp_ok_iff : storeTemp temp c = .ok out ↔ (temp ++ [c]).length ≤ 255 ∧ out = temp ++ [c] := by
  unfold storeTemp
  rw [List.length_append, List.length_singleton, Nat.succ_le_iff]
  split
  · rename_i room
    simp [room, eq_comm]
  · rename_i full
    simp [full]

/-- The loop reads the array only. -/
theorem copyName_congr (same : ∀ i, start ≤ i → i < start + left → name i = name' i) (temp : List UInt8) :
    copyName name left start temp = copyName name' left start temp := by
  induction left generalizing start temp with
  | zero => rfl
  | succ left ih =>
    rw [copyName, copyName, same start (Nat.le_refl _) (by omega)]
    split
    · rfl
    · congr 1
      funext temp
      exact ih (fun i lower upper => same i (by omega) (by omega)) temp

/-- The loop copies what is before the first NUL of the array, if there is one and the buffer has room. -/
theorem copyName_ok_iff (fits : temp.length ≤ 255) :
    copyName name left start temp = .ok out ↔
      (((List.range' start left).map name).takeWhile (· ≠ 0)).length < left ∧
        (temp ++ ((List.range' start left).map name).takeWhile (· ≠ 0)).length ≤ 255 ∧
        out = temp ++ ((List.range' start left).map name).takeWhile (· ≠ 0) := by
  induction left generalizing start temp with
  | zero => simp [copyName]
  | succ left ih =>
    rw [copyName, List.range'_succ, List.map_cons]
    split
    · rename_i ends
      simp [ends, fits, eq_comm]
    · rename_i goesOn
      rw [List.takeWhile_cons_of_pos (by simpa using goesOn), List.length_cons, Nat.succ_lt_succ_iff,
        Folds.bind_eq_ok, List.append_cons]
      constructor
      · rintro ⟨temp', stored, rest⟩
        obtain ⟨room, rfl⟩ := storeTemp_ok_iff.mp stored
        exact (ih room).mp rest
      · rintro ⟨short, room, same⟩
        have first : (temp ++ [name start]).length ≤ 255 := by
          rw [List.length_append] at room
          omega
        exact ⟨_, storeTemp_ok_iff.mpr ⟨first, rfl⟩, (ih first).mpr ⟨short, room, same⟩⟩

/-- The part of both loops that appends one name. -/
def appendName (b : Bytes 8) (temp : List UInt8) : Except PathFault (List UInt8) := do
  let temp ← storeTemp temp slash
  copyName (Memory.store (fun _ => 0) 0 b) 8 0 temp

/-- It does not matter where the name stands. -/
theorem copyName_eq {p : Nat} (here : m.bytes p 8 = b) (temp : List UInt8) :
    copyName (fun a => m (p + a)) 8 0 temp = copyName (Memory.store (fun _ => 0) 0 b) 8 0 temp := by
  refine copyName_congr (fun i _ below => ?_) temp
  rw [Memory.store_inside (Nat.zero_le i) below, ← here]
  rfl

theorem appendName_ok_iff :
    appendName b temp = .ok out ↔
      (fieldText b).length < 8 ∧ (temp ++ slash :: fieldText b).length ≤ 255 ∧ out = temp ++ slash :: fieldText b := by
  have field : (List.range' 0 8).map (Memory.store (fun _ => 0) 0 b) = List.ofFn b := by
    simp [List.range', Memory.store]
  rw [appendName, Folds.bind_eq_ok, List.append_cons]
  constructor
  · rintro ⟨temp', stored, rest⟩
    obtain ⟨room, rfl⟩ := storeTemp_ok_iff.mp stored
    rw [copyName_ok_iff room, field] at rest
    exact rest
  · rintro ⟨short, room, same⟩
    have first : (temp ++ [slash]).length ≤ 255 := by
      rw [List.length_append] at room
      omega
    refine ⟨_, storeTemp_ok_iff.mpr ⟨first, rfl⟩, ?_⟩
    rw [copyName_ok_iff first, field]
    exact ⟨short, room, same⟩

/-- Every name in its turn. -/
theorem appendNames_ok_iff (fits : temp.length ≤ 255) :
    names.foldlM (fun temp b => appendName b temp) temp = .ok out ↔
      (∀ b ∈ names, (fieldText b).length < 8) ∧
        (temp ++ names.flatMap fun b => slash :: fieldText b).length ≤ 255 ∧
        out = temp ++ names.flatMap fun b => slash :: fieldText b := by
  induction names generalizing temp with
  | nil => simp [pure, Except.pure, fits, eq_comm]
  | cons b names ih =>
    rw [List.foldlM_cons, Folds.bind_eq_ok, List.flatMap_cons, ← List.append_assoc, List.forall_mem_cons]
    constructor
    · rintro ⟨temp', appended, rest⟩
      obtain ⟨short, room, rfl⟩ := appendName_ok_iff.mp appended
      obtain ⟨shorts, rest⟩ := (ih room).mp rest
      exact ⟨⟨short, shorts⟩, rest⟩
    · rintro ⟨⟨short, shorts⟩, room, same⟩
      have first : (temp ++ slash :: fieldText b).length ≤ 255 := by
        rw [List.length_append] at room
        omega
      exact ⟨_, appendName_ok_iff.mpr ⟨short, first, rfl⟩, (ih first).mpr ⟨shorts, room, same⟩⟩

/-! ## The whole path -/

variable {dir dir' : NamedDirStack} {l : List Nat} {array : Nat → Nat} {route : List (Nat × Nat)}

/-- What both functions make of the names. -/
def joinedNames (names : List (Bytes 8)) : Except PathFault (List UInt8) := do
  let temp ← names.foldlM (fun temp b => appendName b temp) []
  storeTemp temp 0

theorem joinedNames_ok_iff :
    joinedNames names = .ok out ↔
      (∀ b ∈ names, (fieldText b).length < 8) ∧ (names.flatMap fun b => slash :: fieldText b).length ≤ 254 ∧
        out = (names.flatMap fun b => slash :: fieldText b) ++ [0] := by
  rw [joinedNames, Folds.bind_eq_ok]
  constructor
  · rintro ⟨temp, appended, last⟩
    obtain ⟨short, _, rfl⟩ := (appendNames_ok_iff (Nat.zero_le _)).mp appended
    obtain ⟨room, rfl⟩ := storeTemp_ok_iff.mp last
    rw [List.nil_append, List.length_append] at room
    exact ⟨short, Nat.le_of_succ_le_succ room, rfl⟩
  · rintro ⟨short, room, rfl⟩
    refine ⟨_, (appendNames_ok_iff (Nat.zero_le _)).mpr ⟨short, ?_, rfl⟩, storeTemp_ok_iff.mpr ⟨?_, rfl⟩⟩
    · exact Nat.le_succ_of_le room
    · rw [List.nil_append, List.length_append]
      exact Nat.succ_le_succ room

namespace NamedDirStack

/-- The name of the directory in cell `i`. -/
def cellName (k : Kernel) (dir : NamedDirStack) (i : Nat) : Bytes 8 := dirName k (dir.cell i).toNat

/-- The memory behind the stores of the names. -/
def storeNames (k : Kernel) (dir : NamedDirStack) (l : List Nat) (m : Memory) : Memory :=
  l.foldl (fun m i => m.store (dir.nameCell i) (dir.cellName k i)) m

end NamedDirStack

/-- The fetched name is the one that is read. -/
theorem fetchName_eq (k : Kernel) (dir : NamedDirStack) (i : Nat) (temp : List UInt8) (m : Memory) :
    (do
      let cwd ← storeTemp temp slash
      let m := m.store (dir.nameCell i) (dirName k (dir.cell i).toNat)
      let cwd ← copyName (fun a => m (dir.nameCell i + a)) 8 0 cwd
      Except.ok (cwd, m)) =
    (appendName (dir.cellName k i) temp).map (·, m.store (dir.nameCell i) (dir.cellName k i)) := by
  rw [appendName]
  cases storeTemp temp slash with
  | error fault => rfl
  | ok temp =>
    have fetched : (m.store (dir.nameCell i) (dir.cellName k i)).bytes (dir.nameCell i) 8 = dir.cellName k i :=
      Memory.bytes_store _
    change (copyName (fun a => m.store (dir.nameCell i) (dir.cellName k i) (dir.nameCell i + a)) 8 0 temp >>=
      fun cwd => Except.ok (cwd, _)) = (copyName (Memory.store (fun _ => 0) 0 (dir.cellName k i)) 8 0 temp).map _
    rw [copyName_eq fetched]
    cases copyName (Memory.store (fun _ => 0) 0 (dir.cellName k i)) 8 0 temp <;> rfl

/-- The loop over the cells appends the names and stores them. -/
theorem fetchNames_eq (k : Kernel) (dir : NamedDirStack) (l : List Nat) (temp : List UInt8) (m : Memory) :
    l.foldlM (fun (x : List UInt8 × Memory) i => do
      let cwd ← storeTemp x.1 slash
      let m := x.2.store (dir.nameCell i) (dirName k (dir.cell i).toNat)
      let cwd ← copyName (fun a => m (dir.nameCell i + a)) 8 0 cwd
      Except.ok (cwd, m)) (temp, m) =
    ((l.map (dir.cellName k)).foldlM (fun temp b => appendName b temp) temp).map (·, dir.storeNames k l m) := by
  induction l generalizing temp m with
  | nil => rfl
  | cons i l ih =>
    rw [List.foldlM_cons, List.map_cons, List.foldlM_cons, fetchName_eq]
    cases appendName (dir.cellName k i) temp with
    | error fault => rfl
    | ok temp => exact ih temp _

theorem dirStackConverter_eq (k : Kernel) (dir : NamedDirStack) (m : Memory) :
    dirStackConverter k dir m =
      (joinedNames ((List.range' 1 dir.top.toNat).map (dir.cellName k))).map
        (·, dir.storeNames k (List.range' 1 dir.top.toNat) m) := by
  have whole := congrArg (· >>= fun (x : List UInt8 × Memory) => do
    let cwd ← storeTemp x.1 0
    Except.ok (cwd, x.2)) (fetchNames_eq k dir (List.range' 1 dir.top.toNat) [] m)
  refine (show _ = _ from whole).trans ?_
  rw [joinedNames]
  cases ((List.range' 1 dir.top.toNat).map (dir.cellName k)).foldlM (fun temp b => appendName b temp) [] with
  | error fault => rfl
  | ok temp =>
    change (storeTemp temp 0 >>= fun cwd => Except.ok (cwd, _)) = (storeTemp temp 0).map _
    cases storeTemp temp 0 <;> rfl

/-- Where the names are in their arrays, the two functions do the same. -/
theorem convertToPaths_eq (there : ∀ i ∈ List.range' 1 dir.top.toNat, m.bytes (dir.nameCell i) 8 = dir.cellName k i) :
    convertToPaths dir m = joinedNames ((List.range' 1 dir.top.toNat).map (dir.cellName k)) := by
  rw [convertToPaths, joinedNames, List.foldlM_map]
  congr 1
  generalize ([] : List UInt8) = temp
  generalize List.range' 1 dir.top.toNat = l at there
  induction l generalizing temp with
  | nil => rfl
  | cons i l ih =>
    rw [List.forall_mem_cons] at there
    rw [List.foldlM_cons, List.foldlM_cons, appendName]
    congr 1
    · congr 1
      funext temp
      exact copyName_eq there.1 temp
    · funext temp
      exact ih temp there.2

/-- Without the names it is the stack that `cd` works on. -/
theorem NamedDirStack.pushCurrentDir_map (c : UInt8) (p : Nat) :
    (dir.pushCurrentDir c p).map NamedDirStack.toCurrentDirStack = dir.toCurrentDirStack.pushCurrentDir c := by
  unfold NamedDirStack.pushCurrentDir CurrentDirStack.pushCurrentDir
  dsimp only
  split <;> rfl

/-- Behind the stores every name is in its array, if no array is the one of two different names. -/
theorem storeNames_bytes
    (apart : ∀ i ∈ l, ∀ j ∈ l, dir.nameCell i ≠ dir.nameCell j →
      dir.nameCell i + 8 ≤ dir.nameCell j ∨ dir.nameCell j + 8 ≤ dir.nameCell i)
    (shared : ∀ i ∈ l, ∀ j ∈ l, dir.nameCell i = dir.nameCell j → dir.cellName k i = dir.cellName k j) :
    ∀ i ∈ l, (dir.storeNames k l m).bytes (dir.nameCell i) 8 = dir.cellName k i := by
  induction l using List.reverseRecOn with
  | nil => exact List.forall_mem_nil _
  | append_singleton l j ih =>
    intro i member
    have last : j ∈ l ++ [j] := List.mem_append_right l (List.mem_singleton_self j)
    have stores : dir.storeNames k (l ++ [j]) m = (dir.storeNames k l m).store (dir.nameCell j) (dir.cellName k j) := by
      rw [NamedDirStack.storeNames, List.foldl_append]
      rfl
    rw [stores]
    by_cases same : dir.nameCell i = dir.nameCell j
    · rw [same, Memory.bytes_store, shared i member j last same]
    · have earlier : i ∈ l := by
        rcases List.mem_append.mp member with earlier | here
        · exact earlier
        · exact absurd (congrArg dir.nameCell (List.mem_singleton.mp here)) same
      rw [Memory.bytes_store_apart (apart i member j last same)]
      exact ih (fun i member j member' => apart i (List.mem_append_left _ member) j (List.mem_append_left _ member'))
        (fun i member j member' => shared i (List.mem_append_left _ member) j (List.mem_append_left _ member'))
        i earlier

/-! ## Stacks that are reached -/

/-- The cells behind the first hold the numbers and the arrays of the directories on the path. -/
structure Follows (array : Nat → Nat) (route : List (Nat × Nat)) (dir : NamedDirStack) : Prop where
  top : dir.top = route.length
  room : route.length ≤ 255
  cells : ∀ i (below : i < route.length),
    dir.cell (i + 1) = UInt8.ofNat route[i].1 ∧ dir.nameCell (i + 1) = array route[i].2

theorem Follows.enter {cluster place : Nat} (follows : Follows array route dir)
    (pushed : dir.pushCurrentDir (UInt8.ofNat cluster) (array place) = some dir') :
    Follows array (route ++ [(cluster, place)]) dir' := by
  obtain ⟨top, room, cells⟩ := follows
  unfold NamedDirStack.pushCurrentDir at pushed
  dsimp only at pushed
  split at pushed
  · rename_i range
    cases pushed
    have position : (dir.top + 1).toNat = route.length + 1 := by omega
    have small : route.length + 1 < 256 := by omega
    refine ⟨?_, ?_, fun i below => ?_⟩
    · rw [List.length_append, List.length_singleton, Int.natCast_add, ← top]
      rfl
    · rw [List.length_append, List.length_singleton]
      omega
    · rw [List.length_append, List.length_singleton] at below
      have inside : i + 1 < 256 := by omega
      by_cases last : i = route.length
      · subst last
        rw [List.getElem_concat_length rfl]
        simp [CurrentDirStack.cell, NamedDirStack.nameCell, position, small]
      · have earlier : i < route.length := by omega
        have other : (⟨i + 1, inside⟩ : Fin 256) ≠ ⟨(dir.top + 1).toNat, by omega⟩ := fun same => by
          have value := Fin.mk.inj same
          omega
        have before := cells i earlier
        simp only [CurrentDirStack.cell, NamedDirStack.nameCell, inside, ↓reduceDIte] at before
        rw [List.getElem_append_left earlier]
        simp only [CurrentDirStack.cell, NamedDirStack.nameCell, inside, ↓reduceDIte, Function.update_of_ne other]
        exact before
  · cases pushed

theorem Follows.leave {entry : Nat × Nat} (follows : Follows array (route ++ [entry]) dir) :
    Follows array route dir.popCurrentDir := by
  obtain ⟨top, room, cells⟩ := follows
  rw [List.length_append, List.length_singleton] at top room
  refine ⟨?_, by omega, fun i below => ?_⟩
  · change dir.top - 1 = _
    rw [top, Int.natCast_add]
    exact Int.add_sub_cancel _ _
  · have before := cells i (by rw [List.length_append]; omega)
    rw [List.getElem_append_left below] at before
    exact before

theorem CdReached.follows (reached : CdReached array route dir) : Follows array route dir := by
  induction reached with
  | init cds root => exact ⟨rfl, Nat.zero_le _, fun i below => absurd below (Nat.not_lt_zero i)⟩
  | enter _ pushed before => exact before.enter pushed
  | leave _ before => exact before.leave

theorem Follows.length (follows : Follows array route dir) : dir.top.toNat = route.length := by
  rw [follows.top]
  rfl

/-- Where the cells can hold the clusters, the names that are fetched are those of the directories. -/
theorem Follows.cellName (follows : Follows array route dir) (low : ∀ entry ∈ route, entry.1 < 256) (k : Kernel)
    (i : Nat) (below : i < route.length) : dir.cellName k (i + 1) = dirName k route[i].1 := by
  have value := UInt8.toNat_ofNat_of_lt' (show route[i].1 < 256 from low _ (List.getElem_mem below))
  rw [NamedDirStack.cellName, (follows.cells i below).1, value]

theorem Follows.cellNames (follows : Follows array route dir) (low : ∀ entry ∈ route, entry.1 < 256) (k : Kernel) :
    (List.range' 1 dir.top.toNat).map (dir.cellName k) = route.map fun entry => dirName k entry.1 := by
  rw [follows.length]
  apply List.ext_getElem
  · simp
  · intro i below _
    have inside : i < route.length := by simpa using below
    rw [List.getElem_map, List.getElem_map, List.getElem_range', Nat.one_mul, Nat.add_comm 1 i]
    exact follows.cellName low k i inside

theorem Follows.holdsNames_iff (follows : Follows array route dir) (low : ∀ entry ∈ route, entry.1 < 256) :
    HoldsNames k route dir m ↔
      ∀ i ∈ List.range' 1 dir.top.toNat, m.bytes (dir.nameCell i) 8 = dir.cellName k i := by
  constructor
  · intro holds i member
    obtain ⟨lower, upper⟩ := List.mem_range'_1.mp member
    rw [follows.length] at upper
    have below : i - 1 < route.length := by omega
    have here := holds (i - 1) below
    rw [← follows.cellName low k (i - 1) below, Nat.sub_add_cancel lower] at here
    exact here
  · intro there i below
    have member : i + 1 ∈ List.range' 1 dir.top.toNat := by
      rw [List.mem_range'_1, follows.length]
      omega
    rw [← follows.cellName low k i below]
    exact there (i + 1) member

/-- No two entered directories with different names share an array. -/
def SharesNoArray (k : Kernel) (route : List (Nat × Nat)) : Prop :=
  ∀ entry ∈ route, ∀ entry' ∈ route, entry.2 = entry'.2 → dirName k entry.1 = dirName k entry'.1

/-- So the names get into their arrays. -/
theorem Follows.storeNames_holds (follows : Follows array route dir) (low : ∀ entry ∈ route, entry.1 < 256)
    (apart : ∀ p q, p ≠ q → array p + 8 ≤ array q ∨ array q + 8 ≤ array p) (shares : SharesNoArray k route) :
    HoldsNames k route dir (dir.storeNames k (List.range' 1 dir.top.toNat) m) := by
  have cells (i : Nat) (member : i ∈ List.range' 1 dir.top.toNat) :
      ∃ entry ∈ route, dir.nameCell i = array entry.2 ∧ dir.cellName k i = dirName k entry.1 := by
    obtain ⟨lower, upper⟩ := List.mem_range'_1.mp member
    rw [follows.length] at upper
    have below : i - 1 < route.length := by omega
    have address := (follows.cells (i - 1) below).2
    have fetched := follows.cellName low k (i - 1) below
    rw [Nat.sub_add_cancel lower] at address fetched
    exact ⟨_, List.getElem_mem below, address, fetched⟩
  rw [follows.holdsNames_iff low]
  apply storeNames_bytes
  · intro i memberI j memberJ different
    obtain ⟨entry, _, addressI, _⟩ := cells i memberI
    obtain ⟨entry', _, addressJ, _⟩ := cells j memberJ
    rw [addressI, addressJ] at different ⊢
    exact apart _ _ fun same => different (congrArg array same)
  · intro i memberI j memberJ same
    obtain ⟨entry, inI, addressI, nameI⟩ := cells i memberI
    obtain ⟨entry', inJ, addressJ, nameJ⟩ := cells j memberJ
    rw [addressI, addressJ] at same
    have place : entry.2 = entry'.2 := by
      by_contra different
      have := apart _ _ different
      omega
    rw [nameI, nameJ]
    exact shares entry inI entry' inJ place

theorem Follows.sharesNoArray (follows : Follows array route dir) (holds : HoldsNames k route dir m) :
    SharesNoArray k route := by
  intro entry inRoute entry' inRoute' place
  obtain ⟨i, belowI, rfl⟩ := List.getElem_of_mem inRoute
  obtain ⟨j, belowJ, rfl⟩ := List.getElem_of_mem inRoute'
  rw [← holds i belowI, ← holds j belowJ, (follows.cells i belowI).2, (follows.cells j belowJ).2, place]

/-! ## Stacks of the shell -/

section Entered

variable {k : Kernel} {s s' : ShellState} {line : Memory}

/-- The stack of a new shell, with names. -/
def startNames : NamedDirStack := NamedDirStack.initCurrentDirStack ⟨⟨fun _ => 0, 0⟩, fun _ => 0⟩ 0

theorem startNames_reached (array : Nat → Nat) : CdReached array [] startNames := .init _ _

/-- A `cd` that enters a directory enters it in the stack with the names. -/
theorem CdReached.cd (reached : CdReached array route dir) (stack : dir.toCurrentDirStack = s.currentDirStack)
    (notUp : ¬ Upward line) (answer : commandCallCd s line = some (0, s')) (place : Nat) :
    ∃ dir', CdReached array (route ++ [(s'.currentDirectoryCluster, place)]) dir' ∧
      dir'.toCurrentDirStack = s'.currentDirStack := by
  have pushed := cd_entered notUp answer
  rw [← stack, ← NamedDirStack.pushCurrentDir_map _ (array place)] at pushed
  obtain ⟨dir', pushed', stack'⟩ := Option.map_eq_some_iff.mp pushed
  exact ⟨dir', .enter reached pushed', stack'⟩

/-- A stack that is reached goes with the shell: it is the shell's, and its directories are those behind the root on
    the way to the current one. -/
structure Accompanies (array : Nat → Nat) (route : List (Nat × Nat)) (dir : NamedDirStack) (s : ShellState) : Prop where
  reached : CdReached array route dir
  stack : dir.toCurrentDirStack = s.currentDirStack
  standing : Standing s (rootClusterNumber :: route.map Prod.fst)
  low : ∀ entry ∈ route, entry.1 < 256

/-- A command that fits leads from one to another, whichever array it has. -/
theorem Accompanies.step (accompanies : Accompanies array route dir s) (place : Nat) (fits : Fits s line) :
    ∃ code s', commandCallCd s line = some (code, s') ∧ ∃ route' dir', Accompanies array route' dir' s' := by
  obtain ⟨reached, stack, standing, low⟩ := accompanies
  have small : ∀ c ∈ rootClusterNumber :: route.map Prod.fst, c < 256 := by
    intro c member
    rcases List.mem_cons.mp member with rfl | member
    · decide
    · obtain ⟨entry, inRoute, rfl⟩ := List.mem_map.mp member
      exact low entry inRoute
  rcases fits with dots | ⟨i, c, enters, inside, notUp⟩
  · have upward := upward_of_dotDot dots
    by_cases root : s.currentDirectoryCluster = rootClusterNumber
    · exact ⟨1, s, leave_root upward root, route, dir, reached, stack, standing, low⟩
    · obtain ⟨l, p, split, above, _⟩ := standing.footing.split root
      have parent : p < 256 := small p (split ▸ by simp)
      rw [split] at standing
      obtain ⟨s', answer, standing', _⟩ := standing.leave upward parent above
      -- the last directory of the route is the one that is left
      rcases List.eq_nil_or_concat route with rfl | ⟨route, entry, rfl⟩
      · have lengths := congrArg List.length split
        simp at lengths
      · rw [List.concat_eq_append] at reached low split
        rw [List.map_append, List.map_singleton, ← List.cons_append, List.append_cons l] at split
        obtain ⟨kept, _⟩ := List.append_inj' split rfl
        refine ⟨0, s', answer, route, dir.popCurrentDir, .leave reached, ?_, kept ▸ standing', fun entry member =>
          low entry (List.mem_append_left _ member)⟩
        rw [cd_left upward root answer, ← stack]
        rfl
  · have room := standing.route.length_lt standing.disk.volume.toSound small
    obtain ⟨s', answer, standing', _, here⟩ := standing.enter enters notUp room
    obtain ⟨dir', reached', stack'⟩ := reached.cd stack notUp answer place
    rw [here] at reached'
    refine ⟨0, s', answer, _, dir', reached', stack', ?_, ?_⟩
    · rw [List.map_append]
      exact standing'
    · intro entry member
      rcases List.mem_append.mp member with old | new
      · exact low entry old
      · rw [List.mem_singleton.mp new]
        exact inside

theorem accompanies_inductive (array : Nat → Nat) :
    Runs.Inductive commandCallCd Fits Started fun s => ∃ route dir, Accompanies array route dir s where
  start := by
    intro s started
    obtain ⟨cds, stack⟩ := started.stack
    exact ⟨[], NamedDirStack.initCurrentDirStack ⟨cds, fun _ => 0⟩ 0, .init _ _, stack.symm, started.standing, by simp⟩
  step := by
    rintro s line ⟨route, dir, accompanies⟩ fits
    exact accompanies.step 0 fits

/-- The stacks of the shell, after any run of commands that fit, are stacks that are reached. -/
theorem cdReached_run {history : List (Memory × UInt8)} (run : Run commandCallCd Fits Started history s)
    (array : Nat → Nat) : ∃ route dir, Accompanies array route dir s := by
  have kept := run.invariant (accompanies_inductive array)
  exact kept

end Entered

/-! ## The path -/

theorem pathOf_cons (first : List UInt8) (rest : List (List UInt8)) :
    pathOf (first :: rest) = (first :: rest).flatMap (slash :: ·) := by
  induction rest generalizing first with
  | nil => simp [pathOf]
  | cons second rest ih =>
    rw [List.flatMap_cons, ← ih second]
    simp [pathOf, List.intercalate, List.intersperse]

/-- In a directory below the root the two spellings of the path are the same. -/
theorem pathOf_eq (below : route ≠ []) :
    pathOf (route.map fun entry => fieldText (dirName k entry.1)) =
      (route.map fun entry => dirName k entry.1).flatMap fun b => slash :: fieldText b := by
  cases route with
  | nil => exact absurd rfl below
  | cons entry route =>
    rw [List.map_cons, pathOf_cons]
    change ((entry :: route).map fun entry => fieldText (dirName k entry.1)).flatMap (slash :: ·) = _
    rw [List.flatMap_map, List.flatMap_map]

/-- The two functions agree on the same names; and for directories with numbers of 8 bits the path is shown exactly
    if there is one below the root, every name has a NUL, all fit the buffer and no array is shared. -/
theorem pathShown_iff (apart : ∀ p q, p ≠ q → array p + 8 ≤ array q ∨ array q + 8 ≤ array p)
    (reached : CdReached array route dir) (low : ∀ entry ∈ route, entry.1 < 256) (k : Kernel) (m : Memory) :
    (∀ m', HoldsNames k route dir m' → convertToPaths dir m' = (dirStackConverter k dir m).map Prod.fst) ∧
      (PathShown k route dir m ↔
        route ≠ [] ∧ (∀ entry ∈ route, (fieldText (dirName k entry.1)).length < 8) ∧
          (route.map fun entry => (fieldText (dirName k entry.1)).length + 1).sum ≤ 254 ∧ SharesNoArray k route) := by
  have follows := reached.follows
  have converter := dirStackConverter_eq k dir m
  rw [follows.cellNames low] at converter
  have paths (m' : Memory) (holds : HoldsNames k route dir m') :
      convertToPaths dir m' = joinedNames (route.map fun entry => dirName k entry.1) := by
    rw [convertToPaths_eq ((follows.holdsNames_iff low).mp holds), follows.cellNames low]
  have total : ((route.map fun entry => dirName k entry.1).flatMap fun b => slash :: fieldText b).length =
      (route.map fun entry => (fieldText (dirName k entry.1)).length + 1).sum := by
    rw [List.flatMap_map, List.length_flatMap]
    rfl
  constructor
  · intro m' holds
    rw [paths m' holds, converter]
    cases joinedNames (route.map fun entry => dirName k entry.1) <;> rfl
  · constructor
    · rintro ⟨m', shown, holds, again⟩
      rw [paths m' holds] at again
      obtain ⟨short, room, text⟩ := joinedNames_ok_iff.mp again
      rw [total] at room
      refine ⟨?_, fun entry member => short _ (List.mem_map_of_mem member), room, follows.sharesNoArray holds⟩
      rintro rfl
      exact absurd (congrArg List.length text) (by simp [pathOf])
    · rintro ⟨below, short, room, shares⟩
      have holds := follows.storeNames_holds (m := m) low apart shares
      have text : joinedNames (route.map fun entry => dirName k entry.1) =
          .ok (pathOf (route.map fun entry => fieldText (dirName k entry.1)) ++ [0]) := by
        rw [pathOf_eq below]
        refine joinedNames_ok_iff.mpr ⟨fun b member => ?_, total.trans_le room, rfl⟩
        obtain ⟨entry, inRoute, rfl⟩ := List.mem_map.mp member
        exact short entry inRoute
      refine ⟨_, ?_, holds, (paths _ holds).trans text⟩
      rw [converter, text]
      rfl

/-- `cd archive/d` enters the two directories at different depths, and the prompt shows their path. -/
theorem pathShown_iff_archiveD :
    ∃ k s dir, Run perform Intended Fresh [(.write folderArchive, 0), (.write innerD, 0)] k ∧
      commandCallMultiCd (startShell k) usedMemory 2 (lineOf ([slash].intercalate archiveD)) = some s ∧
      CdReached (8 * ·) [(3, 0), (4, 1)] dir ∧ dir.toCurrentDirStack = s.currentDirStack ∧
      PathShown k [(3, 0), (4, 1)] dir (fun _ => 0) := by
  obtain ⟨k, s₁, s, run, name₁, name, answer₁, here₁, answer, here⟩ := cdEach_archiveD
  have each : cdEach (startShell k) archiveD = some s := (cdEach_entered answer₁).trans (cdEach_entered answer)
  have path : commandCallMultiCd (startShell k) usedMemory 2 (lineOf ([slash].intercalate archiveD)) = some s :=
    (multiCd_faithful (lineOf_cString (by decide +kernel)) (List.cons_ne_nil _ _) archiveD_components
      (archiveD_faithful _) (Nat.le_refl 2) _).trans each
  obtain ⟨dir₁, reached₁, stack₁⟩ := (startNames_reached (8 * ·)).cd rfl (by decide) answer₁ 0
  obtain ⟨dir, reached, stack⟩ := reached₁.cd stack₁ (by decide) answer 1
  rw [here₁, here] at reached
  have apart (p q : Nat) (different : p ≠ q) : 8 * p + 8 ≤ 8 * q ∨ 8 * q + 8 ≤ 8 * p := by omega
  have dirName₁ : dirName k 3 = folderArchive.name := by rw [dirName, readTable_eq (by decide), name₁]
  have dirName₂ : dirName k 4 = innerD.name := by rw [dirName, readTable_eq (by decide), name]
  have length₁ : (fieldText folderArchive.name).length = 7 := by decide
  have length₂ : (fieldText innerD.name).length = 1 := by decide
  refine ⟨k, s, dir, run, path, reached, stack, (pathShown_iff apart reached (by decide) k _).2.mpr ⟨?_, ?_, ?_, ?_⟩⟩
  · simp
  · simp [dirName₁, dirName₂, length₁, length₂]
  · simp [dirName₁, dirName₂, length₁, length₂]
  · simp [SharesNoArray]

def brother4 : List UInt8 := ['b', 'r', 'o', 't', 'h', 'e', 'r', '4'].map Char.toUInt8

def folderBrother4 : FAT32DriverRequest := ⟨fun _ => 0, padded 8 brother4, fun _ => 0, 2, 0⟩

/-- A name of eight characters fills its field: the byte behind the array is read. -/
theorem not_pathShown_eight :
    ∃ k s dir, Run perform Intended Fresh [(.write folderBrother4, 0)] k ∧
      commandCallCd (startShell k) (lineOf brother4) = some (0, s) ∧ CdReached (8 * ·) [(3, 0)] dir ∧
      dir.toCurrentDirStack = s.currentDirStack ∧ (∀ i, dirName k 3 i ≠ 0) ∧
      ∀ m, ¬ PathShown k [(3, 0)] dir m := by
  obtain ⟨k, run, written, table⟩ := run_first_folder folderBrother4 rfl (by decide) (by decide) rfl
  obtain ⟨_, entry⟩ := first_entry written
  have enters : Enters (startShell k) (lineOf brother4) 1 3 :=
    enters_newEntry .root (by decide) rfl (by decide) entry (lineOf_bytes _)
  obtain ⟨s, answer, _, _, here⟩ :=
    (started_startShell (run_regular run).wellFormed).standing.enter enters (by decide) (by decide)
  obtain ⟨dir, reached, stack⟩ := (startNames_reached (8 * ·)).cd rfl (by decide) answer 0
  rw [here, List.nil_append] at reached
  have name : dirName k 3 = folderBrother4.name := by
    rw [dirName, readTable_eq (by decide), table]
    rfl
  refine ⟨k, s, dir, run, answer, reached, stack, by rw [name]; decide, fun m shown => ?_⟩
  obtain ⟨m', shown, _⟩ := shown
  rw [dirStackConverter_eq, reached.follows.cellNames (by decide), List.map_singleton] at shown
  cases path : joinedNames [dirName k 3] with
  | error fault =>
    rw [path] at shown
    cases shown
  | ok out =>
    have short := (joinedNames_ok_iff.mp path).1 _ List.mem_cons_self
    rw [name] at short
    exact absurd short (by decide)

end Brother420.Shell
