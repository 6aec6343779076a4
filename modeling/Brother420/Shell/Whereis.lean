import Brother420.Library.Folds
import Brother420.Fat32.Exhaustion
import Brother420.Fat32.Names
import Brother420.Shell.DirectoryStack
import Brother420.Shell.Navigation

/-! # whereis

`dfs` reads the table of the current directory in every call: it never goes to
another cluster.  It goes on recursively for every slot whose name starts with
three zeros, which the free ones are, and it hands the address of its own
parameter to the system calls that expect a stack of directories.
-/

namespace Brother420

open Packed (Bytes)
open Runs (Run)

namespace Shell

open Fat32 Kernel Volume

/-! ## The command -/

/-- The memory from the address of the parameter `dir` on, as the system calls use it: 11 takes it for a
    stack and pushes a name; 15 and 14 make a path of it and copy 255 bytes from where that points.
    Nothing is known of either. -/
structure StackMemory (μ : Type) where
  pushCurrentDir : μ → Bytes 8 → μ
  path : μ → Bytes 255 × μ

variable {μ : Type}

/-- The first three bytes of the name are those of `isFolder`. -/
def startsWithZeros (e : FAT32DirectoryEntry) : Bool :=
  memcmp (n := 3) (fun j => e.name ⟨j, by omega⟩) (fun _ => 0) = 0

/-- What is done about an entry that is found. -/
def dfsFound (memory : StackMemory μ) (name : Bytes 8) (ext : Bytes 3) (e : FAT32DirectoryEntry)
    (state : μ × DirStack) : Option (μ × DirStack) :=
  if e.Live ∧ memcmp e.name name = 0 ∧ memcmp e.ext ext = 0 then do
    let (path, dir) := memory.path state.1
    let dirRet ← state.2.pushDir path
    some (dir, dirRet)
  else some state

/-- The body of the loop over `m`, for one slot of the table. -/
def dfsSlot (memory : StackMemory μ) (name : Bytes 8) (ext : Bytes 3)
    (recurse : μ × DirStack → Option (μ × DirStack)) (table : FAT32DirectoryTable)
    (state : μ × DirStack) (m : Fin 64) : Option (μ × DirStack) := do
  let (dir, dirRet) ← dfsFound memory name ext (table m) state
  -- also for a slot that is not in use
  if startsWithZeros (table m) then recurse (memory.pushCurrentDir dir (table m).name, dirRet)
  else some (dir, dirRet)

/-- Every call reads the table of the same directory. -/
def dfs (s : ShellState) (memory : StackMemory μ) (name : Bytes 8) (ext : Bytes 3) :
    (fuel : Nat) → μ × DirStack → Option (μ × DirStack)
  | 0, _ => none
  | fuel + 1, state =>
    let table := readTable s.kernel s.currentDirectoryCluster
    (List.finRange 64).tail.foldlM (dfsSlot memory name ext (dfs s memory name ext fuel) table) state

/-- The name and the extension that `whereis` looks for.  The extension is read where that of `rm`
    stands, five characters too early. -/
def parseWhereis (line : Memory) : Option (Bytes 8 × Bytes 3) :=
  let i := span (fun c => c == dot || c == space) line 8 8
  if line (i + 8) = space then none
  else if line (i + 8) = 0 then some (field 8 line 8 i, noExt)
  else
    let z := span (· == space) line (i + 1 + 3) 3
    if z = 3 ∧ line (i + 1 + z + 3) ≠ 0 ∧ line (i + 1 + z + 3) ≠ space then none
    else some (field 8 line 8 i, field 3 line (i + 1 + 3) z)

/-- `dir` is not initialised. -/
def commandCallWhereis (s : ShellState) (memory : StackMemory μ) (line : Memory) (dir : μ) (dirRet : DirStack)
    (fuel : Nat) : Option (μ × DirStack) :=
  match parseWhereis line with
  | none => some (dir, dirRet.initDirStack)
  | some (name, ext) => dfs s memory name ext fuel (dir, dirRet.initDirStack)

/-! ## What it should find -/

/-- The names of the folders on a way from directory `p` down to `q`. -/
inductive PathTo (v : Volume) (p : Nat) : Nat → List (Bytes 8) → Prop
  | here : PathTo v p p []
  | enter {q c : Nat} {i : Fin 64} {names : List (Bytes 8)} : PathTo v p q names → v.Edge q i c →
      PathTo v p c (names ++ [(v.table q i).name])

/-- A slash and the characters of the name, for every name: the format of `convert_to_paths`. -/
def pathText (names : List (Bytes 8)) : List UInt8 :=
  names.flatMap fun name => slash :: (List.ofFn name).takeWhile (· != 0)

/-- The string in a buffer. -/
def stringOf {n : Nat} (b : Bytes n) : List UInt8 := (List.ofFn b).takeWhile (· != 0)

/-- A directory with an entry of this name behind its self entry. -/
def Contains (v : Volume) (name : Bytes 8) (ext : Bytes 3) (q : Nat) : Prop :=
  ∃ i, i ≠ 0 ∧ (v.table q i).Named name ext

/-- The paths of the directories at or below `p` that contain the entry, once each and nothing else. -/
def HoldsPaths (v : Volume) (p : Nat) (name : Bytes 8) (ext : Bytes 3) (entries : List (Bytes 255)) : Prop :=
  ∃ qs : List Nat, qs.Nodup ∧ (∀ q, q ∈ qs ↔ v.Under p q ∧ Contains v name ext q) ∧
    List.Forall₂ (fun q path => ∃ names, PathTo v rootClusterNumber q names ∧ stringOf path = pathText names)
      qs entries

/-- The search ends, whatever the memory holds, with the stack that it should have. -/
def Locates (s : ShellState) (name : Bytes 8) (ext : Bytes 3) : Prop :=
  ∀ (μ : Type) (memory : StackMemory μ) (dir : μ) (dirRet : DirStack),
    ∃ fuel dir' dirRet', dfs s memory name ext fuel (dir, dirRet.initDirStack) = some (dir', dirRet') ∧
      HoldsPaths s.kernel.disk.volume s.currentDirectoryCluster name ext dirRet'.entries

variable {s : ShellState} {memory : StackMemory μ} {name : Bytes 8} {ext : Bytes 3} {fuel : Nat}
  {state state' : μ × DirStack} {recurse : μ × DirStack → Option (μ × DirStack)} {table : FAT32DirectoryTable}
  {m : Fin 64}

theorem mem_tail_finRange : m ∈ (List.finRange 64).tail ↔ m ≠ 0 := by
  rw [List.finRange_succ, List.tail_cons, List.mem_map]
  constructor
  · rintro ⟨j, _, rfl⟩
    exact Fin.succ_ne_zero j
  · intro notSelf
    obtain ⟨j, rfl⟩ := Fin.exists_succ_eq.mpr notSelf
    exact ⟨j, List.mem_finRange j, rfl⟩

/-! ## What it does -/

theorem dfsSlot_idle (unnamed : ¬ (table m).Named name ext) (zeros : startsWithZeros (table m) = false) :
    dfsSlot memory name ext recurse table state m = some state := by
  have skip : ¬ ((table m).Live ∧ memcmp (table m).name name = 0 ∧ memcmp (table m).ext ext = 0) := by
    rintro ⟨live, sameName, sameExt⟩
    exact unnamed ⟨live, memcmp_eq_zero_iff.mp sameName, memcmp_eq_zero_iff.mp sameExt⟩
  simp [dfsSlot, dfsFound, skip, zeros]

/-- A slot whose name starts with zeros passes the failure of the recursive call on. -/
theorem dfsSlot_none (zeros : startsWithZeros (table m) = true) (fails : ∀ state, recurse state = none) :
    dfsSlot memory name ext recurse table state m = none := by
  simp only [dfsSlot, zeros, ↓reduceIte, fails, Option.bind_eq_bind]
  exact Option.bind_fun_none _

/-- One slot pushes the path that the memory gives, or leaves the stack to the recursive call. -/
theorem dfsSlot_entries {Inv : DirStack → Prop}
    (push : ∀ dir dirRet dirRet', Inv dirRet → dirRet.pushDir (memory.path dir).1 = some dirRet' → Inv dirRet')
    (deeper : ∀ state state', Inv state.2 → recurse state = some state' → Inv state'.2)
    (start : Inv state.2) (result : dfsSlot memory name ext recurse table state m = some state') : Inv state'.2 := by
  unfold dfsSlot at result
  obtain ⟨⟨dir, dirRet⟩, first, rest⟩ := Option.bind_eq_some_iff.mp result
  have middle : Inv dirRet := by
    unfold dfsFound at first
    split at first
    · obtain ⟨dirRet₁, pushed, same⟩ := Option.bind_eq_some_iff.mp first
      cases same
      exact push _ _ _ start pushed
    · cases first
      exact start
  dsimp only at rest
  split at rest
  · exact deeper _ _ middle rest
  · cases rest
    exact middle

/-- The search does not end in a directory with a slot whose name starts with zeros: the recursive
    call for that slot finds the same directory. -/
theorem dfs_none (entry : m ≠ 0) (zeros : startsWithZeros (readTable s.kernel s.currentDirectoryCluster m) = true) :
    dfs s memory name ext fuel state = none := by
  induction fuel generalizing state with
  | zero => rfl
  | succ fuel ih =>
    exact Folds.foldlM_none (mem_tail_finRange.mpr entry) fun _ => dfsSlot_none zeros fun _ => ih

/-- Nor does the command, for any line that it does not turn down. -/
theorem commandCallWhereis_none {line : Memory} {dir : μ} {dirRet : DirStack} (accepted : parseWhereis line ≠ none)
    (entry : m ≠ 0) (zeros : startsWithZeros (readTable s.kernel s.currentDirectoryCluster m) = true) :
    commandCallWhereis s memory line dir dirRet fuel = none := by
  unfold commandCallWhereis
  cases target : parseWhereis line with
  | none => exact absurd target accepted
  | some _ => exact dfs_none entry zeros

/-- What every push keeps, the search keeps. -/
theorem dfs_entries (Inv : DirStack → Prop)
    (push : ∀ dir dirRet dirRet', Inv dirRet → dirRet.pushDir (memory.path dir).1 = some dirRet' → Inv dirRet')
    (start : Inv state.2) (result : dfs s memory name ext fuel state = some state') : Inv state'.2 := by
  induction fuel generalizing state state' with
  | zero => cases result
  | succ fuel ih =>
    exact Folds.foldlM_invariant (fun state => Inv state.2)
      (fun _ _ _ _ before step => dfsSlot_entries push (fun _ _ inv called => ih inv called) before step) start result

theorem dfs_idle (unnamed : ∀ i, i ≠ 0 → ¬ (readTable s.kernel s.currentDirectoryCluster i).Named name ext)
    (zeros : ∀ i, i ≠ 0 → startsWithZeros (readTable s.kernel s.currentDirectoryCluster i) = false) :
    dfs s memory name ext 1 state = some state :=
  Folds.foldlM_idle fun i member =>
    dfsSlot_idle (unnamed i (mem_tail_finRange.mp member)) (zeros i (mem_tail_finRange.mp member))

/-! ## When that is what it should -/

/-- A path that is no path. -/
def strayPath : Bytes 255 := fun i => if i = 0 then 1 else 0

/-- Memory that has it at every address. -/
def strayMemory : StackMemory Unit where
  pushCurrentDir dir _ := dir
  path dir := (strayPath, dir)

theorem stringOf_strayPath (names : List (Bytes 8)) : stringOf strayPath ≠ pathText names := by
  have text : stringOf strayPath = [1] := by decide +kernel
  rw [text]
  cases names with
  | nil => simp [pathText]
  | cons name names =>
    intro same
    exact absurd (List.head_eq_of_cons_eq same) (by decide)

theorem not_locates_zeros (entry : m ≠ 0)
    (zeros : startsWithZeros (readTable s.kernel s.currentDirectoryCluster m) = true) : ¬ Locates s name ext := by
  intro locates
  obtain ⟨fuel, dir', dirRet', answer, _⟩ := locates Unit strayMemory () ⟨fun _ => strayPath, 0⟩
  rw [dfs_none entry zeros] at answer
  cases answer

/-- Nothing that is found is found by its path. -/
theorem not_locates_contains {q : Nat} (under : s.kernel.disk.volume.Under s.currentDirectoryCluster q)
    (contains : Contains s.kernel.disk.volume name ext q) : ¬ Locates s name ext := by
  intro locates
  obtain ⟨fuel, dir', dirRet', answer, qs, _, members, paths⟩ := locates Unit strayMemory () ⟨fun _ => strayPath, 0⟩
  have stray : ∀ path ∈ dirRet'.entries, path = strayPath := by
    refine dfs_entries (fun dirRet => ∀ path ∈ dirRet.entries, path = strayPath) ?_ ?_ answer
    · intro dir dirRet dirRet' before pushed path member
      exact (DirStack.mem_pushDir_entries pushed member).elim (before path) id
    · rw [DirStack.initDirStack_entries]
      exact List.forall_mem_nil _
  obtain ⟨i, below, _⟩ := List.getElem_of_mem ((members q).mpr ⟨under, contains⟩)
  have below' : i < dirRet'.entries.length := paths.length_eq ▸ below
  obtain ⟨names, _, text⟩ := paths.get below below'
  rw [stray _ (List.get_mem _ _)] at text
  exact stringOf_strayPath names text

/-- `whereis` does what it should exactly if no slot of the current directory starts with zeros and
    there is nothing to find. -/
theorem locates_iff (wellFormed : s.kernel.disk.WellFormed)
    (directory : s.kernel.disk.volume.Directory s.currentDirectoryCluster) :
    Locates s name ext ↔
      (∀ i, i ≠ 0 → startsWithZeros (s.kernel.disk.table s.currentDirectoryCluster i) = false) ∧
        ∀ q, s.kernel.disk.volume.Under s.currentDirectoryCluster q → ¬ Contains s.kernel.disk.volume name ext q := by
  have range := wellFormed.sound.volume.directory_range directory
  have table : readTable s.kernel s.currentDirectoryCluster = s.kernel.disk.table s.currentDirectoryCluster :=
    readTable_eq (by omega)
  constructor
  · intro locates
    constructor
    · intro i entry
      by_contra zeros
      rw [Bool.not_eq_false, ← table] at zeros
      exact not_locates_zeros entry zeros locates
    · intro q under contains
      exact not_locates_contains under contains locates
  · rintro ⟨zeros, nothing⟩ μ memory dir dirRet
    rw [← table] at zeros
    have unnamed : ∀ i, i ≠ 0 → ¬ (readTable s.kernel s.currentDirectoryCluster i).Named name ext := by
      intro i entry named
      rw [table] at named
      exact nothing _ .here ⟨i, entry, named⟩
    refine ⟨1, dir, dirRet.initDirStack, dfs_idle unnamed zeros, [], List.nodup_nil, ?_, ?_⟩
    · intro q
      simp only [List.not_mem_nil, false_iff]
      rintro ⟨under, contains⟩
      exact nothing q under contains
    · rw [DirStack.initDirStack_entries]
      exact .nil

/-- In a root with 63 folders there is nothing to follow, and no file to find. -/
theorem locates_iff_numberedRoot :
    ∃ k, k.disk.table rootClusterNumber = numberedRoot 63 ∧ Locates (startShell k) (text ['x']) (text ['t']) := by
  obtain ⟨history, k, run, table, _, inRoot⟩ := run_numberedRoot (n := 63) (by decide)
  have wellFormed : (startShell k).kernel.disk.WellFormed := (run_regular run).wellFormed
  refine ⟨k, table, (locates_iff wellFormed .root).mpr ⟨?_, ?_⟩⟩
  · intro i entry
    change startsWithZeros (k.disk.table rootClusterNumber i) = false
    rw [table, numberedRoot, if_neg entry, if_pos (by omega)]
    rw [Bool.eq_false_iff, startsWithZeros, ne_eq, decide_eq_true_eq, memcmp_eq_zero_iff]
    intro zeros
    have byte : UInt8.ofNat i = 0 := congrFun zeros 0
    have value := congrArg UInt8.toNat byte
    rw [UInt8.toNat_ofNat_of_lt' (by simp [UInt8.size]; omega)] at value
    exact entry (Fin.ext value)
  · rintro q under ⟨i, entry, named⟩
    obtain rfl := inRoot q i ⟨under.directory .root, entry, named.live⟩
    have ext := named.ext
    change (k.disk.table rootClusterNumber i).ext = _ at ext
    rw [table, numberedRoot, if_neg entry, if_pos (by omega)] at ext
    have folder : (newEntry (numberedFolder i) (2 + i)).ext = noExt := rfl
    rw [folder] at ext
    exact absurd (congrFun ext 0) (by decide)

/-- In a new volume the search does not end: slot 1 of the root is free. -/
theorem whereis_does_not_end :
    zeroKernel.disk.WellFormed ∧ ¬ Locates (startShell zeroKernel) (text ['x']) (text ['t']) := by
  have regular := fresh_zeroKernel.regular
  have table : readTable zeroKernel rootClusterNumber = freshRoot := by
    rw [readTable_eq (by decide)]
    exact fresh_zeroKernel.root
  refine ⟨regular.wellFormed, not_locates_zeros (m := 1) (by decide) ?_⟩
  change startsWithZeros (readTable zeroKernel rootClusterNumber 1) = true
  rw [table]
  decide

end Shell

end Brother420
