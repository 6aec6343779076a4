import Brother420.Shell.UniqueNames

/-! # Moving an entry that is not there

The loops of `mv` that look for the entry have no branch for an entry that is
missing.  A rename and a move into a folder come to nothing then.  A move to `/..`
goes on, and enters the name above with what its variables hold.
-/

namespace Brother420.Shell

open Packed (Bytes)
open Runs (Run)
open Fat32 Kernel Volume

variable {k : Kernel} {s s' : ShellState} {d : Disk} {line : Memory} {name : Bytes 8} {ext : Bytes 3} {target : MvTarget}
  {b c t u second selfLocation : Nat} {i m o : Fin 64} {path : List Nat} {table : FAT32DirectoryTable}

/-- The line gives a name with an extension, and says what to do with that entry. -/
def Asks (line : Memory) (name : Bytes 8) (ext : Bytes 3) (target : MvTarget) : Prop :=
  ∃ isFile i, parseMvSource line = some (name, ext, isFile, i) ∧ parseMvTarget line isFile i = some target

/-- No slot of the table behind the self entry is in use under this name. -/
def Missing (table : FAT32DirectoryTable) (name : Bytes 8) (ext : Bytes 3) : Prop :=
  ∀ m, m ≠ 0 → ¬ (table m).Named name ext

/-- The line leaves the disk and the current directory as they are. -/
def ChangesNothing (s : ShellState) (line : Memory) (selfLocation : Nat) : Prop :=
  ∃ s', commandCallMv s line selfLocation = some s' ∧ s'.kernel.disk = s.kernel.disk ∧
    s'.currentDirectoryCluster = s.currentDirectoryCluster

/-! ## When it does -/

/-- An empty name is found in a free slot. -/
def FoundFree (table : FAT32DirectoryTable) (name : Bytes 8) (ext : Bytes 3) : Prop :=
  (name = fun _ => 0) ∧ ext = noExt ∧ HasFree table

/-- The table at `b` is full, or what `mv` makes of it already stands where its self entry points. -/
def StoresNothing (d : Disk) (b : Nat) (name : Bytes 8) (ext : Bytes 3) (selfLocation : Nat) : Prop :=
  ∀ o, findFree (d.table b) = some o →
    d.table ((d.table b 0).cluster % 2 ^ 26) =
      Function.update (d.table b) o (filled (d.table b o) name ext 0 selfLocation)

/-- `cd` by this line leads from `b` to `c`, when two dots lead to `second`. -/
structure Leads (d : Disk) (b second : Nat) (line : Memory) (c : Nat) : Prop where
  up : Upward line → (if b = rootClusterNumber then b else second) = c
  into : ¬ Upward line → ∀ i, findLive (d.table b) (line.bytes 0 8) noExt = some i → (d.table b i).cluster = c
  stay : ¬ Upward line → findLive (d.table b) (line.bytes 0 8) noExt = none → b = c

/-- The line by which `mv` goes back to where it was. -/
def temporal (s : ShellState) : Memory :=
  Memory.store (fun _ => 0) 0 (s.kernel.disk.table s.currentDirectoryCluster 0).name

/-- When a line whose entry is missing comes to nothing. -/
def Idle (s : ShellState) (path : List Nat) (selfLocation : Nat) (name : Bytes 8) (ext : Bytes 3) : MvTarget → Prop
  | .rename _ _ => True
  | .parent =>
    (FoundFree (s.kernel.disk.table s.currentDirectoryCluster) name ext →
      StoresNothing s.kernel.disk (upper path) name ext 0) ∧
    (¬ FoundFree (s.kernel.disk.table s.currentDirectoryCluster) name ext →
      StoresNothing s.kernel.disk (upper path) name ext selfLocation) ∧
    Leads s.kernel.disk (upper path) (upper path.dropLast) (temporal s) s.currentDirectoryCluster
  | .folder newPath =>
    FoundFree (s.kernel.disk.table s.currentDirectoryCluster) name ext →
      ∀ i, Matches (s.kernel.disk.table s.currentDirectoryCluster) newPath i →
        ¬ HasFree (s.kernel.disk.table (s.kernel.disk.table s.currentDirectoryCluster i).cluster)

/-! ## The search -/

section Search

variable (standing : Standing s path) (missing : Missing (s.kernel.disk.table s.currentDirectoryCluster) name ext)
include standing missing

/-- What is found instead of a missing entry is an empty slot. -/
theorem found_empty (found : findEntry (s.kernel.disk.table s.currentDirectoryCluster) name ext = some m) :
    s.kernel.disk.table s.currentDirectoryCluster m = .zero := by
  obtain ⟨⟨entry, isName, isExt⟩, _⟩ := findEntry_some.mp found
  exact standing.disk.volume.free standing.route.directory fun live => missing m entry ⟨live, isName, isExt⟩

theorem findEntry_missing :
    findEntry (s.kernel.disk.table s.currentDirectoryCluster) name ext ≠ none ↔
      FoundFree (s.kernel.disk.table s.currentDirectoryCluster) name ext := by
  constructor
  · intro there
    obtain ⟨m, found⟩ := Option.ne_none_iff_exists'.mp there
    have empty := found_empty standing missing found
    obtain ⟨⟨entry, isName, isExt⟩, _⟩ := findEntry_some.mp found
    rw [empty] at isName isExt
    refine ⟨isName.symm, isExt.symm, m, entry, ?_⟩
    rw [empty]
    exact FAT32DirectoryEntry.not_live_zero
  · rintro ⟨rfl, rfl, i, entry, vacant⟩ none
    have empty : s.kernel.disk.table s.currentDirectoryCluster i = .zero :=
      standing.disk.volume.free standing.route.directory vacant
    refine findEntry_none.mp none i entry ?_ ?_ <;> rw [empty] <;> rfl

end Search

/-! ## Into a folder -/

theorem insertedDisk_eq_self_iff {size : UInt32} :
    insertedDisk d t name ext size c = d ↔ ¬ HasFree (d.table t) := by
  rw [not_hasFree_iff]
  constructor
  · intro same
    by_contra free
    obtain ⟨o, found⟩ := Option.ne_none_iff_exists'.mp free
    have new : (insertedDisk d t name ext size c).table t o = filled (d.table t o) name ext size c :=
      insertedDisk_new found
    -- the slot that is filled was free
    rw [same] at new
    have vacant := (findFree_some.mp found).1.2
    rw [new] at vacant
    exact vacant rfl
  · exact insertedDisk_none

/-- There is nothing to take out of an empty slot. -/
theorem clearedDisk_empty (empty : d.table b m = .zero) : clearedDisk d b m = d := by
  refine Disk.setTable_eq_self_iff.mpr (Eq.symm (Function.update_eq_self_iff.mpr ?_))
  rw [empty]
  rfl

section Search

variable (standing : Standing s path) (missing : Missing (s.kernel.disk.table s.currentDirectoryCluster) name ext)
include standing missing

theorem mvRename_nothing {newName : Bytes 8} {newExt : Bytes 3} : mvRename s name ext newName newExt = s := by
  have absent : findLive (s.kernel.disk.table s.currentDirectoryCluster) name ext = none :=
    findLive_none.mpr fun j entry live isName isExt => missing j entry ⟨live, isName, isExt⟩
  exact mvRename_missing standing.directory_lt absent

theorem mvFolder_nothing_iff {newPath : Bytes 8} :
    (mvFolder s name ext newPath).kernel.disk = s.kernel.disk ↔ Idle s path selfLocation name ext (.folder newPath) := by
  have found := findEntry_missing standing missing
  by_cases free : FoundFree (s.kernel.disk.table s.currentDirectoryCluster) name ext
  · obtain ⟨m, entry⟩ := Option.ne_none_iff_exists'.mp (found.mpr free)
    have empty := found_empty standing missing entry
    by_cases folder : ∃ i, Matches (s.kernel.disk.table s.currentDirectoryCluster) newPath i
    · obtain ⟨i, is⟩ := folder
      have slot : s.kernel.disk.volume.Slot s.currentDirectoryCluster i :=
        ⟨standing.route.directory, is.1, is.2.1⟩
      rw [mvFolder_disk standing.disk slot is.2.2.1 is.2.2.2 entry, movedDisk, clearedDisk_empty empty,
        insertedDisk_eq_self_iff]
      constructor
      · intro full _ j is'
        obtain rfl : j = i := standing.disk.volume.unique slot.directory is'.2.1 slot.live
          (is'.2.2.1.trans is.2.2.1.symm) (is'.2.2.2.trans is.2.2.2.symm)
        exact full
      · exact fun idle => idle free i is
    · rw [mvFolder_missing standing.directory_lt (.inl fun i is => folder ⟨i, is⟩)]
      exact iff_of_true rfl fun _ i is => absurd ⟨i, is⟩ folder
  · rw [mvFolder_missing standing.directory_lt (.inr (not_not.mp fun there => free (found.mp there)))]
    exact iff_of_true rfl fun there => absurd there free

end Search

theorem mvFolder_here {newPath : Bytes 8} :
    (mvFolder s name ext newPath).currentDirectoryCluster = s.currentDirectoryCluster := by
  unfold mvFolder
  simp only

/-! ## To the parent -/

theorem insertEntry_eq_self_iff :
    (insertEntry k (k.disk.table b) (k.disk.table b 0).cluster name ext 0 selfLocation).disk = k.disk ↔
      StoresNothing k.disk b name ext selfLocation := by
  unfold insertEntry StoresNothing
  cases found : findFree (k.disk.table b) with
  | none => simp
  | some o =>
    simp only [writeTable_mod, Disk.setTable_eq_self_iff, Option.some.injEq, forall_eq']

/-- `cd` leads where the line says, as long as the stack has a cell above its top and one below. -/
theorem cd_leads_iff (line : Memory) (c : Nat) (inside : s.currentDirectoryCluster < 2 ^ 26)
    (room : 0 ≤ s.currentDirStack.top ∧ s.currentDirStack.top + 1 < 256)
    (below : s.currentDirectoryCluster ≠ rootClusterNumber →
      ∃ dir, s.currentDirStack.popCurrentDir.getTopCurrentDir = some dir ∧ dir.toNat = second) :
    ∃ code s', commandCallCd s line = some (code, s') ∧ s'.kernel = s.kernel ∧
      (s'.currentDirectoryCluster = c ↔ Leads s.kernel.disk s.currentDirectoryCluster second line c) := by
  by_cases upward : Upward line
  · have leads {u : Nat} (goes : (if s.currentDirectoryCluster = rootClusterNumber then s.currentDirectoryCluster
        else second) = u) : u = c ↔ Leads s.kernel.disk s.currentDirectoryCluster second line c :=
      ⟨fun same => ⟨fun _ => goes.trans same, fun other => absurd upward other, fun other => absurd upward other⟩,
        fun leads => goes.symm.trans (leads.up upward)⟩
    by_cases root : s.currentDirectoryCluster = rootClusterNumber
    · exact ⟨1, s, leave_root upward root, rfl, leads (if_pos root)⟩
    · obtain ⟨dir, last, rfl⟩ := below root
      exact ⟨0, _, leave_popped upward root last, rfl, leads (if_neg root)⟩
  · cases found : findLive (s.kernel.disk.table s.currentDirectoryCluster) (line.bytes 0 8) noExt with
    | none =>
      refine ⟨1, s, stay_absent inside upward found, rfl, ?_⟩
      constructor
      · intro same
        refine ⟨fun up => absurd up upward, fun _ i there => ?_, fun _ _ => same⟩
        exact absurd (found.symm.trans there) (Option.some_ne_none i).symm
      · exact fun leads => leads.stay upward found
    | some i =>
      have range : 0 ≤ s.currentDirStack.top + 1 ∧ s.currentDirStack.top + 1 < 256 := by omega
      obtain ⟨cds, pushed⟩ : ∃ cds, s.currentDirStack.pushCurrentDir
          (UInt8.ofNat (s.kernel.disk.table s.currentDirectoryCluster i).cluster) = some cds := ⟨_, dif_pos range⟩
      refine ⟨0, _, enter_found inside upward found pushed, rfl, ?_⟩
      constructor
      · intro same
        refine ⟨fun up => absurd up upward, fun _ j there => ?_, fun _ there => ?_⟩
        · obtain rfl := Option.some.inj (found.symm.trans there)
          exact same
        · exact absurd (found.symm.trans there) (Option.some_ne_none i)
      · exact fun leads => leads.into upward i found

theorem mvParentRest_nothing_iff (standing : Standing s path) :
    (∃ s', mvParentRest s (s.kernel.disk.table s.currentDirectoryCluster 0).name name ext 0 selfLocation = some s' ∧
        s'.kernel.disk = s.kernel.disk ∧ s'.currentDirectoryCluster = s.currentDirectoryCluster) ↔
      StoresNothing s.kernel.disk (upper path) name ext selfLocation ∧
        Leads s.kernel.disk (upper path) (upper path.dropLast) (temporal s) s.currentDirectoryCluster := by
  obtain ⟨code, s₁, up, kernel, here, room, below⟩ := standing.goes_up s.kernel
  have inside : s₁.currentDirectoryCluster < 2 ^ 26 := by
    rw [here, upper]
    omega
  have table : readTable s.kernel s₁.currentDirectoryCluster = s.kernel.disk.table (upper path) := by
    rw [readTable_eq inside, here]
  let inserted := insertEntry s.kernel (s.kernel.disk.table (upper path)) (s.kernel.disk.table (upper path) 0).cluster
    name ext 0 selfLocation
  obtain ⟨code', s₂, back, kernel₂, lands⟩ := cd_leads_iff (s := { s₁ with kernel := inserted }) (temporal s)
    s.currentDirectoryCluster inside room fun other => (below other).2
  have stores : inserted.disk = s.kernel.disk ↔ StoresNothing s.kernel.disk (upper path) name ext selfLocation :=
    insertEntry_eq_self_iff
  have answer : mvParentRest s (s.kernel.disk.table s.currentDirectoryCluster 0).name name ext 0 selfLocation =
      some s₂ := by
    simp only [mvParentRest, up, Option.bind_eq_bind, Option.bind_some, table, kernel]
    exact congrArg (fun answer => answer.bind fun x => some x.2) back
  rw [answer]
  simp only [Option.some.injEq, exists_eq_left', kernel₂, lands, here]
  rw [stores]
  exact and_congr_right fun idle => by rw [stores.mpr idle]

section Search

variable (standing : Standing s path) (missing : Missing (s.kernel.disk.table s.currentDirectoryCluster) name ext)
include standing missing

/-- The entry that is missing has size 0, and the cluster that the variable holds or that of an empty slot. -/
theorem mvParent_rest (selfLocation : Nat) :
    ∃ c, mvParent s name ext selfLocation =
        mvParentRest s (s.kernel.disk.table s.currentDirectoryCluster 0).name name ext 0 c ∧
      (FoundFree (s.kernel.disk.table s.currentDirectoryCluster) name ext → c = 0) ∧
      (¬ FoundFree (s.kernel.disk.table s.currentDirectoryCluster) name ext → c = selfLocation) := by
  have searched := findEntry_missing standing missing
  unfold mvParent
  simp only [standing.readTable_eq]
  cases found : findEntry (s.kernel.disk.table s.currentDirectoryCluster) name ext with
  | none =>
    exact ⟨selfLocation, rfl, fun free => absurd found (searched.mpr free), fun _ => rfl⟩
  | some m =>
    have free := searched.mp (found ▸ Option.some_ne_none m)
    have empty := found_empty standing missing found
    refine ⟨0, ?_, fun _ => rfl, fun notFree => absurd free notFree⟩
    have stored : writeTable s.kernel (Function.update (s.kernel.disk.table s.currentDirectoryCluster) m
        (cleared (s.kernel.disk.table s.currentDirectoryCluster m))) s.currentDirectoryCluster = s.kernel := by
      rw [writeTable_eq standing.directory_lt]
      exact congrArg (fun disk => { s.kernel with disk }) (clearedDisk_empty empty)
    rw [empty] at stored
    simp only [empty, stored]
    rfl

theorem mvParent_nothing_iff :
    (∃ s', mvParent s name ext selfLocation = some s' ∧ s'.kernel.disk = s.kernel.disk ∧
        s'.currentDirectoryCluster = s.currentDirectoryCluster) ↔ Idle s path selfLocation name ext .parent := by
  obtain ⟨c, answer, empty, held⟩ := mvParent_rest standing missing selfLocation
  rw [answer, mvParentRest_nothing_iff standing, Idle, ← and_assoc]
  refine and_congr_left fun _ => ?_
  by_cases free : FoundFree (s.kernel.disk.table s.currentDirectoryCluster) name ext
  · simp only [free, empty free, true_imp_iff, not_true_eq_false, false_imp_iff, and_true]
  · simp only [free, held free, true_imp_iff, not_false_eq_true, false_imp_iff, true_and]

/-- A line whose entry is missing changes nothing exactly if it is idle. -/
theorem missing_changes_nothing_iff (asks : Asks line name ext target) :
    ChangesNothing s line selfLocation ↔ Idle s path selfLocation name ext target := by
  obtain ⟨isFile, i, source, goal⟩ := asks
  simp only [ChangesNothing, commandCallMv, source, goal, Option.bind_eq_bind, Option.bind_some]
  cases target with
  | rename newName newExt =>
    simp only [mvRename_nothing standing missing]
    exact iff_of_true ⟨s, rfl, rfl, rfl⟩ trivial
  | parent => exact mvParent_nothing_iff standing missing
  | folder newPath =>
    rw [← mvFolder_nothing_iff standing missing]
    simp only [Option.some.injEq, exists_eq_left', mvFolder_here, and_true]

end Search

/-! ## In a new volume -/

/-- In a directory the entry that is stored is new. -/
theorem storesNothing_iff (sound : d.volume.Sound) (directory : d.volume.Directory b) :
    StoresNothing d b name ext selfLocation ↔ ¬ HasFree (d.table b) := by
  have range := sound.directory_range directory
  have self : (d.table b 0).cluster = b := (sound.self directory).2
  rw [not_hasFree_iff]
  constructor
  · intro nothing
    by_contra free
    obtain ⟨o, found⟩ := Option.ne_none_iff_exists'.mp free
    have same := congrFun (nothing o found) o
    rw [self, Nat.mod_eq_of_lt (by omega), Function.update_self] at same
    have vacant := (findFree_some.mp found).1.2
    rw [same] at vacant
    exact vacant rfl
  · intro full o found
    exact absurd (full.symm.trans found) (Option.some_ne_none o).symm

theorem asks_parent (old : ShortName) : Asks (lineOf (MvLine.parent old).text) old.name old.extension .parent := by
  obtain ⟨source, goal⟩ := spells_source old [slash, dot, dot]
  exact ⟨_, _, parseMvSource_typed source, parseMvTarget_parent goal⟩

theorem asks_folder (old : ShortName) {f : FolderName} (notDotted : ¬ f.Dotted) :
    Asks (lineOf (MvLine.folder old f).text) old.name old.extension (.folder f.name) := by
  obtain ⟨source, goal⟩ := spells_source old (slash :: f.text)
  exact ⟨_, _, parseMvSource_typed source, parseMvTarget_folder goal (fun a => lineOf_behind) notDotted⟩

/-- There is a folder `d` but no file `a.t` to put into it. -/
theorem missing_changes_nothing_iff_folder :
    ∃ k, Run perform Intended Fresh [(.write folderD, 0)] k ∧
      k.disk.volume.Edge rootClusterNumber 1 3 ∧
      ChangesNothing (startShell k) (lineOf (MvLine.folder nameAT folderNameD).text) 0 := by
  obtain ⟨k, run, written⟩ := run_first folderD (l := []) (by decide) (by decide) rfl rfl rfl
  obtain ⟨slot, entry⟩ := first_entry written
  have standing := (started_startShell (run_regular run).wellFormed).standing
  have unused : ∀ i, (k.disk.table rootClusterNumber i).name ≠ nameAT.name :=
    first_names written nameAT.name_ne (by decide) (by decide)
  refine ⟨k, run, edge_newEntry .root (by decide) rfl (by decide) entry, ?_⟩
  refine (missing_changes_nothing_iff standing (fun m _ named => unused m named.name)
    (asks_folder nameAT folderNameD_not_dotted)).mpr ?_
  exact fun found => absurd found.1 nameAT.name_ne

/-- In a new volume `mv a.t /..` enters a folder `a.t` in the root. -/
theorem missing_entered :
    Standing (startShell zeroKernel) [rootClusterNumber] ∧
      Missing (zeroKernel.disk.table rootClusterNumber) nameAT.name nameAT.extension ∧
      Asks (lineOf (MvLine.parent nameAT).text) nameAT.name nameAT.extension .parent ∧
      ∀ selfLocation, ¬ ChangesNothing (startShell zeroKernel) (lineOf (MvLine.parent nameAT).text) selfLocation := by
  have regular := fresh_zeroKernel.regular
  have standing := (started_startShell regular.wellFormed).standing
  have missing : Missing (zeroKernel.disk.table rootClusterNumber) nameAT.name nameAT.extension := by
    intro m entry named
    have live := named.live
    rw [fresh_zeroKernel.root, freshRoot_other entry] at live
    exact FAT32DirectoryEntry.not_live_zero live
  have free : HasFree (zeroKernel.disk.table rootClusterNumber) := by
    refine ⟨1, by decide, ?_⟩
    rw [fresh_zeroKernel.root, freshRoot_other (by decide)]
    exact FAT32DirectoryEntry.not_live_zero
  refine ⟨standing, missing, asks_parent nameAT, fun selfLocation nothing => ?_⟩
  rw [ChangesNothing, commandCallMv_parent] at nothing
  obtain ⟨_, stored, _⟩ := (mvParent_nothing_iff standing missing).mp nothing
  have full := (storesNothing_iff regular.sound.volume .root).mp (stored fun found => nameAT.name_ne found.1)
  exact full free

end Brother420.Shell
