import Brother420.Fat32.Interrupted
import Brother420.Shell.PathMoves

/-! # Interrupted moves

`mv` stores directory tables only, two at most.  A rename changes the entry in its
place, and a move into a folder fills the new slot first; behind either write all
clusters are still reached by names.  A move to the parent clears the old slot
first, and a stop before the second write loses the entry with all below it.
-/

namespace Brother420

open Packed (Bytes)

namespace Shell

open Fat32 Kernel Volume

/-! ## The cluster writes of mv -/

/-- System call 13 -/
def tableWrite (table : FAT32DirectoryTable) (cluster : Nat) : ClusterWrite :=
  ⟨cluster, FAT32DirectoryTable.layout table⟩

def mvRenameLog (s : ShellState) (name : Bytes 8) (ext : Bytes 3) (newName : Bytes 8) (newExt : Bytes 3) :
    List ClusterWrite :=
  let table := readTable s.kernel s.currentDirectoryCluster
  match findLive table name ext with
  | none => []
  | some m =>
    let location := (table m).cluster
    let table2 := readTable s.kernel location
    [tableWrite (Function.update table m (renamed (table m) newName newExt)) s.currentDirectoryCluster,
      tableWrite (Function.update table2 0 (renamed (table2 0) newName newExt)) location]

def insertLog (table2 : FAT32DirectoryTable) (location : Nat) (name : Bytes 8) (ext : Bytes 3) (bufferSize : UInt32)
    (selfLocation : Nat) : List ClusterWrite :=
  match findFree table2 with
  | none => []
  | some o => [tableWrite (Function.update table2 o (filled (table2 o) name ext bufferSize selfLocation)) location]

/-- `cd` stores nothing. -/
def mvParentRestLog (s : ShellState) (name : Bytes 8) (ext : Bytes 3) (bufferSize : UInt32) (selfLocation : Nat) :
    List ClusterWrite :=
  match commandCallCd s (Memory.store (fun _ => 0) 0 (dotDot : Bytes 2)) with
  | none => []
  | some (_, s) =>
    let table2 := readTable s.kernel s.currentDirectoryCluster
    insertLog table2 (table2 0).cluster name ext bufferSize selfLocation

def mvParentLog (s : ShellState) (name : Bytes 8) (ext : Bytes 3) (selfLocation : Nat) : List ClusterWrite :=
  let table := readTable s.kernel s.currentDirectoryCluster
  match findEntry table name ext with
  | none => mvParentRestLog s name ext 0 selfLocation
  | some n =>
    let cleared := Function.update table n (cleared (table n))
    tableWrite cleared s.currentDirectoryCluster ::
      mvParentRestLog { s with kernel := writeTable s.kernel cleared s.currentDirectoryCluster } name ext
        (table n).filesize (table n).cluster

/-- What the body of the loop over `m` stores. -/
def mvFolderStepLog (currentDirectoryCluster : Nat) (name : Bytes 8) (ext : Bytes 3) (newPath : Bytes 8)
    (acc : Kernel × FAT32DirectoryTable) (m : Fin 64) : List ClusterWrite :=
  let (k, table) := acc
  if m ≠ 0 ∧ (table m).Live ∧ memcmp (table m).name newPath = 0 ∧ memcmp (table m).ext noExt = 0 then
    match findEntry table name ext with
    | none => []
    | some n =>
      let location := (table m).cluster
      insertLog (readTable k location) location name ext (table n).filesize (table n).cluster ++
        [tableWrite (Function.update table n (cleared (table n))) currentDirectoryCluster]
  else []

/-- One iteration of the loop over `m`, with what was stored before. -/
def mvFolderLogStep (currentDirectoryCluster : Nat) (name : Bytes 8) (ext : Bytes 3) (newPath : Bytes 8)
    (acc : List ClusterWrite × Kernel × FAT32DirectoryTable) (m : Fin 64) :
    List ClusterWrite × Kernel × FAT32DirectoryTable :=
  (acc.1 ++ mvFolderStepLog currentDirectoryCluster name ext newPath acc.2 m,
    mvFolderStep currentDirectoryCluster name ext newPath acc.2 m)

def mvFolderLog (s : ShellState) (name : Bytes 8) (ext : Bytes 3) (newPath : Bytes 8) : List ClusterWrite :=
  ((List.finRange 64).foldl (mvFolderLogStep s.currentDirectoryCluster name ext newPath)
    ([], s.kernel, readTable s.kernel s.currentDirectoryCluster)).1

/-- The cluster writes that `mv` issues, in order. -/
def mvLog (s : ShellState) (path : Memory) (selfLocation : Nat) : List ClusterWrite :=
  match parseMvSource path with
  | none => []
  | some (name, ext, isFile, i) =>
    match parseMvTarget path isFile i with
    | none => []
    | some (.rename newName newExt) => mvRenameLog s name ext newName newExt
    | some .parent => mvParentLog s name ext selfLocation
    | some (.folder newPath) => mvFolderLog s name ext newPath

variable {s s' : ShellState} {a : PathShell} {d d' : Disk} {k : Kernel} {p q t c x selfLocation : Nat}
  {i m o : Fin 64} {name newName newPath : Bytes 8} {ext newExt : Bytes 3} {size : UInt32} {path : Memory}
  {table : FAT32DirectoryTable} {src : Path}

/-! ## The writes make up the new disk -/

theorem writeTable_disk : (writeTable k table c).disk = k.disk.writeCluster (tableWrite table c) := rfl

theorem writeAll_insertLog :
    k.disk.writeAll (insertLog table t name ext size c) = (insertEntry k table t name ext size c).disk := by
  unfold insertLog insertEntry
  cases findFree table with
  | none => rfl
  | some o => rfl

theorem commandCallCd_kernel {code : UInt8} (answer : commandCallCd s path = some (code, s')) :
    s'.kernel = s.kernel := by
  unfold commandCallCd at answer
  simp only at answer
  split at answer
  · split at answer
    · obtain ⟨_, rfl⟩ := Prod.mk.inj (Option.some.inj answer)
      rfl
    · simp only [popAndGetTop, Option.bind_eq_bind, Option.bind_eq_some_iff] at answer
      obtain ⟨_, ⟨_, _, popped⟩, result⟩ := answer
      obtain rfl := Option.some.inj popped
      obtain ⟨_, rfl⟩ := Prod.mk.inj (Option.some.inj result)
      rfl
  · split at answer
    · simp only [pushDirectory, Option.bind_eq_bind, Option.bind_eq_some_iff] at answer
      obtain ⟨_, ⟨_, _, pushed⟩, result⟩ := answer
      obtain rfl := Option.some.inj pushed
      obtain ⟨_, rfl⟩ := Prod.mk.inj (Option.some.inj result)
      rfl
    · obtain ⟨_, rfl⟩ := Prod.mk.inj (Option.some.inj answer)
      rfl

theorem writeAll_mvParentRestLog {temporal : Bytes 8}
    (answer : mvParentRest s temporal name ext size c = some s') :
    s.kernel.disk.writeAll (mvParentRestLog s name ext size c) = s'.kernel.disk := by
  simp only [mvParentRest, Option.bind_eq_bind, Option.bind_eq_some_iff] at answer
  obtain ⟨⟨code, s₁⟩, up, ⟨code', s₂⟩, back, result⟩ := answer
  obtain rfl := Option.some.inj result
  rw [mvParentRestLog, up, commandCallCd_kernel back, ← commandCallCd_kernel up]
  exact writeAll_insertLog

theorem writeAll_mvParentLog (answer : mvParent s name ext selfLocation = some s') :
    s.kernel.disk.writeAll (mvParentLog s name ext selfLocation) = s'.kernel.disk := by
  unfold mvParent at answer
  simp only at answer
  split at answer
  · rename_i missing
    unfold mvParentLog
    simp only [missing]
    exact writeAll_mvParentRestLog answer
  · rename_i n found
    unfold mvParentLog
    simp only [found]
    exact writeAll_mvParentRestLog answer

theorem writeAll_mvFolderStepLog (acc : Kernel × FAT32DirectoryTable) :
    acc.1.disk.writeAll (mvFolderStepLog c name ext newPath acc m) =
      (mvFolderStep c name ext newPath acc m).1.disk := by
  unfold mvFolderStepLog mvFolderStep
  simp only
  split
  · cases findEntry acc.2 name ext with
    | none => rfl
    | some n =>
      simp only
      rw [Disk.writeAll_append, writeAll_insertLog]
      rfl
  · rfl

/-- Induction on the slots still to be visited. -/
theorem writeAll_mvFolderLog : s.kernel.disk.writeAll (mvFolderLog s name ext newPath) =
    (mvFolder s name ext newPath).kernel.disk := by
  unfold mvFolderLog mvFolder
  simp only
  generalize readTable s.kernel s.currentDirectoryCluster = table
  suffices all : ∀ (l : List (Fin 64)) (log : List ClusterWrite) (acc : Kernel × FAT32DirectoryTable),
      s.kernel.disk.writeAll log = acc.1.disk →
      s.kernel.disk.writeAll
        (l.foldl (mvFolderLogStep s.currentDirectoryCluster name ext newPath) (log, acc)).1 =
        (l.foldl (mvFolderStep s.currentDirectoryCluster name ext newPath) acc).1.disk from
    all _ [] (s.kernel, table) rfl
  intro l
  induction l with
  | nil => exact fun _ _ stored => stored
  | cons m l ih =>
    intro log acc stored
    rw [List.foldl_cons, List.foldl_cons]
    refine ih _ _ ?_
    rw [Disk.writeAll_append, stored]
    exact writeAll_mvFolderStepLog acc

theorem writeAll_mvRenameLog : s.kernel.disk.writeAll (mvRenameLog s name ext newName newExt) =
    (mvRename s name ext newName newExt).kernel.disk := by
  unfold mvRenameLog mvRename
  cases found : findLive (readTable s.kernel s.currentDirectoryCluster) name ext with
  | none =>
    simp only [found]
    rfl
  | some m =>
    simp only [found]
    rfl

/-- Any `mv` that comes to an end has stored these clusters and no others. -/
theorem writeAll_mvLog (answer : commandCallMv s path selfLocation = some s') :
    s.kernel.disk.writeAll (mvLog s path selfLocation) = s'.kernel.disk := by
  simp only [commandCallMv, Option.bind_eq_bind, Option.bind_eq_some_iff] at answer
  obtain ⟨⟨name, ext, isFile, i⟩, source, target, goal, answer⟩ := answer
  simp only [mvLog, source, goal]
  cases target with
  | rename newName newExt =>
    simp only [Option.some.injEq] at answer
    rw [← answer]
    exact writeAll_mvRenameLog
  | parent => exact writeAll_mvParentLog answer
  | folder newPath =>
    simp only [Option.some.injEq] at answer
    rw [← answer]
    exact writeAll_mvFolderLog

/-! ## What is reached by names -/

/-- The directory or the data at cluster `x` can be reached by names. -/
def Reachable (d : Disk) (x : Nat) : Prop := ∃ path, d.volume.At path x

theorem reachable_iff :
    Reachable d x ↔ x = rootClusterNumber ∨ ∃ q i, d.volume.Slot q i ∧ (d.table q i).cluster = x := by
  constructor
  · rintro ⟨path, leads⟩
    cases leads with
    | here => exact .inl rfl
    | enter _ step =>
      obtain ⟨i, slot, _, start⟩ := step
      exact .inr ⟨_, i, slot, start⟩
  · rintro (rfl | ⟨q, i, slot, rfl⟩)
    · exact ⟨[], .here⟩
    · obtain ⟨path, leads⟩ := slot.directory.exists_at
      exact ⟨_, .enter leads slot.entry_name⟩

/-- Every entry is listed somewhere. -/
theorem Reachable.forth (reachable : Reachable d x) (forth : ∀ q i, d.volume.Slot q i →
    ∃ r j, d'.volume.Slot r j ∧ (d'.table r j).cluster = (d.table q i).cluster) : Reachable d' x := by
  rcases reachable_iff.mp reachable with rfl | ⟨q, i, slot, rfl⟩
  · exact ⟨[], .here⟩
  · obtain ⟨r, j, slot', start⟩ := forth q i slot
    exact reachable_iff.mpr (.inr ⟨r, j, slot', start⟩)

/-- Entries that stay in their slots are still listed. -/
theorem Reachable.of_stays (reachable : Reachable d x) (stays : ∀ q i, d.volume.Slot q i →
      (d'.table q i).Live ∧ (d'.table q i).filesize = (d.table q i).filesize ∧
        (d'.table q i).cluster = (d.table q i).cluster) : Reachable d' x := by
  have directory {q : Nat} (old : d.volume.Directory q) : d'.volume.Directory q := by
    induction old with
    | root => exact .root
    | @child q i parent entry live folder ih =>
      obtain ⟨live', size, start⟩ := stays q i ⟨parent, entry, live⟩
      rw [Disk.volume_table, ← start]
      exact .child ih entry live' (size.trans folder)
  refine reachable.forth fun q i slot => ?_
  obtain ⟨live, _, start⟩ := stays q i slot
  exact ⟨q, i, ⟨directory slot.directory, slot.entry, live⟩, start⟩

section Cleared

variable (wellFormed : d.WellFormed) (slot : d.volume.Slot p m) (leads : d.volume.At src p)

theorem slot_of_cleared (cleared : (clearedDisk d p m).volume.Slot q i) :
    d.volume.Slot q i ∧ (q ≠ p ∨ i ≠ m) ∧ (clearedDisk d p m).table q i = d.table q i := by
  have elsewhere {q : Nat} {i : Fin 64} (live : ((clearedDisk d p m).table q i).Live) : q ≠ p ∨ i ≠ m := by
    by_contra both
    obtain ⟨rfl, rfl⟩ : q = p ∧ i = m := by simpa using both
    rw [clearedDisk_table, Function.update_self] at live
    exact cleared_not_live _ live
  have directory {q : Nat} (new : (clearedDisk d p m).volume.Directory q) : d.volume.Directory q := by
    induction new with
    | root => exact .root
    | @child q i parent entry live folder ih =>
      have same : (clearedDisk d p m).volume.table q i = d.table q i := clearedDisk_slot (elsewhere live)
      rw [same] at live folder ⊢
      exact .child ih entry live folder
  have other := elsewhere cleared.live
  have same : (clearedDisk d p m).volume.table q i = d.table q i := clearedDisk_slot other
  have live := cleared.live
  rw [same] at live
  exact ⟨⟨directory cleared.directory, cleared.entry, live⟩, other, same⟩

include wellFormed slot leads

/-- The paths that pass through the entry are gone. -/
theorem cleared_at_iff {path : Path} :
    (clearedDisk d p m).volume.At path x ↔
      d.volume.At path x ∧ ¬ src ++ [(d.table p m).entryName] <+: path := by
  have tree := wellFormed.volume.entryTree
  constructor
  · intro leads'
    induction leads' with
    | here => exact ⟨.here, by simp⟩
    | @enter above q x k _ step ih =>
      obtain ⟨old, outside⟩ := ih
      obtain ⟨i, slot', rfl, rfl⟩ := step
      obtain ⟨oldSlot, other, same⟩ := slot_of_cleared slot'
      rw [Disk.volume_table, same]
      refine ⟨.enter old oldSlot.entry_name, ?_⟩
      rw [Paths.prefix_concat ?_]
      · exact outside
      · intro through
        obtain ⟨rfl, last⟩ := List.append_inj' through rfl
        obtain rfl := old.unique tree leads
        obtain ⟨sameName, sameExt⟩ := Prod.mk.inj (List.singleton_injective last)
        obtain rfl := wellFormed.volume.unique oldSlot.directory oldSlot.live slot.live sameName sameExt
        simp at other
  · rintro ⟨old, outside⟩
    suffices both : (clearedDisk d p m).volume.At path x ∧
        (d.volume.Directory x → (clearedDisk d p m).volume.Directory x) from both.1
    induction old with
    | here => exact ⟨.here, fun _ => .root⟩
    | @enter above q x k old step ih =>
      obtain ⟨leads', directory⟩ := ih fun inside => outside (inside.trans (List.prefix_append _ _))
      obtain ⟨i, oldSlot, rfl, rfl⟩ := step
      have other : q ≠ p ∨ i ≠ m := by
        by_contra both
        obtain ⟨rfl, rfl⟩ : q = p ∧ i = m := by simpa using both
        obtain rfl := old.path_unique tree leads
        exact outside (List.prefix_refl _)
      have same : (clearedDisk d p m).volume.table q i = d.table q i := clearedDisk_slot other
      have newSlot : (clearedDisk d p m).volume.Slot q i :=
        ⟨directory oldSlot.directory, oldSlot.entry, same ▸ oldSlot.live⟩
      refine ⟨?_, fun isDirectory => ?_⟩
      · rw [Disk.volume_table, ← same]
        exact .enter leads' newSlot.entry_name
      · obtain ⟨l, chain, _⟩ := wellFormed.sound.volume.chain oldSlot
        have edge := wellFormed.sound.volume.slot_of_directory_mem oldSlot chain chain.head_mem isDirectory
        rw [Disk.volume_table, ← same]
        exact .child newSlot.directory newSlot.entry newSlot.live (same ▸ edge.folder)

theorem cleared_reachable_iff (reachable : Reachable d x) :
    Reachable (clearedDisk d p m) x ↔ ¬ ∃ below, d.volume.At (src ++ [(d.table p m).entryName] ++ below) x := by
  have tree := wellFormed.volume.entryTree
  constructor
  · rintro ⟨path, leads'⟩ ⟨below, inside⟩
    obtain ⟨old, outside⟩ := (cleared_at_iff wellFormed slot leads).mp leads'
    obtain rfl := old.path_unique tree inside
    exact outside (List.prefix_append _ _)
  · intro outside
    obtain ⟨path, old⟩ := reachable
    refine ⟨path, (cleared_at_iff wellFormed slot leads).mpr ⟨old, ?_⟩⟩
    rintro ⟨below, rfl⟩
    exact outside ⟨below, old⟩

end Cleared

/-! ## Behind each write -/

theorem writeCluster_tableWrite (inside : c < 2 ^ 26) : d.writeCluster (tableWrite table c) = d.setTable c table :=
  Disk.writeCluster_eq inside

/-- All that is reached by names still is, and so are all clusters of files. -/
structure Whole (d d' : Disk) : Prop where
  fat : d'.fat = d.fat
  reachable : ∀ {x}, Reachable d x → Reachable d' x

theorem Whole.refl (d : Disk) : Whole d d := ⟨rfl, id⟩

section Rename

variable (wellFormed : d.WellFormed) (slot : d.volume.Slot p m)
include wellFormed slot

theorem whole_half_renamed :
    Whole d (d.setTable p (Function.update (d.table p) m (renamed (d.table p m) newName newExt))) := by
  have range := wellFormed.volume.directory_range slot.directory
  refine ⟨Disk.fat_setTable (by omega), fun reachable => reachable.of_stays fun q i old => ?_⟩
  by_cases here : q = p
  · subst here
    rw [Disk.table_setTable]
    by_cases changed : i = m
    · subst changed
      rw [Function.update_self]
      exact ⟨old.live, rfl, rfl⟩
    · rw [Function.update_of_ne changed]
      exact ⟨old.live, rfl, rfl⟩
  · rw [Disk.table_setTable_of_ne here]
    exact ⟨old.live, rfl, rfl⟩

theorem whole_renamed : Whole d (renamedDisk d p m newName newExt) := by
  refine ⟨(rearranged_renamed newName newExt wellFormed slot).fat, fun reachable => reachable.of_stays fun q i old => ?_⟩
  obtain ⟨kept, live⟩ := renamedDisk_kept newName newExt wellFormed slot q i
  exact ⟨live.mpr old.live, kept.filesize, kept.cluster⟩

end Rename

/-- A slot that was free is filled. -/
theorem whole_inserted (wellFormed : d.WellFormed) (target : d.volume.Directory t) :
    Whole d (insertedDisk d t name ext size c) := by
  have range := wellFormed.volume.directory_range target
  refine ⟨insertedDisk_fat (by omega), fun reachable => reachable.of_stays fun q i old => ?_⟩
  have same : (insertedDisk d t name ext size c).table q i = d.table q i := by
    refine insertedDisk_slot fun o free => ?_
    by_contra both
    obtain ⟨rfl, rfl⟩ : q = t ∧ i = o := by simpa using both
    exact (findFree_some.mp free).1.2 old.live
  rw [same]
  exact ⟨old.live, rfl, rfl⟩

theorem whole_moved (orderly : Orderly d) (slot : d.volume.Slot p m) (target : d.volume.Directory t)
    (free : findFree ((clearedDisk d p m).table t) = some o) (apart : Apart d.volume p m t) :
    Whole d (movedDisk d p m t) := by
  have rearranged := rearranged_moved orderly slot target free apart
  refine ⟨rearranged.fat, fun reachable => reachable.forth fun q i old => ?_⟩
  obtain ⟨r, j, new, kept⟩ := rearranged.forth old
  exact ⟨r, j, new, kept.cluster⟩

/-! ## The writes of a line -/

theorem mvFolderStepLog_other {acc : Kernel × FAT32DirectoryTable} (other : ¬ Matches acc.2 newPath i) :
    mvFolderStepLog c name ext newPath acc i = [] := by
  unfold mvFolderStepLog
  apply if_neg
  rintro ⟨entry, live, isName, isExt⟩
  exact other ⟨entry, live, memcmp_eq_zero_iff.mp isName, memcmp_eq_zero_iff.mp isExt⟩

theorem mvFolderLogStep_other (acc : List ClusterWrite × Kernel × FAT32DirectoryTable)
    (other : ¬ Matches acc.2.2 newPath i) : mvFolderLogStep c name ext newPath acc i = acc := by
  rw [mvFolderLogStep, mvFolderStepLog_other other, mvFolderStep_other acc.2 other, List.append_nil]

theorem mvFolderLogStep_missing (acc : List ClusterWrite × Kernel × FAT32DirectoryTable)
    (missing : findEntry acc.2.2 name ext = none) : mvFolderLogStep c name ext newPath acc i = acc := by
  have nothing : mvFolderStepLog c name ext newPath acc.2 i = [] := by
    unfold mvFolderStepLog
    simp only [missing, ite_self]
  rw [mvFolderLogStep, nothing, mvFolderStep_missing acc.2 missing, List.append_nil]

theorem mvFolderStepLog_found (acc : Kernel × FAT32DirectoryTable) (is : Matches acc.2 newPath i)
    (found : findEntry acc.2 name ext = some m) :
    mvFolderStepLog c name ext newPath acc i =
      insertLog (readTable acc.1 (acc.2 i).cluster) (acc.2 i).cluster name ext (acc.2 m).filesize (acc.2 m).cluster ++
        [tableWrite (Function.update acc.2 m (cleared (acc.2 m))) c] := by
  obtain ⟨k, table⟩ := acc
  obtain ⟨entry, live, isName, isExt⟩ := is
  unfold mvFolderStepLog
  simp only
  rw [if_pos ⟨entry, live, memcmp_eq_zero_iff.mpr isName, memcmp_eq_zero_iff.mpr isExt⟩]
  simp only [found]

/-- The slot that was cleared is not in use, and the others are as they were. -/
theorem matches_of_cleared (hit : Matches (Function.update table m (cleared (table m))) newPath i) :
    Matches table newPath i := by
  by_cases here : i = m
  · have live := hit.2.1
    rw [here, Function.update_self] at live
    exact absurd live (cleared_not_live _)
  · simpa only [Matches, Function.update_of_ne here] using hit

theorem mvFolderLog_found (inside : s.currentDirectoryCluster < 2 ^ 26)
    (bound : (s.kernel.disk.table s.currentDirectoryCluster i).cluster < 2 ^ 26)
    (is : Matches (s.kernel.disk.table s.currentDirectoryCluster) newPath i)
    (only : ∀ j, Matches (s.kernel.disk.table s.currentDirectoryCluster) newPath j → j = i)
    (found : findEntry (s.kernel.disk.table s.currentDirectoryCluster) name ext = some m) :
    mvFolderLog s name ext newPath =
      insertLog (s.kernel.disk.table (s.kernel.disk.table s.currentDirectoryCluster i).cluster)
        (s.kernel.disk.table s.currentDirectoryCluster i).cluster name ext
        (s.kernel.disk.table s.currentDirectoryCluster m).filesize
        (s.kernel.disk.table s.currentDirectoryCluster m).cluster ++
      [tableWrite (Function.update (s.kernel.disk.table s.currentDirectoryCluster) m
        (cleared (s.kernel.disk.table s.currentDirectoryCluster m))) s.currentDirectoryCluster] := by
  rw [mvFolderLog, readTable_eq inside]
  generalize s.kernel.disk.table s.currentDirectoryCluster = table at *
  -- the loop passes every slot once, and slot `i` is the only match
  have once : (List.finRange 64).foldl (mvFolderLogStep s.currentDirectoryCluster name ext newPath)
      ([], s.kernel, table) = mvFolderLogStep s.currentDirectoryCluster name ext newPath ([], s.kernel, table) i := by
    refine Folds.foldl_once (List.nodup_finRange 64) (List.mem_finRange i)
      (fun j other => mvFolderLogStep_other ([], s.kernel, table) fun hit => other (only j hit)) fun j other => ?_
    refine mvFolderLogStep_other _ fun hit => ?_
    simp only [mvFolderLogStep] at hit
    rw [mvFolderStep_found (s.kernel, table) is found] at hit
    exact other (only j (matches_of_cleared hit))
  rw [once]
  simp only [mvFolderLogStep]
  rw [mvFolderStepLog_found (s.kernel, table) is found, List.nil_append, readTable_eq bound]

theorem mvFolderLog_missing (inside : s.currentDirectoryCluster < 2 ^ 26)
    (missing : (∀ j, ¬ Matches (s.kernel.disk.table s.currentDirectoryCluster) newPath j) ∨
      findEntry (s.kernel.disk.table s.currentDirectoryCluster) name ext = none) :
    mvFolderLog s name ext newPath = [] := by
  rw [mvFolderLog, readTable_eq inside]
  generalize s.kernel.disk.table s.currentDirectoryCluster = table at *
  rcases missing with noFolder | noEntry
  · rw [Folds.foldl_idle fun j _ => mvFolderLogStep_other ([], s.kernel, table) (noFolder j)]
  · rw [Folds.foldl_idle fun _ _ => mvFolderLogStep_missing ([], s.kernel, table) noEntry]

/-! ## Stops -/

section Stop

variable (mirrors : Mirrors s a)
include mirrors

theorem Mirrors.stopped_rename (n : Nat) :
    Whole s.kernel.disk (s.kernel.disk.writeAll ((mvRenameLog s name ext newName newExt).take n)) := by
  have wellFormed := mirrors.wellFormed
  obtain ⟨l, standing, _⟩ := mirrors.tracking
  unfold mvRenameLog
  rw [mirrors.readTable_eq]
  simp only
  cases found : findLive (s.kernel.disk.table s.currentDirectoryCluster) name ext with
  | none =>
    rw [List.take_nil]
    exact .refl _
  | some m =>
    obtain ⟨slot, _⟩ := mirrors.slot_of_found found
    have bound := wellFormed.volume.slot_range slot
    rw [Disk.volume_table] at bound
    simp only
    rw [Shell.readTable_eq (show (s.kernel.disk.table s.currentDirectoryCluster m).cluster < 2 ^ 26 by omega)]
    match n with
    | 0 => exact .refl _
    | 1 =>
      rw [List.take_one, List.head?_cons, Option.toList_some, Disk.writeAll_cons, Disk.writeAll_nil,
        writeCluster_tableWrite standing.directory_lt]
      exact whole_half_renamed wellFormed slot
    | n + 2 =>
      rw [List.take_of_length_le (by simp), Disk.writeAll_cons, Disk.writeAll_cons, Disk.writeAll_nil,
        writeCluster_tableWrite standing.directory_lt, writeCluster_tableWrite (by omega)]
      exact whole_renamed wellFormed slot

theorem Mirrors.stopped_folder (sensible : Mirrors.IntoSensible s name ext newPath) (n : Nat) :
    Whole s.kernel.disk (s.kernel.disk.writeAll ((mvFolderLog s name ext newPath).take n)) := by
  have wellFormed := mirrors.wellFormed
  have sound := wellFormed.volume.toSound
  obtain ⟨l, standing, _⟩ := mirrors.tracking
  have inside := standing.directory_lt
  by_cases folder : ∃ i, Matches (s.kernel.disk.table s.currentDirectoryCluster) newPath i
  · obtain ⟨i, is⟩ := folder
    cases found : findEntry (s.kernel.disk.table s.currentDirectoryCluster) name ext with
    | none =>
      rw [mvFolderLog_missing inside (.inr found), List.take_nil]
      exact .refl _
    | some m =>
      obtain ⟨live, size, other, hasFree, lacks⟩ := sensible i m is found
      have target : s.kernel.disk.volume.Slot s.currentDirectoryCluster i := ⟨mirrors.directory, is.1, is.2.1⟩
      obtain ⟨slot, _⟩ := mirrors.slot_of_entry found live
      have edge : s.kernel.disk.volume.Edge s.currentDirectoryCluster i
          (s.kernel.disk.table s.currentDirectoryCluster i).cluster := ⟨target, size, rfl⟩
      have bound := wellFormed.volume.slot_range target
      rw [Disk.volume_table] at bound
      have only : ∀ j, Matches (s.kernel.disk.table s.currentDirectoryCluster) newPath j → j = i := by
        rintro j ⟨_, used, hit, hit'⟩
        exact wellFormed.volume.unique mirrors.directory used is.2.1 (hit.trans is.2.2.1.symm) (hit'.trans is.2.2.2.symm)
      obtain ⟨o, free⟩ := hasFree_iff.mp hasFree
      have log := mvFolderLog_found inside (by omega) is only found
      match n with
      | 0 => exact .refl _
      | 1 =>
        have filled : (mvFolderLog s name ext newPath).take 1 =
            insertLog (s.kernel.disk.table (s.kernel.disk.table s.currentDirectoryCluster i).cluster)
              (s.kernel.disk.table s.currentDirectoryCluster i).cluster name ext
              (s.kernel.disk.table s.currentDirectoryCluster m).filesize
              (s.kernel.disk.table s.currentDirectoryCluster m).cluster := by
          rw [log]
          unfold insertLog
          simp only [free]
          rfl
        rw [filled, writeAll_insertLog, insertEntry_eq (by omega)]
        exact whole_inserted wellFormed edge.directory_child
      | n + 2 =>
        have all : (mvFolderLog s name ext newPath).take (n + 2) = mvFolderLog s name ext newPath := by
          rw [log]
          unfold insertLog
          simp only [free]
          exact List.take_of_length_le (by simp)
        rw [all, writeAll_mvFolderLog, mvFolder_disk wellFormed target is.2.2.1 is.2.2.2 found]
        have below : (s.kernel.disk.table s.currentDirectoryCluster i).cluster ≠ s.currentDirectoryCluster :=
          sound.slot_cluster_ne target
        rw [← clearedDisk_other (m := m) below] at free
        refine whole_moved mirrors.orderly slot edge.directory_child free (sound.apart_child slot edge fun same => ?_)
        exact other (sound.slot_unique slot target same).2
  · rw [mvFolderLog_missing inside (.inl (not_exists.mp folder)), List.take_nil]
    exact .refl _

section Up

variable (slot : s.kernel.disk.volume.Slot s.currentDirectoryCluster m)
  (found : findEntry (s.kernel.disk.table s.currentDirectoryCluster) name ext = some m)
  {code : UInt8} {cds : CurrentDirStack} (selfLocation : Nat)
  (goes : ∀ k, commandCallCd { s with kernel := k } (Memory.store (fun _ => 0) 0 (dotDot : Bytes 2)) =
    some (code, ⟨k, t, cds⟩))
  (target : s.kernel.disk.volume.Directory t)
include slot found goes target

/-- `mv` clears the entry, then it goes up and fills a free slot there. -/
theorem Mirrors.mvParentLog_up :
    mvParentLog s name ext selfLocation =
      tableWrite (Function.update (s.kernel.disk.table s.currentDirectoryCluster) m
        (cleared (s.kernel.disk.table s.currentDirectoryCluster m))) s.currentDirectoryCluster ::
      insertLog ((clearedDisk s.kernel.disk s.currentDirectoryCluster m).table t) t name ext
        (s.kernel.disk.table s.currentDirectoryCluster m).filesize
        (s.kernel.disk.table s.currentDirectoryCluster m).cluster := by
  have wellFormed := mirrors.wellFormed
  obtain ⟨l, standing, _⟩ := mirrors.tracking
  have range := wellFormed.volume.toSound.directory_range target
  -- the kernel behind the first write
  obtain ⟨k, cleared, first⟩ : ∃ k, k.disk = clearedDisk s.kernel.disk s.currentDirectoryCluster m ∧
      writeTable s.kernel (Function.update (s.kernel.disk.table s.currentDirectoryCluster) m
        (cleared (s.kernel.disk.table s.currentDirectoryCluster m))) s.currentDirectoryCluster = k := by
    rw [writeTable_eq standing.directory_lt]
    exact ⟨_, rfl, rfl⟩
  have self : (k.disk.table t 0).cluster = t := by
    rw [cleared]
    exact clearedDisk_self wellFormed slot target
  unfold mvParentLog
  simp only [mirrors.readTable_eq, found]
  rw [first, mvParentRestLog, goes k]
  simp only
  rw [Shell.readTable_eq (show t < 2 ^ 26 by omega), self, cleared]

/-- Behind the first write to the parent the entry is in no table. -/
theorem Mirrors.stopped_up (sameName : (s.kernel.disk.table s.currentDirectoryCluster m).entryName = (name, ext))
    (free : findFree ((clearedDisk s.kernel.disk s.currentDirectoryCluster m).table t) = some o)
    (apart : Apart s.kernel.disk.volume s.currentDirectoryCluster m t) (n : Nat) :
    if n = 1 then s.kernel.disk.writeAll ((mvParentLog s name ext selfLocation).take n) =
        clearedDisk s.kernel.disk s.currentDirectoryCluster m
      else Whole s.kernel.disk (s.kernel.disk.writeAll ((mvParentLog s name ext selfLocation).take n)) := by
  have range := mirrors.wellFormed.volume.toSound.directory_range target
  obtain ⟨l, standing, _⟩ := mirrors.tracking
  obtain ⟨isName, isExt⟩ := Prod.mk.inj sameName
  obtain ⟨k, cleared⟩ : ∃ k : Kernel, k.disk = clearedDisk s.kernel.disk s.currentDirectoryCluster m :=
    ⟨{ s.kernel with disk := _ }, rfl⟩
  have stored : s.kernel.disk.writeCluster (tableWrite (Function.update (s.kernel.disk.table s.currentDirectoryCluster) m
      (Shell.cleared (s.kernel.disk.table s.currentDirectoryCluster m))) s.currentDirectoryCluster) = k.disk := by
    rw [writeCluster_tableWrite standing.directory_lt, cleared]
    rfl
  rw [mirrors.mvParentLog_up slot found selfLocation goes target, ← cleared]
  match n with
  | 0 => exact .refl _
  | 1 =>
    rw [if_pos rfl, List.take_succ_cons, List.take_zero, Disk.writeAll_cons, Disk.writeAll_nil, stored]
  | n + 2 =>
    have all (table : FAT32DirectoryTable) (location : Nat) (name : Bytes 8) (ext : Bytes 3) (size : UInt32) (c : Nat) :
        (insertLog table location name ext size c).take (n + 1) = insertLog table location name ext size c := by
      unfold insertLog
      split
      · rfl
      · exact List.take_of_length_le (by simp)
    rw [if_neg (by omega), List.take_succ_cons, all, Disk.writeAll_cons, stored, writeAll_insertLog,
      insertEntry_eq (by omega), cleared]
    simp only
    rw [← isName, ← isExt]
    exact whole_moved mirrors.orderly slot target free apart

end Up

/-- Where `cd ..` leads, the root itself from the root, there is a free slot. -/
theorem Mirrors.up_target (fits : ∀ u i, s.kernel.disk.volume.Edge u i s.currentDirectoryCluster →
      HasFree (s.kernel.disk.table u)) (slot : s.kernel.disk.volume.Slot s.currentDirectoryCluster m) :
    ∃ t o code cds, (∀ k, commandCallCd { s with kernel := k }
        (Memory.store (fun _ => 0) 0 (dotDot : Bytes 2)) = some (code, ⟨k, t, cds⟩)) ∧
      s.kernel.disk.volume.Directory t ∧
      findFree ((clearedDisk s.kernel.disk s.currentDirectoryCluster m).table t) = some o ∧
      Apart s.kernel.disk.volume s.currentDirectoryCluster m t := by
  have sound := mirrors.wellFormed.volume.toSound
  by_cases root : s.currentDirectoryCluster = rootClusterNumber
  · obtain ⟨o, free⟩ := hasFree_iff.mp (Mirrors.hasFree_cleared (d := s.kernel.disk) slot.entry)
    exact ⟨_, o, 1, _, fun k => leave_root lineUpward root, mirrors.directory, free, sound.apart_self slot⟩
  · obtain ⟨u, i, cds, edge, goes⟩ := mirrors.goes_up root
    obtain ⟨o, free⟩ := hasFree_iff.mp (fits u i edge)
    rw [← clearedDisk_other (m := m) (Ne.symm (sound.child_ne edge))] at free
    exact ⟨u, o, 0, cds, goes, edge.directory, free, sound.apart_parent slot edge⟩

theorem Mirrors.stopped_parent (sensible : Mirrors.UpSensible s name ext) (selfLocation n : Nat) :
    (s.kernel.disk.writeAll ((mvParentLog s name ext selfLocation).take n)).fat = s.kernel.disk.fat ∧
      ∀ x, Reachable s.kernel.disk x →
        (Reachable (s.kernel.disk.writeAll ((mvParentLog s name ext selfLocation).take n)) x ↔
          ¬ (n = 1 ∧ ∃ below, s.kernel.disk.volume.At (a.cwd ++ [(name, ext)] ++ below) x)) := by
  obtain ⟨m, found, live, fits⟩ := sensible
  obtain ⟨slot, sameName⟩ := mirrors.slot_of_entry found live
  have range := mirrors.wellFormed.volume.toSound.directory_range mirrors.directory
  obtain ⟨t, o, code, cds, goes, target, free, apart⟩ := mirrors.up_target (fun u i edge => (fits u i edge).1) slot
  have stop := mirrors.stopped_up slot found selfLocation goes target sameName free apart n
  by_cases first : n = 1
  · rw [if_pos first] at stop
    rw [stop]
    refine ⟨Disk.fat_setTable (by omega), fun x reachable => ?_⟩
    rw [cleared_reachable_iff mirrors.wellFormed slot mirrors.leads reachable, sameName]
    simp only [first, true_and]
  · rw [if_neg first] at stop
    exact ⟨stop.fat, fun x reachable => iff_of_true (stop.reachable reachable) fun both => first both.1⟩

end Stop

theorem upD_parses :
    parseMvSource (lineOf (MvLine.parent nameD).text) =
        some (nameD.name, nameD.extension, decide (nameD.ext ≠ []), nameD.typed.length) ∧
      parseMvTarget (lineOf (MvLine.parent nameD).text) (decide (nameD.ext ≠ [])) nameD.typed.length = some .parent := by
  obtain ⟨source, target⟩ := spells_source nameD [slash, dot, dot]
  exact ⟨parseMvSource_typed source, parseMvTarget_parent target⟩

/-- The line `mv d /..` where a new file system has the folder `d`. -/
theorem sensible_upD :
    ∃ k a, Mirrors (startShell k) a ∧ a.cwd = [] ∧
      Mirrors.MvSensible (startShell k) (lineOf (MvLine.parent nameD).text) ∧
      (startShell k).kernel.disk.volume.At [(nameD.name, nameD.extension)] 3 := by
  obtain ⟨k, _, mirrors, enters⟩ := run_lineMkdirD
  have started : Started (startShell k) := started_startShell mirrors.wellFormed
  have wellFormed := started.disk
  have isName : (k.disk.table rootClusterNumber 1).name = nameD.name := by
    rw [show (k.disk.table rootClusterNumber 1).name = text ['d'] from enters.name.trans lineD_bytes]
    decide
  have isExt : (k.disk.table rootClusterNumber 1).ext = nameD.extension := enters.ext.trans (by decide)
  have start : (k.disk.table rootClusterNumber 1).cluster = 3 := enters.cluster
  have found : findEntry (k.disk.table rootClusterNumber) nameD.name nameD.extension = some 1 :=
    findEntry_line (s := startShell k) wellFormed enters.toSlot isName isExt
  obtain ⟨parsed, goal⟩ := upD_parses
  have up : Mirrors.UpSensible (startShell k) nameD.name nameD.extension :=
    ⟨1, found, enters.live, fun u i edge => absurd edge wellFormed.volume.rootless⟩
  have there : (startShell k).kernel.disk.volume.At ([] ++ [(nameD.name, nameD.extension)]) 3 := by
    exact .enter .here ⟨1, enters.toSlot, Prod.ext isName isExt, start⟩
  exact ⟨k, _, mirrors, rfl, ⟨_, _, _, _, _, parsed, goal, up⟩, there⟩

/-- A sensible `mv` that was stopped behind any of its cluster writes has left the allocation table alone.  What was
    reached by names still is, but for the entry and all below it, between the two writes of a move to the parent. -/
theorem interrupted_mv_reaches_iff (mirrors : Mirrors s a) (sensible : Mirrors.MvSensible s path) {isFile : Bool}
    {j : Nat} {target : MvTarget} (source : parseMvSource path = some (name, ext, isFile, j))
    (goal : parseMvTarget path isFile j = some target) (selfLocation n : Nat) :
    (s.kernel.disk.writeAll ((mvLog s path selfLocation).take n)).fat = s.kernel.disk.fat ∧
      ∀ x, Reachable s.kernel.disk x →
        (Reachable (s.kernel.disk.writeAll ((mvLog s path selfLocation).take n)) x ↔
          ¬ (target = .parent ∧ n = 1 ∧ ∃ below, s.kernel.disk.volume.At (a.cwd ++ [(name, ext)] ++ below) x)) := by
  obtain ⟨name', ext', isFile', j', target', source', goal', fits⟩ := sensible
  obtain ⟨rfl, rfl, rfl, rfl⟩ : name' = name ∧ ext' = ext ∧ isFile' = isFile ∧ j' = j := by
    simpa using source'.symm.trans source
  obtain rfl : target' = target := Option.some.inj (goal'.symm.trans goal)
  simp only [mvLog, source, goal]
  cases target' with
  | rename newName newExt =>
    have whole : Whole s.kernel.disk
        (s.kernel.disk.writeAll ((mvRenameLog s name' ext' newName newExt).take n)) := mirrors.stopped_rename n
    exact ⟨whole.fat, fun x reachable => iff_of_true (whole.reachable reachable) (by simp)⟩
  | folder newPath =>
    have whole := mirrors.stopped_folder fits n
    exact ⟨whole.fat, fun x reachable => iff_of_true (whole.reachable reachable) (by simp)⟩
  | parent =>
    simp only [true_and]
    exact mirrors.stopped_parent fits selfLocation n

/-- `mv d /..` in the root: behind its first write the folder `d` is lost. -/
theorem interrupted_mv_reaches_iff_parent :
    ∃ s : ShellState, Reachable s.kernel.disk 3 ∧
      ¬ Reachable (s.kernel.disk.writeAll ((mvLog s (lineOf (MvLine.parent nameD).text) 0).take 1)) 3 := by
  obtain ⟨k, a, mirrors, root, sensible, there⟩ := sensible_upD
  obtain ⟨parsed, goal⟩ := upD_parses
  refine ⟨startShell k, ⟨_, there⟩, ?_⟩
  rw [(interrupted_mv_reaches_iff mirrors sensible parsed goal 0 1).2 3 ⟨_, there⟩, not_not]
  refine ⟨rfl, rfl, [], ?_⟩
  rw [root, List.nil_append, List.append_nil]
  exact there

end Shell

end Brother420
