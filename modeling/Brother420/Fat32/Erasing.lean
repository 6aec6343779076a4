import Brother420.Fat32.FolderRemoval
import Brother420.Fat32.Names
import Brother420.Fat32.Refusals

/-! # What a delete takes away

The searches of `delete` test no attribute, so they also stop at the self entry
and, for a request of zeros, at a free slot.  From a free slot the file path
follows cluster 0, whose allocation entry leads out of `driver_state`.
-/

namespace Brother420.Fat32

open Packed (Bytes Layout)
open Linked (Chain)
open Kernel Volume

variable {k k' : Kernel} {request : FAT32DriverRequest} {table : FAT32DirectoryTable} {name : Bytes 8} {ext : Bytes 3}
  {p c : Nat} {i j m : Fin 64} {l : List Nat}

/-! ## Free slots that match -/

/-- No free slot lies in front of the slots in use with this name and extension.  A free slot is zeros, so
    only a request of zeros is concerned. -/
def Unshadowed (table : FAT32DirectoryTable) (name : Bytes 8) (ext : Bytes 3) : Prop :=
  name = (fun _ => 0) → ext = (fun _ => 0) → ∀ j, ¬ (table j).Live → ∃ i, i < j ∧ (table i).Named name ext

theorem unshadowed_iff (free : ∀ j, ¬ (table j).Live → table j = .zero) :
    Unshadowed table name ext ↔ ∀ j, findNameExt table name ext = some j → (table j).Live := by
  constructor
  · intro unshadowed j found
    obtain ⟨⟨sameName, sameExt⟩, first⟩ := findNameExt_some.mp found
    by_contra vacant
    have empty := free j vacant
    rw [empty] at sameName sameExt
    obtain ⟨i, before, named⟩ := unshadowed sameName.symm sameExt.symm j vacant
    exact first i before named.name named.ext
  · rintro live rfl rfl j vacant
    have empty := free j vacant
    cases found : findNameExt table (fun _ => 0) (fun _ => 0) with
    | none => exact absurd (congrArg (·.ext) empty) (findNameExt_none.mp found j (congrArg (·.name) empty))
    | some i =>
      obtain ⟨⟨sameName, sameExt⟩, first⟩ := findNameExt_some.mp found
      refine ⟨i, ?_, live i found, sameName, sameExt⟩
      -- slot `j` matches too, so the first match is not behind it
      rcases lt_trichotomy i j with before | rfl | behind
      · exact before
      · exact absurd (live i found) vacant
      · exact absurd (congrArg (·.ext) empty) (first j behind (congrArg (·.name) empty))

/-- On a sound disk the search then finds no free slot. -/
theorem unshadowed_disk_iff (sound : k.disk.Sound) (directory : k.disk.volume.Directory p) :
    Unshadowed (k.disk.table p) name ext ↔
      ∀ j, findNameExt (k.disk.table p) name ext = some j → (k.disk.table p j).Live :=
  unshadowed_iff fun _ => sound.volume.free directory

/-- Names are unique, so the first match is the entry itself. -/
theorem findNameExt_named_iff (wellFormed : k.disk.WellFormed) (directory : k.disk.volume.Directory p)
    (named : (k.disk.table p m).Named name ext) :
    findNameExt (k.disk.table p) name ext = some m ↔ Unshadowed (k.disk.table p) name ext := by
  rw [unshadowed_disk_iff wellFormed.sound directory]
  constructor
  · intro found j found'
    obtain rfl := Option.some.inj (found.symm.trans found')
    exact named.live
  · intro live
    cases found : findNameExt (k.disk.table p) name ext with
    | none => exact absurd named.ext (findNameExt_none.mp found m named.name)
    | some j =>
      obtain ⟨sameName, sameExt⟩ := (findNameExt_some.mp found).1
      have same := wellFormed.volume.unique directory (live j found) named.live (sameName.trans named.name.symm)
        (sameExt.trans named.ext.symm)
      rw [same]

/-- For the name of a slot in use, the free slots in front of that slot are those that count. -/
theorem unshadowed_named_iff (wellFormed : k.disk.WellFormed) (directory : k.disk.volume.Directory p)
    (named : (k.disk.table p m).Named name ext) :
    Unshadowed (k.disk.table p) name ext ↔
      (name = (fun _ => 0) → ext = (fun _ => 0) → ∀ j, j < m → (k.disk.table p j).Live) := by
  constructor
  · intro unshadowed zeroName zeroExt j before
    by_contra vacant
    obtain ⟨i, earlier, named'⟩ := unshadowed zeroName zeroExt j vacant
    have same : i = m := wellFormed.volume.unique directory named'.live named.live
      (named'.name.trans named.name.symm) (named'.ext.trans named.ext.symm)
    omega
  · intro full zeroName zeroExt j vacant
    refine ⟨m, ?_, named⟩
    by_contra behind
    rcases eq_or_lt_of_le (not_lt.mp behind) with rfl | before
    · exact vacant named.live
    · exact vacant (full zeroName zeroExt j before)

/-! ## A chain that starts in a free slot -/

/-- Behind the buffers of `driver_state` nothing is stored. -/
theorem setClusterMap_behind {x : Nat} (behind : 1536 ≤ x) (value : UInt32) : k.setClusterMap x value = none := by
  have notFat : ¬ x < 512 := by omega
  have notTable : ¬ x < 1024 := by omega
  have notBuffer : ¬ x < 1536 := by omega
  simp only [setClusterMap, notFat, notTable, notBuffer, ↓reduceDIte]

/-- The entry of cluster 0 is no end of a chain, and the cluster that it names is far behind the table. -/
theorem releaseChain_boot {fuel : Nat} (reserved : k.clusterMap 0 = cluster0Value) :
    releaseChain (fuel + 2) k 0 = none := by
  have continues : cluster0Value ≠ fat32FatEndOfFile := by decide
  have past (k : Kernel) : releaseChain (fuel + 1) k cluster0Value.toNat = none := by
    rw [releaseChain]
    split
    · exact setClusterMap_behind (by decide) 0
    · simp only [setClusterMap_behind (show 1536 ≤ cluster0Value.toNat % 2 ^ 16 by decide), Option.bind_eq_bind,
        Option.bind_none]
  rw [releaseChain, reserved, if_neg continues]
  simp only [Nat.zero_mod, setClusterMap_eq (show 0 < 512 by decide), Option.bind_eq_bind, Option.bind_some]
  exact past _

/-- The file path on a free slot leaves `driver_state`. -/
theorem delete_vacant (sound : k.disk.Sound) (directory : k.disk.volume.Directory p)
    (parent : request.parentClusterNumber.toNat = p) (size : request.bufferSize ≠ 0)
    (found : findNameExt (k.disk.table p) request.name request.ext = some j)
    (vacant : ¬ (k.disk.table p j).Live) : delete k request = none := by
  obtain ⟨_, inside⟩ := sound.volume.directory_range directory
  have empty : k.disk.table p j = .zero := sound.volume.free directory vacant
  have start : FAT32DirectoryEntry.zero.cluster = 0 := by decide
  have reserved : k.disk.fat 0 = cluster0Value := sound.volume.reserved0
  have leaves (table : FAT32DirectoryTable) :
      releaseChain (2 ^ 16) { k with driverState := ⟨k.disk.fatTable, table, k.driverState.clusterBuf⟩ } 0 = none :=
    @releaseChain_boot _ 65534 ((clusterMap_eq (by decide)).trans reserved)
  simp only [delete, size, ↓reduceIte, parent]
  unfold deleteFile
  rw [load_eq (by omega)]
  simp only [found, empty, start, leaves, Option.bind_eq_bind, Option.bind_none]

/-! ## Files -/

/-- The delete succeeds, frees the clusters of `l`, clears slot `m` of directory `p`, and changes nothing else. -/
structure FileErased (k : Kernel) (request : FAT32DriverRequest) (p : Nat) (m : Fin 64) (l : List Nat) (k' : Kernel) :
    Prop where
  answer : delete k request = some (0, k')
  fat : ∀ c, k'.disk.fat c = if c ∈ l then 0 else k.disk.fat c
  table : k'.disk.table p = Function.update (k.disk.table p) m .zero
  frame : ∀ c, c ≠ fatClusterNumber → c ≠ p → k'.disk.cluster c = k.disk.cluster c

/-- On a well-formed disk the delete of a file erases exactly that file, unless name and extension are zeros
    and a slot in front of it is free. -/
theorem file_erased_iff (wellFormed : k.disk.WellFormed) (slot : k.disk.volume.Slot p m)
    (chain : k.disk.volume.SlotChain p m l) (named : (k.disk.table p m).Named request.name request.ext)
    (parent : request.parentClusterNumber.toNat = p) (size : request.bufferSize ≠ 0) :
    (∃ k', FileErased k request p m l k') ↔
      (request.name = (fun _ => 0) → request.ext = (fun _ => 0) → ∀ j, j < m → (k.disk.table p j).Live) := by
  have sound := wellFormed.sound
  have inside := (sound.volume.directory_range slot.directory).2
  have range : ∀ c ∈ l, c < 512 := fun c member => (sound.volume.range slot chain member).2
  rw [← unshadowed_named_iff wellFormed slot.directory named]
  constructor
  · rintro ⟨k', erased⟩
    refine (unshadowed_disk_iff sound slot.directory).mpr fun j found => ?_
    by_contra vacant
    have answer := erased.answer
    rw [delete_vacant sound slot.directory parent size found vacant] at answer
    cases answer
  · intro unshadowed
    have found := (findNameExt_named_iff wellFormed slot.directory named).mpr unshadowed
    obtain ⟨k', m', answer, cached, disk, freed⟩ := delete_file parent inside size found chain range
    obtain ⟨deleted, stored⟩ := deleted_of_disk sound slot chain cached disk fun c outside => by
      rw [freed c, if_neg outside]
    exact ⟨k', answer, fun c => stored ▸ freed c, deleted.removed.tableParent, deleted.frame⟩

/-- The file `x.t` of one byte, alone on a new volume. -/
theorem file_erased_iff_first : ∃ k k', k.disk.WellFormed ∧ FileErased k fileX 2 1 [3] k' := by
  obtain ⟨k, run, written⟩ := run_first fileX (l := []) (by decide) (by decide) rfl rfl (by decide)
  obtain ⟨target, chain, _⟩ := first_file written (by decide) rfl
  have wellFormed := (run_regular run).wellFormed
  have named : (k.disk.table 2 1).Named fileX.name fileX.ext := ⟨target.live, target.name, target.ext⟩
  obtain ⟨k', erased⟩ := (file_erased_iff wellFormed target.toSlot chain named rfl (by decide)).mpr
    fun zero => absurd (congrFun zero 0) (by decide)
  exact ⟨k, k', wellFormed, erased⟩

/-! ### A file without a name -/

/-- A file of one byte in cluster 3, whose name and extension are zeros. -/
def unnamedFile : FAT32DirectoryEntry :=
  { FAT32DirectoryEntry.zero with userAttribute := uattrNotEmpty, clusterLow := 3, filesize := 1 }

/-- The request to write or delete it. -/
def unnamedRequest : FAT32DriverRequest := ⟨fun _ => 0, fun _ => 0, fun _ => 0, 2, 1⟩

/-- A new file system with that file in slot 2. -/
def unnamedDisk : Disk :=
  (zeroKernel.disk.setFat (freshFat.set 3 fat32FatEndOfFile)).setTable rootClusterNumber
    (Function.update freshRoot 2 unnamedFile)

theorem zeroKernel_fatTable : zeroKernel.disk.fatTable = freshFat := by
  rw [zeroKernel, createFat32_eq]
  exact freshDisk_fatTable _

theorem added_unnamedFile :
    Added zeroKernel.disk.volume unnamedDisk.volume rootClusterNumber 2 unnamedFile [3] := by
  have fat : unnamedDisk.volume.fat = Function.update zeroKernel.disk.fat 3 fat32FatEndOfFile := by
    rw [Disk.volume_fat, unnamedDisk, Disk.fat_setTable (by decide), Disk.fat_setFat,
      FAT32FileAllocationTable.at_set _ (by decide), ← zeroKernel_fatTable]
    rfl
  have free : zeroKernel.disk.fat 3 = 0 := by
    rw [Disk.fat, zeroKernel_fatTable]
    exact freshFat_free (by decide)
  have cluster : unnamedFile.cluster = 3 := by decide
  refine ⟨.root, ?vacant, rfl, ?table, ?frame, ?fresh, ?inside, ?fat, ?chain, rfl, ?folder⟩
  case vacant =>
    rw [Disk.volume_table, fresh_zeroKernel.root, freshRoot_other (by decide)]
    exact FAT32DirectoryEntry.not_live_zero
  case table =>
    rw [Disk.volume_table, unnamedDisk, Disk.table_setTable, Disk.volume_table, fresh_zeroKernel.root]
  case frame => exact fun q directory other => absurd (fresh_zeroKernel.onlyRoot.directory directory) other
  case fresh => simpa using free
  case inside => simp
  case fat =>
    intro c outside
    rw [fat, Function.update_of_ne (by simpa using outside)]
    rfl
  case chain =>
    rw [cluster]
    refine .last (next_eq_none.mpr ?_)
    rw [fat, Function.update_self]
  case folder => exact fun folder => absurd folder (by decide)

theorem wellFormed_unnamedDisk : unnamedDisk.WellFormed where
  boot := by
    have boot : zeroKernel.disk.bootSector = fsSignature := fresh_zeroKernel.regular.boot
    rw [← boot]
    exact (Disk.bootSector_setCluster (by decide)).trans (Disk.bootSector_setCluster (by decide))
  volume := by
    refine added_unnamedFile.wellFormed fresh_zeroKernel.regular.wellFormed.volume fun i live name => ?_
    obtain rfl := fresh_zeroKernel.onlyRoot.live_self .root live
    rw [Disk.volume_table, fresh_zeroKernel.root] at name
    exact absurd (congrFun name 0) (by decide)

/-- Its delete stops at the free slot 1 and erases nothing: it leaves `driver_state`. -/
theorem unnamed_file_not_erased :
    ∃ (k : Kernel) (request : FAT32DriverRequest), k.disk.WellFormed ∧ k.disk.volume.Slot rootClusterNumber 2 ∧
      (k.disk.table rootClusterNumber 2).filesize = 1 ∧ k.disk.volume.SlotChain rootClusterNumber 2 [3] ∧
      (k.disk.table rootClusterNumber 2).Named request.name request.ext ∧ request.parentClusterNumber.toNat = rootClusterNumber ∧
      request.bufferSize = 1 ∧ findNameExt (k.disk.table rootClusterNumber) request.name request.ext = some 1 ∧
      delete k request = none ∧ ¬ ∃ k', FileErased k request rootClusterNumber 2 [3] k' := by
  have sound := wellFormed_unnamedDisk.sound
  have slot : unnamedDisk.volume.Slot rootClusterNumber 2 :=
    (added_unnamedFile.slot_iff fresh_zeroKernel.regular.sound.volume).mpr (.inr ⟨rfl, rfl⟩)
  have entry : unnamedDisk.table rootClusterNumber 2 = unnamedFile := added_unnamedFile.table_new
  have table : unnamedDisk.table rootClusterNumber = Function.update freshRoot 2 unnamedFile := Disk.table_setTable
  have chain : unnamedDisk.volume.SlotChain rootClusterNumber 2 [3] := by
    have chain := added_unnamedFile.chain
    rw [← entry] at chain
    exact chain
  have found : findNameExt (unnamedDisk.table rootClusterNumber) (fun _ => 0) (fun _ => 0) = some 1 := by
    rw [table]
    decide
  have vacant : ¬ (unnamedDisk.table rootClusterNumber 1).Live := by
    rw [table]
    decide
  let k : Kernel := ⟨unnamedDisk, .zero, fun _ => 0⟩
  have answer : delete k unnamedRequest = none := delete_vacant sound .root rfl (by decide) found vacant
  refine ⟨k, unnamedRequest, wellFormed_unnamedDisk, slot, congrArg (·.filesize) entry, chain,
    ⟨slot.live, congrArg (·.name) entry, congrArg (·.ext) entry⟩, rfl, rfl, found, answer, ?_⟩
  rintro ⟨k', erased⟩
  have answer' := erased.answer
  rw [answer] at answer'
  cases answer'

/-! ## Folders that hold entries -/

/-- The folder in slot `m` of directory `p` is still entered there, its cluster is allocated, and the entries
    in it are reached. -/
structure Spared (p : Nat) (m : Fin 64) (k k' : Kernel) : Prop where
  entry : k'.disk.table p m = k.disk.table p m
  allocated : k'.disk.fat (k.disk.table p m).cluster ≠ 0
  reachable : ∀ i, k.disk.volume.Slot (k.disk.table p m).cluster i →
    k'.disk.volume.Slot (k.disk.table p m).cluster i ∧
      k'.disk.table (k.disk.table p m).cluster i = k.disk.table (k.disk.table p m).cluster i

/-- The delete is answered, and it spares that folder. -/
def SparesFolder (k : Kernel) (request : FAT32DriverRequest) (p : Nat) (m : Fin 64) : Prop :=
  ∃ code k', delete k request = some (code, k') ∧ Spared p m k k'

/-- Whatever else is cleared in a directory and freed, its other folders are spared. -/
theorem spared_of_disk (sound : k.disk.Sound) (edge : k.disk.volume.Edge p m c) (other : j ≠ m)
    (table : k'.disk.table p = k.disk.table p ∨ k'.disk.table p = Function.update (k.disk.table p) j .zero)
    (frame : ∀ x, x ≠ fatClusterNumber → x ≠ p → k'.disk.cluster x = k.disk.cluster x)
    (fat : k'.disk.fat c = k.disk.fat c) : Spared p m k k' := by
  have entry : k'.disk.table p m = k.disk.table p m := by
    rcases table with same | cleared
    · rw [same]
    · rw [cleared, Function.update_of_ne (Ne.symm other)]
  have elsewhere (q : Nat) (directory : k.disk.volume.Directory q) (different : q ≠ p) :
      k'.disk.table q = k.disk.table q := by
    have range := sound.volume.directory_range directory
    exact Disk.table_congr (frame q (by simp only [fatClusterNumber]; omega) different)
  -- the route to the directory does not depend on its own table
  have directory : k'.disk.volume.Directory p := by
    obtain ⟨l, route⟩ := edge.directory.route
    exact (route.frame (route.dropLast_ne sound.volume) elsewhere).directory
  have content := elsewhere c edge.directory_child (sound.volume.child_ne edge)
  obtain ⟨⟨parent, notSelf, live⟩, folder, rfl⟩ := edge
  refine ⟨entry, ?_, ?_⟩
  · change k'.disk.fat (k.disk.volume.table p m).cluster ≠ 0
    rw [fat, ← Disk.volume_fat, sound.volume.directory_fat (.child parent notSelf live folder)]
    decide
  · intro i slot
    have child : k'.disk.volume.Directory (k.disk.table p m).cluster := by
      rw [← entry]
      rw [Disk.volume_table, ← entry] at live folder
      exact .child directory notSelf live folder
    have same := congrFun content i
    refine ⟨⟨child, slot.entry, ?_⟩, same⟩
    have live := slot.live
    rw [Disk.volume_table] at live ⊢
    exact same ▸ live

section Occupied

variable (edge : k.disk.volume.Edge p m c) (busy : ∃ i, i ≠ 0 ∧ (k.disk.table c i).Live)
  (parent : request.parentClusterNumber.toNat = p) (named : request.name = (k.disk.table p m).name)
include edge parent named

include busy in
/-- The folder path is refused, or its target is another slot. -/
theorem folder_path_spares (sound : k.disk.Sound) (size : request.bufferSize = 0) : SparesFolder k request p m := by
  have inside := (sound.volume.directory_range edge.directory).2
  have bound := folderTarget_lt sound edge.directory request.name
  have unchanged : Spared p m k (k.load p) :=
    spared_of_disk sound edge (Ne.symm edge.entry) (.inl rfl) (fun _ _ _ => rfl) rfl
  cases target : folderTarget (k.disk.table p) request.name with
  | mk j d =>
    rw [target] at bound
    have answer := delete_folder parent inside size target bound
    by_cases refused : occupied (k.disk.table d) = true
    · rw [if_pos refused] at answer
      exact ⟨2, _, answer, unchanged⟩
    · rw [if_neg refused] at answer
      by_cases root : request.name = rootName
      · rw [if_pos root] at answer
        exact ⟨-1, _, answer, unchanged⟩
      · rw [if_neg root] at answer
        have notFolder : c ≠ d := fun same => refused (occupied_iff.mpr (same ▸ busy))
        have other : j ≠ m := by
          rintro rfl
          cases found : findName (k.disk.table p) request.name with
          | none => exact findName_none.mp found j named.symm
          | some i =>
            rw [folderTarget_some found] at target
            obtain ⟨rfl, rfl⟩ := Prod.mk.inj target
            exact notFolder edge.cluster.symm
        refine ⟨0, _, answer, spared_of_disk sound edge other (.inr Disk.table_setTable) ?_ ?_⟩
        · intro x notFat different
          exact (Disk.cluster_setCluster_of_ne different).trans (Disk.cluster_setCluster_of_ne notFat)
        · have range := sound.volume.directory_range edge.directory
          rw [Disk.fat_setTable (by omega), Disk.fat_setFat, FAT32FileAllocationTable.at_set _ bound,
            Function.update_of_ne notFolder]
          rfl

omit parent named in
/-- The chain of another slot in use does not go through the folder. -/
theorem folder_outside (sound : k.disk.Sound) (live : (k.disk.table p j).Live) (other : j ≠ m)
    (chain : Chain (fun x => fatTarget (k.disk.fat x)) (k.disk.table p j).cluster l) : c ∉ l := by
  by_cases self : j = 0
  · subst self
    rw [chain.unique (sound.volume.self_chain edge.directory)]
    simpa using sound.volume.child_ne edge
  · intro member
    exact other (sound.volume.disjoint ⟨edge.directory, self, live⟩ edge.toSlot chain
      (sound.volume.folder_chain edge).1 member List.mem_cons_self).2

/-- The file path takes whatever has the name and extension. -/
theorem file_path_spares_iff (wellFormed : k.disk.WellFormed) (size : request.bufferSize ≠ 0) :
    SparesFolder k request p m ↔
      request.ext ≠ (k.disk.table p m).ext ∧ Unshadowed (k.disk.table p) request.name request.ext := by
  have sound := wellFormed.sound
  have inside := (sound.volume.directory_range edge.directory).2
  constructor
  · rintro ⟨code, k', answer, spared⟩
    have unshadowed : Unshadowed (k.disk.table p) request.name request.ext := by
      refine (unshadowed_disk_iff sound edge.directory).mpr fun j found => ?_
      by_contra vacant
      rw [delete_vacant sound edge.directory parent size found vacant] at answer
      cases answer
    refine ⟨fun ext => ?_, unshadowed⟩
    have found := (findNameExt_named_iff wellFormed edge.directory ⟨edge.live, named.symm, ext.symm⟩).mpr unshadowed
    obtain ⟨k'', answer', deleted, _⟩ :=
      delete_file_spec sound parent size found edge.toSlot (sound.volume.folder_chain edge).1
    obtain ⟨rfl, rfl⟩ := Prod.mk.inj (Option.some.inj (answer.symm.trans answer'))
    -- the folder itself was found, and its slot is cleared
    have cleared : k'.disk.table p m = .zero := deleted.removed.table_removed
    have live : (k.disk.table p m).Live := edge.live
    rw [← spared.entry, cleared] at live
    exact FAT32DirectoryEntry.not_live_zero live
  · rintro ⟨ext, unshadowed⟩
    cases found : findNameExt (k.disk.table p) request.name request.ext with
    | none =>
      exact ⟨1, _, delete_absent parent inside size found,
        spared_of_disk sound edge (Ne.symm edge.entry) (.inl rfl) (fun _ _ _ => rfl) rfl⟩
    | some j =>
      have live := (unshadowed_disk_iff sound edge.directory).mp unshadowed j found
      have other : j ≠ m := by
        rintro rfl
        exact ext (findNameExt_some.mp found).1.2.symm
      obtain ⟨l, chain, allocated⟩ := sound.volume.live_chain edge.directory live
      have outside := folder_outside edge sound live other chain
      obtain ⟨k', t, answer, _, disk, freed⟩ :=
        delete_file parent inside size found chain fun x member => (allocated x member).1.2
      refine ⟨0, k', answer, spared_of_disk sound edge other (.inr ?_) ?_ ?_⟩
      · rw [disk, Disk.table_setTable]
      · intro x notFat different
        rw [disk]
        exact (Disk.cluster_setCluster_of_ne different).trans (Disk.cluster_setCluster_of_ne notFat)
      · have range := sound.volume.directory_range edge.directory
        rw [disk, Disk.fat_setTable (by omega), Disk.fat_setFat, freed c, if_neg outside]

include busy in
/-- A folder that holds an entry survives every delete with its name exactly if the size is 0, or else the
    extension is not the folder's and the search stops at no free slot. -/
theorem spares_folder_iff (wellFormed : k.disk.WellFormed) :
    SparesFolder k request p m ↔ request.bufferSize = 0 ∨
      (request.ext ≠ (k.disk.table p m).ext ∧ Unshadowed (k.disk.table p) request.name request.ext) := by
  by_cases size : request.bufferSize = 0
  · exact iff_of_true (folder_path_spares edge busy parent named wellFormed.sound size) (.inl size)
  · rw [file_path_spares_iff edge parent named wellFormed size]
    simp only [size, false_or]

end Occupied

/-- A file `x.t` in the directory at cluster 3. -/
def fileXInside : FAT32DriverRequest := ⟨fun _ => 0, text ['x'], text ['t'], 3, 1⟩

/-- The root holds the folder `a`, which holds `x.t`. -/
theorem occupied_folderA :
    ∃ k : Kernel, k.disk.Regular ∧ k.disk.volume.Edge rootClusterNumber 1 3 ∧
      k.disk.table rootClusterNumber = Function.update freshRoot 1 (newEntry folderA 3) ∧
      k.disk.volume.Slot 3 1 := by
  obtain ⟨k₁, k, run, written₁, written, _⟩ := run_inside folderA fileXInside (t := []) rfl (by decide) (by decide) rfl
    rfl (by decide) (by decide) List.range'_succ (by decide)
  have regular₁ := written₁.regular fresh_zeroKernel.regular
  obtain ⟨_, entry₁⟩ := first_entry written₁
  have root : k.disk.table rootClusterNumber = k₁.disk.table rootClusterNumber :=
    written.added.tableFrame _ .root (by decide)
  have edge : k.disk.volume.Edge rootClusterNumber 1 3 := by
    have entry : k.disk.table rootClusterNumber 1 = newEntry folderA 3 := by
      rw [root, entry₁]
    exact edge_newEntry .root (by decide) rfl (by decide) entry
  refine ⟨k, run_regular run, edge, ?_, (written.added.slot_iff regular₁.sound.volume).mpr (.inr ⟨rfl, rfl⟩)⟩
  rw [root, first_table written₁]

/-- Deleted with size 0, the folder is spared. -/
theorem spares_folder_iff_size_zero :
    ∃ k : Kernel, k.disk.WellFormed ∧ SparesFolder k folderA rootClusterNumber 1 := by
  obtain ⟨k, regular, edge, table, slot⟩ := occupied_folderA
  have named : folderA.name = (k.disk.table rootClusterNumber 1).name := by
    rw [table]
    rfl
  exact ⟨k, regular.wellFormed,
    (spares_folder_iff edge ⟨1, by decide, slot.live⟩ rfl named regular.wellFormed).mpr (.inl rfl)⟩

/-- The request with its name and a size. -/
def folderASized : FAT32DriverRequest := ⟨fun _ => 0, text ['a'], fun _ => 0, 2, 1⟩

/-- Deleted with it, the folder is cleared from its slot, and its cluster is freed. -/
theorem occupied_folder_deleted :
    ∃ k : Kernel, k.disk.WellFormed ∧ k.disk.volume.Edge rootClusterNumber 1 3 ∧ k.disk.volume.Slot 3 1 ∧
      folderASized.parentClusterNumber.toNat = rootClusterNumber ∧
      folderASized.name = (k.disk.table rootClusterNumber 1).name ∧
      ¬ SparesFolder k folderASized rootClusterNumber 1 ∧
      ∃ k', delete k folderASized = some (0, k') ∧ k'.disk.table rootClusterNumber 1 = .zero ∧
        k'.disk.fat 3 = 0 := by
  have parent : folderASized.parentClusterNumber.toNat = rootClusterNumber := rfl
  have size : folderASized.bufferSize ≠ 0 := by decide
  obtain ⟨k, regular, edge, table, slot⟩ := occupied_folderA
  have named : (k.disk.table rootClusterNumber 1).Named folderASized.name folderASized.ext := by
    rw [table]
    exact ⟨rfl, rfl, rfl⟩
  have found : findNameExt (k.disk.table rootClusterNumber) folderASized.name folderASized.ext = some 1 := by
    refine findNameExt_some.mpr ⟨⟨named.name, named.ext⟩, ?_⟩
    intro j before name
    obtain rfl : j = 0 := by omega
    rw [table, Function.update_of_ne (by decide)] at name
    exact absurd (congrFun name 0) (by decide)
  obtain ⟨k', answer, deleted, freed⟩ :=
    delete_file_spec regular.sound parent size found edge.toSlot (regular.sound.volume.folder_chain edge).1
  have cleared : k'.disk.table rootClusterNumber 1 = .zero := deleted.removed.table_removed
  refine ⟨k, regular.wellFormed, edge, slot, parent, named.name.symm, ?_, k', answer, cleared,
    freed 3 List.mem_cons_self⟩
  rintro ⟨code, k'', answer', spared⟩
  obtain ⟨_, rfl⟩ := Prod.mk.inj (Option.some.inj (answer.symm.trans answer'))
  have live := named.live
  rw [← spared.entry, cleared] at live
  exact FAT32DirectoryEntry.not_live_zero live

/-! ## The self entry -/

/-- Behind the self entry, no slot in use has what the request asks for. -/
def OnlySelf (table : FAT32DirectoryTable) (request : FAT32DriverRequest) : Prop :=
  ∀ i, i ≠ 0 → (table i).Live → (table i).name = request.name →
    request.bufferSize ≠ 0 ∧ (table i).ext ≠ request.ext

/-- The delete is turned away, and the directory keeps its self entry and its cluster. -/
def KeepsSelf (k : Kernel) (request : FAT32DriverRequest) (p : Nat) : Prop :=
  ∃ code k', delete k request = some (code, k') ∧ code ≠ 0 ∧ (k'.disk.table p 0).Live ∧ k'.disk.fat p ≠ 0

section Self

variable (directory : k.disk.volume.Directory p) (parent : request.parentClusterNumber.toNat = p)
  (self : request.name = (k.disk.table p 0).name)
include directory parent self

omit parent self in
theorem keepsSelf_of_refused (sound : k.disk.Sound) {code : Int8} (failed : code ≠ 0)
    (answer : delete k request = some (code, k.load p)) : KeepsSelf k request p := by
  refine ⟨code, _, answer, failed, (sound.volume.self directory).1, ?_⟩
  change k.disk.volume.fat p ≠ 0
  rw [sound.volume.directory_fat directory]
  decide

/-- The folder path finds the self entry first, and takes the directory for the folder to remove. -/
theorem folder_path_keepsSelf_iff (sound : k.disk.Sound) (size : request.bufferSize = 0) :
    KeepsSelf k request p ↔ (∃ i, i ≠ 0 ∧ (k.disk.table p i).Live) ∨ request.name = rootName := by
  have inside := (sound.volume.directory_range directory).2
  have found : findName (k.disk.table p) request.name = some 0 :=
    findName_some.mpr ⟨self.symm, fun j before => absurd before (by simp)⟩
  have target : folderTarget (k.disk.table p) request.name = (0, p) := by
    have own : (k.disk.table p 0).cluster = p := (sound.volume.self directory).2
    rw [folderTarget_some found, own]
  have answer := delete_folder parent inside size target inside
  rw [← occupied_iff]
  by_cases busy : occupied (k.disk.table p) = true
  · rw [if_pos busy] at answer
    exact iff_of_true (keepsSelf_of_refused directory sound (by decide) answer) (.inl busy)
  · rw [if_neg busy] at answer
    by_cases root : request.name = rootName
    · rw [if_pos root] at answer
      exact iff_of_true (keepsSelf_of_refused directory sound (by decide) answer) (.inr root)
    · rw [if_neg root] at answer
      refine iff_of_false ?_ (not_or.mpr ⟨busy, root⟩)
      rintro ⟨code, k', answer', failed, _⟩
      exact failed (Prod.mk.inj (Option.some.inj (answer'.symm.trans answer))).1

/-- The file path finds the self entry first too, if the extension is its own. -/
theorem file_path_keepsSelf_iff (sound : k.disk.Sound) (size : request.bufferSize ≠ 0)
    (only : OnlySelf (k.disk.table p) request) :
    KeepsSelf k request p ↔ request.ext ≠ (k.disk.table p 0).ext ∧
      (request.name = (fun _ => 0) → request.ext = (fun _ => 0) → ∀ i, (k.disk.table p i).Live) := by
  have inside := (sound.volume.directory_range directory).2
  by_cases ext : request.ext = (k.disk.table p 0).ext
  · refine iff_of_false ?_ fun both => both.1 ext
    have found : findNameExt (k.disk.table p) request.name request.ext = some 0 :=
      findNameExt_some.mpr ⟨⟨self.symm, ext.symm⟩, fun j before => absurd before (by simp)⟩
    have chain := sound.volume.self_chain directory
    obtain ⟨k₁, _, answer, _⟩ := delete_file parent inside size found chain (by simpa using inside)
    rintro ⟨code, k', answer', failed, _⟩
    exact failed (Prod.mk.inj (Option.some.inj (answer'.symm.trans answer))).1
  · have unmatched : Unmatched (k.disk.table p) request := by
      intro i live name
      by_cases here : i = 0
      · exact ⟨size, here ▸ Ne.symm ext⟩
      · exact only i here live name
    rw [← unmatched_absent_iff sound directory unmatched]
    constructor
    · rintro ⟨code, k', answer, _⟩
      refine ⟨ext, ?_⟩
      cases found : findNameExt (k.disk.table p) request.name request.ext with
      | none => rfl
      | some j =>
        obtain ⟨name, sameExt⟩ := (findNameExt_some.mp found).1
        rw [delete_vacant sound directory parent size found fun live => (unmatched j live name).2 sameExt] at answer
        cases answer
    · rintro ⟨_, absent⟩
      exact keepsSelf_of_refused directory sound (by decide) (delete_absent parent inside size absent)

/-- On a well-formed disk a delete through the self entry is turned away exactly if its size is 0 and the
    directory holds an entry or the name is `ROOT`, or its size is not 0 and the extension is not that of the
    self entry, except that a request of zeros needs a full directory. -/
theorem keeps_self_iff (wellFormed : k.disk.WellFormed) (only : OnlySelf (k.disk.table p) request) :
    KeepsSelf k request p ↔
      (request.bufferSize = 0 ∧ ((∃ i, i ≠ 0 ∧ (k.disk.table p i).Live) ∨ request.name = rootName)) ∨
      (request.bufferSize ≠ 0 ∧ request.ext ≠ (k.disk.table p 0).ext ∧
        (request.name = (fun _ => 0) → request.ext = (fun _ => 0) → ∀ i, (k.disk.table p i).Live)) := by
  by_cases size : request.bufferSize = 0
  · rw [folder_path_keepsSelf_iff directory parent self wellFormed.sound size]
    simp only [size, ne_eq, not_true_eq_false, true_and, false_and, or_false]
  · rw [file_path_keepsSelf_iff directory parent self wellFormed.sound size only]
    simp only [size, ne_eq, not_false_eq_true, true_and, false_and, false_or]

end Self

/-- The root is found under the name `ROOT` in its own table. -/
def rootRequest (size : UInt32) : FAT32DriverRequest := ⟨fun _ => 0, rootName, fun _ => 0, 2, size⟩

theorem onlySelf_freshRoot : OnlySelf (zeroKernel.disk.table rootClusterNumber) request :=
  fun _ entry live => absurd (fresh_zeroKernel.onlyRoot.live_self .root live) entry

/-- With size 0 the root of a new file system is not deleted. -/
theorem keeps_self_iff_root : zeroKernel.disk.WellFormed ∧ KeepsSelf zeroKernel (rootRequest 0) rootClusterNumber := by
  have wellFormed := fresh_zeroKernel.regular.wellFormed
  have self : (rootRequest 0).name = (zeroKernel.disk.table rootClusterNumber 0).name := by
    rw [fresh_zeroKernel.root]
    rfl
  exact ⟨wellFormed, (keeps_self_iff .root rfl self wellFormed onlySelf_freshRoot).mpr (.inl ⟨rfl, .inr rfl⟩)⟩

/-- With size 1 it is: its self entry is cleared, and cluster 2 is freed. -/
theorem root_deleted :
    zeroKernel.disk.WellFormed ∧ (rootRequest 1).parentClusterNumber.toNat = rootClusterNumber ∧
      (rootRequest 1).name = (zeroKernel.disk.table rootClusterNumber 0).name ∧
      OnlySelf (zeroKernel.disk.table rootClusterNumber) (rootRequest 1) ∧
      ¬ KeepsSelf zeroKernel (rootRequest 1) rootClusterNumber ∧
      ∃ k', delete zeroKernel (rootRequest 1) = some (0, k') ∧ k'.disk.table rootClusterNumber 0 = .zero ∧
        k'.disk.fat rootClusterNumber = 0 := by
  have regular := fresh_zeroKernel.regular
  have parent : (rootRequest 1).parentClusterNumber.toNat = rootClusterNumber := rfl
  have size : (rootRequest 1).bufferSize ≠ 0 := by decide
  have self : (zeroKernel.disk.table rootClusterNumber 0).Named (rootRequest 1).name (rootRequest 1).ext := by
    rw [fresh_zeroKernel.root]
    exact ⟨rfl, rfl, rfl⟩
  have found : findNameExt (zeroKernel.disk.table rootClusterNumber) (rootRequest 1).name (rootRequest 1).ext = some 0 :=
    findNameExt_some.mpr ⟨⟨self.name, self.ext⟩, fun j before => absurd before (by simp)⟩
  have chain := regular.sound.volume.self_chain .root
  obtain ⟨k', m, answer, _, disk, freed⟩ := delete_file parent (by decide) size found chain (by simp [rootClusterNumber])
  refine ⟨regular.wellFormed, parent, self.name.symm, onlySelf_freshRoot, ?_, k', answer, ?_, ?_⟩
  · rintro ⟨code, k'', answer', failed, _⟩
    exact failed (Prod.mk.inj (Option.some.inj (answer'.symm.trans answer))).1
  · rw [disk, Disk.table_setTable, Function.update_self]
  · rw [disk, Disk.fat_setTable (by decide), Disk.fat_setFat, freed, if_pos List.mem_cons_self]

end Brother420.Fat32
