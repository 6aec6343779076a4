import Brother420.Fat32.Interrupted
import Brother420.Fat32.Trees

/-! # Interrupted deletes

`delete` stores the allocation table first and the table of the parent then.
Between the two the entry is still listed, but its clusters are free.  The other
entries are unharmed all the time.  The same delete of a folder, done again,
completes what was begun; that of a file follows the freed chain to cluster 0
and from there out of `driver_state`, with no answer.
-/

namespace Brother420.Fat32

open Packed (Bytes Layout)
open Linked (Chain)
open Kernel Volume

/-! ## The cluster writes of a delete -/

def deleteFolderLog (k : Kernel) (request : FAT32DriverRequest) : List ClusterWrite :=
  let target := folderTarget k.driverState.dirTableBuf request.name
  let tempTab := FAT32DirectoryTable.layout.symm (k.readClusters target.2)
  if occupied tempTab then []
  else if memcmp request.name rootName = 0 then []
  else
    match deleteFolder k request with
    | none => []
    | some (_, k) => [k.fatWrite, k.dirTableWrite request.parentClusterNumber.toNat]

def deleteFileLog (k : Kernel) (request : FAT32DriverRequest) : List ClusterWrite :=
  match findNameExt k.driverState.dirTableBuf request.name request.ext with
  | none => []
  | some _ =>
    match deleteFile k request with
    | none => []
    | some (_, k) => [k.fatWrite, k.dirTableWrite request.parentClusterNumber.toNat]

/-- The cluster writes that `delete` issues, in order. -/
def deleteLog (k : Kernel) (request : FAT32DriverRequest) : List ClusterWrite :=
  let k := k.load request.parentClusterNumber.toNat
  if request.bufferSize = 0 then deleteFolderLog k request else deleteFileLog k request

variable {k k' k₁ k₂ : Kernel} {request : FAT32DriverRequest} {code : Int8} {d d' : Disk} {c p q n : Nat} {l : List Nat}
  {s i : Fin 64} {v v' : Volume}

/-! ## The writes make up the new disk -/

theorem releaseChain_disk {fuel : Nat} (released : releaseChain fuel k c = some k') : k'.disk = k.disk := by
  induction fuel generalizing k c with
  | zero => cases released
  | succ fuel ih =>
    unfold releaseChain at released
    split at released
    · exact setClusterMap_disk released
    · simp only [Option.bind_eq_bind, Option.bind_eq_some_iff] at released
      obtain ⟨k₁, freed, later⟩ := released
      exact (ih later).trans (setClusterMap_disk freed)

/-- The two ways in which a delete comes to an end: turned away with nothing stored, or with both tables stored. -/
def Ends (k k' : Kernel) (p : Nat) (code : Int8) (log : List ClusterWrite) : Prop :=
  (code ≠ 0 ∧ log = [] ∧ k'.disk = k.disk) ∨
    (code = 0 ∧ log = [k'.fatWrite, k'.dirTableWrite p] ∧ k'.disk = k.disk.writeAll log)

theorem ends_stored (disk : k₂.disk = k.disk) :
    Ends k (k₂.storeFat.storeDirTable p) p 0
      [(k₂.storeFat.storeDirTable p).fatWrite, (k₂.storeFat.storeDirTable p).dirTableWrite p] := by
  refine .inr ⟨rfl, rfl, ?_⟩
  rw [storeDirTable_disk, storeFat_disk, disk]
  rfl

theorem deleteFolder_ends (answer : deleteFolder k request = some (code, k')) :
    Ends k k' request.parentClusterNumber.toNat code (deleteFolderLog k request) := by
  have result := answer
  unfold deleteFolder at result
  unfold deleteFolderLog
  simp only at result ⊢
  split at result
  · rename_i busy
    obtain ⟨rfl, rfl⟩ := Prod.mk.inj (Option.some.inj result)
    exact .inl ⟨by decide, if_pos busy, rfl⟩
  · rename_i empty
    rw [if_neg empty]
    split at result
    · rename_i root
      obtain ⟨rfl, rfl⟩ := Prod.mk.inj (Option.some.inj result)
      exact .inl ⟨by decide, if_pos root, rfl⟩
    · rename_i notRoot
      rw [if_neg notRoot, answer]
      simp only [Option.bind_eq_bind, Option.bind_eq_some_iff] at result ⊢
      obtain ⟨k₂, freed, result⟩ := result
      obtain ⟨rfl, rfl⟩ := Prod.mk.inj (Option.some.inj result)
      have disk := setClusterMap_disk freed
      exact ends_stored disk

theorem deleteFile_ends (answer : deleteFile k request = some (code, k')) :
    Ends k k' request.parentClusterNumber.toNat code (deleteFileLog k request) := by
  have result := answer
  unfold deleteFile at result
  split at result
  · rename_i absent
    obtain ⟨rfl, rfl⟩ := Prod.mk.inj (Option.some.inj result)
    unfold deleteFileLog
    rw [absent]
    exact .inl ⟨by decide, rfl, rfl⟩
  · rename_i i found
    unfold deleteFileLog
    simp only [found, answer]
    simp only [Option.bind_eq_bind, Option.bind_eq_some_iff] at result
    obtain ⟨k₂, freed, result⟩ := result
    obtain ⟨rfl, rfl⟩ := Prod.mk.inj (Option.some.inj result)
    have disk := releaseChain_disk freed
    exact ends_stored disk

theorem delete_ends (answer : delete k request = some (code, k')) :
    Ends k k' request.parentClusterNumber.toNat code (deleteLog k request) := by
  have loaded (k' : Kernel) (log : List ClusterWrite)
      (ends : Ends (k.load request.parentClusterNumber.toNat) k' request.parentClusterNumber.toNat code log) :
      Ends k k' request.parentClusterNumber.toNat code log := ends
  unfold delete at answer
  unfold deleteLog
  simp only at answer ⊢
  apply loaded
  split at answer
  · rename_i folder
    rw [if_pos folder]
    exact deleteFolder_ends answer
  · rename_i file
    rw [if_neg file]
    exact deleteFile_ends answer

/-! ## Between the two writes -/

/-- The disk on which the allocation table is stored and the table of the parent is not. -/
theorem half_deleted (ends : Ends k k' p 0 (deleteLog k request)) (cached : k'.driverState.fatTable = k'.disk.fatTable) :
    k.disk.writeAll ((deleteLog k request).take 1) = k.disk.setFat k'.disk.fatTable := by
  obtain ⟨failed, _⟩ | ⟨_, log, _⟩ := ends
  · exact absurd rfl failed
  · rw [log, ← cached]
    exact Disk.writeCluster_eq (show fatClusterNumber < 2 ^ 26 by decide)

/-- The entries other than the one in slot `s` of directory `p` are where they were, with the same data. -/
def OthersKept (p : Nat) (s : Fin 64) (d d' : Disk) : Prop :=
  ∀ q i l, d.volume.Slot q i → (q ≠ p ∨ i ≠ s) → d.volume.SlotChain q i l →
    d'.volume.Slot q i ∧ d'.table q i = d.table q i ∧ d'.volume.SlotChain q i l ∧
      ∀ c ∈ l, c ≠ p → d'.cluster c = d.cluster c

section Removal

variable (erased : Erased request p s l k k') (sound : k.disk.Sound)
include erased sound

theorem Erased.othersKept : OthersKept p s k.disk k'.disk := by
  intro q i l' slot other chain
  have removed := erased.removed
  refine ⟨removed.slot_kept erased.inside slot other, removed.table_eq slot.directory other,
    removed.chain_kept sound.volume slot other chain, fun c member notParent => ?_⟩
  have range := sound.volume.range slot chain member
  exact erased.frame c (by omega) notParent

/-- A disk that differs in the allocation entries of the erased chain only. -/
theorem Erased.othersKept_fat (cluster : ∀ c, c ≠ fatClusterNumber → d'.cluster c = k.disk.cluster c)
    (fat : ∀ c, c ∉ l → d'.fat c = k.disk.fat c) : OthersKept p s k.disk d' := by
  intro q i l' slot other chain
  have removed := erased.removed
  have table {c : Nat} (directory : k.disk.volume.Directory c) : d'.table c = k.disk.table c := by
    have range := sound.volume.directory_range directory
    exact Disk.table_congr (cluster c (by simp only [fatClusterNumber]; omega))
  have directory : d'.volume.Directory q := by
    refine (directory_congr fun c i directory _ => ?_).mpr slot.directory
    rw [Disk.volume_table, Disk.volume_table, table directory]
    exact ⟨Iff.rfl, rfl, rfl⟩
  have same : d'.volume.table q i = k.disk.table q i := congrFun (table slot.directory) i
  refine ⟨⟨directory, slot.entry, same ▸ slot.live⟩, same, ?_, fun c member _ => ?_⟩
  · unfold SlotChain at chain ⊢
    rw [same]
    refine chain.congr fun c member => next_congr (fat c fun shared => ?_)
    obtain ⟨rfl, rfl⟩ := sound.volume.disjoint slot removed.slot chain removed.chain member shared
    simp at other
  · have range := sound.volume.range slot chain member
    exact cluster c (by simp only [fatClusterNumber]; omega)

theorem Erased.half_othersKept : OthersKept p s k.disk (k.disk.setFat k'.disk.fatTable) := by
  refine erased.othersKept_fat sound (fun c notFat => Disk.cluster_setCluster_of_ne notFat) fun c outside => ?_
  rw [Disk.fat_setFat]
  exact erased.removed.fatFrame c outside

end Removal

/-! ## Doing it again -/

theorem FAT32FileAllocationTable.set_set (t : FAT32FileAllocationTable) (value value' : UInt32) :
    (t.set c value).set c value' = t.set c value' := by
  unfold FAT32FileAllocationTable.set
  split
  · exact Function.update_idem _ _ _
  · rfl

theorem setFat_setFat {m m' : FAT32FileAllocationTable} : (d.setFat m).setFat m' = d.setFat m' := by
  apply Disk.ext_cluster
  intro x
  by_cases fat : x = fatClusterNumber
  · subst fat
    exact Disk.cluster_setCluster.trans Disk.cluster_setCluster.symm
  · exact ((Disk.cluster_setCluster_of_ne fat).trans (Disk.cluster_setCluster_of_ne fat)).trans
      (Disk.cluster_setCluster_of_ne fat).symm

/-- From a free cluster the loop comes to cluster 0, and from there out of `driver_state`. -/
theorem releaseChain_freed {fuel : Nat} (bound : c < 512) (other : c ≠ 0)
    (free : FAT32FileAllocationTable.at k.driverState.fatTable c = 0)
    (reserved : FAT32FileAllocationTable.at k.driverState.fatTable 0 = cluster0Value) :
    releaseChain (fuel + 3) k c = none := by
  have onward : k.clusterMap c ≠ fat32FatEndOfFile := by
    rw [clusterMap_eq bound, free]
    decide
  have next : (k.clusterMap c).toNat = 0 := by
    rw [clusterMap_eq bound, free]
    rfl
  have kept : Kernel.clusterMap { k with driverState.fatTable := k.driverState.fatTable.set c 0 } 0 = cluster0Value := by
    rw [clusterMap_eq (by decide)]
    simp only
    rw [FAT32FileAllocationTable.at_set _ bound, Function.update_of_ne (Ne.symm other), reserved]
  rw [releaseChain, if_neg onward]
  simp only [Nat.mod_eq_of_lt (show c < 2 ^ 16 by omega), setClusterMap_eq bound, Option.bind_eq_bind, Option.bind_some,
    next]
  exact releaseChain_boot kept

/-- The delete of a file of which the clusters are free already has no answer. -/
theorem delete_freed_file (parent : request.parentClusterNumber.toNat = p) (inside : p < 512)
    (file : request.bufferSize ≠ 0) (found : findNameExt (k.disk.table p) request.name request.ext = some s)
    (bound : (k.disk.table p s).cluster < 512) (other : (k.disk.table p s).cluster ≠ 0)
    (free : k.disk.fat (k.disk.table p s).cluster = 0) (reserved : k.disk.fat 0 = cluster0Value) :
    delete k request = none := by
  have stuck (table : FAT32DirectoryTable) : releaseChain (2 ^ 16)
      { k with driverState := ⟨k.disk.fatTable, table, k.driverState.clusterBuf⟩ } (k.disk.table p s).cluster = none :=
    @releaseChain_freed _ _ 65533 bound other free reserved
  simp only [delete, file, ↓reduceIte, parent]
  unfold deleteFile
  rw [load_eq (by omega)]
  simp only [found, stuck, Option.bind_eq_bind, Option.bind_none]

section Retry

variable (regular : k.disk.Regular) (parent : request.parentClusterNumber.toNat = p)
  (answer : delete k request = some (0, k'))
include regular parent answer

/-- The same delete of a folder takes both tables to what they were to be. -/
theorem delete_folder_again (folder : request.bufferSize = 0) (target : OnlyFolderAt k.disk.volume p s request.name)
    (half : k₁.disk = k.disk ∨ k₁.disk = k.disk.setFat k'.disk.fatTable) :
    ∃ k₂, delete k₁ request = some (0, k₂) ∧ k₂.disk = k'.disk := by
  have slot := target.toSlot
  have directory := regular.volume.directory_range slot.directory
  have bounds := regular.volume.slot_range slot
  rw [Disk.volume_table] at bounds
  have found : findName (k.disk.table p) request.name = some s := target.found regular.volume
  rw [delete_folder parent directory.2 folder (folderTarget_some found) bounds.2] at answer
  split at answer
  · obtain ⟨wrong, _⟩ := Prod.mk.inj (Option.some.inj answer)
    exact absurd wrong (by decide)
  · rename_i empty
    split at answer
    · obtain ⟨wrong, _⟩ := Prod.mk.inj (Option.some.inj answer)
      exact absurd wrong (by decide)
    · rename_i notRoot
      obtain ⟨_, rfl⟩ := Prod.mk.inj (Option.some.inj answer)
      simp only at half ⊢
      generalize start : (k.disk.table p s).cluster = c at *
      rw [Disk.setTable, Disk.fatTable_setCluster (by omega), Disk.fatTable_setFat] at half
      -- the tables that are read are the same on both disks, and freeing the cluster again changes nothing
      have table {x : Nat} (notFat : x ≠ 1) : k₁.disk.table x = k.disk.table x := by
        rcases half with same | half
        · rw [same]
        · rw [half]
          exact Disk.table_congr (Disk.cluster_setCluster_of_ne notFat)
      have stored : k₁.disk.setFat (k₁.disk.fatTable.set c 0) = k.disk.setFat (k.disk.fatTable.set c 0) := by
        rcases half with same | half
        · rw [same]
        · rw [half, Disk.fatTable_setFat, FAT32FileAllocationTable.set_set, setFat_setFat]
      have parentTable := table (x := p) (by omega)
      have target : folderTarget (k₁.disk.table p) request.name = (s, c) := by
        rw [parentTable, folderTarget_some found, start]
      have again := delete_folder parent directory.2 folder target bounds.2
      rw [table (by omega), if_neg empty, if_neg notRoot] at again
      refine ⟨_, again, ?_⟩
      simp only
      rw [stored, parentTable]

section File

variable (file : request.bufferSize ≠ 0) (target : FileAt k.disk.volume p s request.name request.ext)
include file target

/-- As long as nothing is stored the same delete of a file does the same. -/
theorem delete_file_again (same : k₁.disk = k.disk) : ∃ k₂, delete k₁ request = some (0, k₂) ∧ k₂.disk = k'.disk := by
  have slot := target.toSlot
  have inside := (regular.volume.directory_range slot.directory).2
  have found : findNameExt (k.disk.table p) request.name request.ext = some s := target.found regular.volume
  obtain ⟨l, chain, _, range⟩ := regular.volume.chain slot
  have inTable : ∀ x ∈ l, x < 512 := fun x member => (range x member).2
  obtain ⟨k₀, m, first, _, disk, freed⟩ := delete_file parent inside file found chain inTable
  obtain ⟨_, rfl⟩ := Prod.mk.inj (Option.some.inj (first.symm.trans answer))
  have again := @delete_file k₁ p l s request parent inside file
  rw [same] at again
  obtain ⟨k₂, m', second, _, disk', freed'⟩ := again found chain inTable
  refine ⟨k₂, second, ?_⟩
  have sameTable : m' = m := by
    funext x
    have value := (freed' x).trans (freed x).symm
    simpa [FAT32FileAllocationTable.at] using value
  rw [disk', disk, sameTable]

/-- Once the allocation table is stored the same delete of a file has no answer. -/
theorem delete_file_half (half : k₁.disk = k.disk.setFat k'.disk.fatTable) : delete k₁ request = none := by
  have slot := target.toSlot
  have directory := regular.volume.directory_range slot.directory
  have bounds := regular.volume.slot_range slot
  rw [Disk.volume_table] at bounds
  have found : findNameExt (k.disk.table p) request.name request.ext = some s := target.found regular.volume
  obtain ⟨l, chain, _⟩ := regular.volume.chain slot
  obtain ⟨k₀, first, deleted, freed⟩ := delete_file_spec regular.sound parent file found slot chain
  obtain ⟨_, rfl⟩ := Prod.mk.inj (Option.some.inj (first.symm.trans answer))
  have reserved : k₀.disk.fat 0 = cluster0Value := (deleted.sound regular.sound).volume.reserved0
  have fat : k₁.disk.fat = k₀.disk.fat := by
    rw [half, Disk.fat_setFat]
    rfl
  have table : k₁.disk.table p = k.disk.table p := by
    rw [half]
    exact Disk.table_congr (Disk.cluster_setCluster_of_ne (by simp only [fatClusterNumber]; omega))
  rw [← table] at found bounds
  exact delete_freed_file parent directory.2 file found bounds.2 (by omega)
    (by rw [fat, table]; exact freed _ chain.head_mem) (by rw [fat, reserved])

end File

end Retry

/-! ## Interrupted deletes -/

/-- A delete that was interrupted behind any of its cluster writes has harmed no other entry.  Before its last write
    the same delete, by any kernel that finds the disk, still leads where it was to lead, unless the clusters of a
    file are free already: then it has no answer. -/
theorem interrupted_delete_again (regular : k.disk.Regular) (directory : k.disk.volume.Directory p)
    (parent : request.parentClusterNumber.toNat = p) (aimed : Aimed k.disk p request)
    (answer : delete k request = some (0, k')) (n : Nat) :
    (∃ s l, Erased request p s l k k' ∧ OthersKept p s k.disk (k.disk.writeAll ((deleteLog k request).take n))) ∧
      ∀ k₁ : Kernel, n < 2 → k₁.disk = k.disk.writeAll ((deleteLog k request).take n) →
        if n = 0 ∨ request.bufferSize = 0 then ∃ k₂, delete k₁ request = some (0, k₂) ∧ k₂.disk = k'.disk
        else delete k₁ request = none := by
  have sound := regular.sound
  obtain ⟨s, l, erased⟩ := delete_erased regular directory parent aimed answer
  have ends := delete_ends answer
  have half := half_deleted ends erased.cached
  obtain ⟨failed, _⟩ | ⟨_, log, whole⟩ := ends
  · exact absurd rfl failed
  constructor
  · refine ⟨s, l, erased, ?_⟩
    match n with
    | 0 => exact fun q i l' slot _ chain => ⟨slot, rfl, chain, fun _ _ _ => rfl⟩
    | 1 => exact half ▸ erased.half_othersKept sound
    | n + 2 =>
      rw [List.take_of_length_le (by simp [log]), ← whole]
      exact erased.othersKept sound
  · intro k₁ early disk
    unfold Aimed at aimed
    by_cases folder : request.bufferSize = 0
    · rw [if_pos folder] at aimed
      obtain ⟨s, target⟩ := aimed
      rw [if_pos (.inr folder)]
      refine delete_folder_again regular parent answer folder target ?_
      match n with
      | 0 => exact .inl disk
      | 1 => exact .inr (disk.trans half)
    · rw [if_neg folder] at aimed
      rcases aimed with ⟨s, target⟩ | absent
      · match n with
        | 0 =>
          rw [if_pos (.inl rfl)]
          exact delete_file_again regular parent answer folder target disk
        | 1 =>
          rw [if_neg (by simp [folder])]
          exact delete_file_half regular parent answer folder target (disk.trans half)
      · have inside := (regular.volume.directory_range directory).2
        have refused := delete_absent parent inside folder (findNameExt_none.mpr absent)
        obtain ⟨wrong, _⟩ := Prod.mk.inj (Option.some.inj (answer.symm.trans refused))
        exact absurd wrong (by decide)

/-- The file `a.t` written to a new volume can be deleted. -/
theorem run_twoClusterFile :
    ∃ k k', k.disk.Regular ∧ Aimed k.disk rootClusterNumber twoClusterFile ∧ delete k twoClusterFile = some (0, k') := by
  obtain ⟨k, run, written⟩ := run_first twoClusterFile (l := [4]) (by decide) (by decide) rfl rfl (by decide)
  have regular := run_regular run
  obtain ⟨target, chain, _⟩ := first_file written (by decide) rfl
  have found : findNameExt (k.disk.table rootClusterNumber) twoClusterFile.name twoClusterFile.ext = some 1 :=
    target.found regular.volume
  have aimed : Aimed k.disk rootClusterNumber twoClusterFile := by
    rw [Aimed, if_neg (by decide)]
    exact .inl ⟨1, target⟩
  have parent : twoClusterFile.parentClusterNumber.toNat = rootClusterNumber := rfl
  have file : twoClusterFile.bufferSize ≠ 0 := by decide
  obtain ⟨k', answer, _⟩ := delete_file_spec regular.sound parent file found target.toSlot chain
  exact ⟨k, k', regular, aimed, answer⟩

/-- Deleting `a.t` again, behind a stop between the two writes, has no answer. -/
theorem interrupted_delete_again_file :
    ∃ k k', delete k twoClusterFile = some (0, k') ∧
      ∀ k₁ : Kernel, k₁.disk = k.disk.writeAll ((deleteLog k twoClusterFile).take 1) →
        delete k₁ twoClusterFile = none := by
  obtain ⟨k, k', regular, aimed, answer⟩ := run_twoClusterFile
  refine ⟨k, k', answer, fun k₁ crashed => ?_⟩
  have again := (interrupted_delete_again regular .root rfl aimed answer 1).2 k₁ (by decide) crashed
  rwa [if_neg (by decide)] at again

end Brother420.Fat32
