import Brother420.Fat32.Remounting

/-! # What the driver refuses

`write` answers 2 when the allocation entry of the parent does not mark the end
of a chain and 1 when a slot has the name, and `delete` answers 1 on its file
path alone.  Nothing else is refused, whatever is missing: no clusters, no slot,
no directory at the parent, no folder to delete.
-/

namespace Brother420.Fat32

open Packed (Bytes Layout)
open Linked (Chain)
open Runs (Run)
open Kernel Volume

variable {k k' : Kernel} {request : FAT32DriverRequest} {table : FAT32DirectoryTable} {code : Int8} {p c : Nat}
  {i : Fin 64}

/-! ## Answers -/

/-- Behind the check of the parent, a write answers 1 when the name is taken and otherwise 0. -/
theorem write_answer (parent : request.parentClusterNumber.toNat = p) (inside : p < 512)
    (valid : k.disk.fat p = fat32FatEndOfFile) (answer : write k request = some (code, k')) :
    code = 1 ∧ Taken (k.disk.table p) request ∨ code = 0 ∧ ¬ Taken (k.disk.table p) request := by
  have chainEnd : (k.load p).clusterMap p = fat32FatEndOfFile := (load_clusterMap (by omega) inside).trans valid
  rw [← load_dirTableBuf (show p < 2 ^ 26 by omega)]
  simp only [write, parent, chainEnd, ne_eq, not_true_eq_false, ↓reduceIte, Option.bind_eq_bind,
    Option.bind_eq_some_iff] at answer
  obtain ⟨cluster, _, answer⟩ := answer
  split at answer
  · rename_i folder
    exact (writeFolder_answer folder answer).imp (fun refused => ⟨refused.1, refused.2.2⟩) id
  · rename_i file
    exact (writeFile_answer file answer).imp (fun refused => ⟨refused.1, refused.2.2⟩) id

/-- A delete answers 1 exactly on the file path and when no slot has the name and extension. -/
theorem delete_answers_one_iff (parent : request.parentClusterNumber.toNat = p) (inside : p < 512) :
    (∃ k', delete k request = some (1, k')) ↔
      request.bufferSize ≠ 0 ∧ findNameExt (k.disk.table p) request.name request.ext = none := by
  have table : (k.load p).driverState.dirTableBuf = k.disk.table p := load_dirTableBuf (by omega)
  constructor
  · rintro ⟨k', answer⟩
    simp only [delete, parent] at answer
    split at answer
    · rcases deleteFolder_answer answer with ⟨refused | refused, _⟩ | success
      · exact absurd refused (by decide)
      · exact absurd refused (by decide)
      · exact absurd success (by decide)
    · rename_i file
      refine ⟨file, ?_⟩
      rcases deleteFile_answer answer with ⟨_, _, absent⟩ | success
      · rwa [← table]
      · exact absurd success (by decide)
  · rintro ⟨file, absent⟩
    exact ⟨_, delete_absent parent inside file absent⟩

/-! ## The parent of a write -/

/-- The write is turned away for its parent, and nothing is stored. -/
def ParentRefused (k : Kernel) (request : FAT32DriverRequest) : Prop :=
  ∃ k', write k request = some (2, k') ∧ k'.disk = k.disk

/-- Cluster `c` is the last one of a file. -/
def LastOfFile (v : Volume) (c : Nat) : Prop :=
  ∃ q i l, v.Slot q i ∧ (v.table q i).filesize ≠ 0 ∧ v.SlotChain q i l ∧ l.getLast? = some c

/-- Besides the directories, cluster 1 and the last clusters of the files are marked as chain ends. -/
theorem chain_end_iff (wellFormed : k.disk.WellFormed) (inside : p < 512)
    (notDirectory : ¬ k.disk.volume.Directory p) :
    k.disk.fat p = fat32FatEndOfFile ↔ p = 1 ∨ LastOfFile k.disk.volume p := by
  have sound := wellFormed.sound.volume
  constructor
  · intro marked
    by_cases reserved : p < 2
    · left
      by_contra other
      obtain rfl : p = 0 := by omega
      exact absurd (sound.reserved0.symm.trans marked) (by decide)
    · have used : k.disk.volume.fat p ≠ 0 := by
        rw [Disk.volume_fat, marked]
        decide
      rcases wellFormed.volume.noLeak (by simp only [rootClusterNumber]; omega) inside used with
        rfl | ⟨q, i, l, slot, chain, member⟩
      · exact absurd .root notDirectory
      · refine .inr ⟨q, i, l, slot, ?_, chain, chain.getLast?_eq_some.mpr ⟨member, next_eq_none.mpr marked⟩⟩
        -- the one cluster of a folder is a directory
        intro folder
        have edge : k.disk.volume.Edge q i (k.disk.volume.table q i).cluster := ⟨slot, folder, rfl⟩
        obtain rfl := chain.unique (sound.folder_chain edge).1
        obtain rfl := List.mem_singleton.mp member
        exact notDirectory edge.directory_child
  · rintro (rfl | ⟨q, i, l, slot, _, chain, last⟩)
    · exact sound.reserved1
    · exact next_eq_none.mp (chain.getLast?_eq_some.mp last).2

/-- On a well-formed disk a write whose parent is not a directory is turned away unless the parent is
    cluster 1 or the last cluster of a file. -/
theorem parent_refused_iff (wellFormed : k.disk.WellFormed)
    (inside : request.parentClusterNumber.toNat < 512)
    (notDirectory : ¬ k.disk.volume.Directory request.parentClusterNumber.toNat) :
    ParentRefused k request ↔
      request.parentClusterNumber.toNat ≠ 1 ∧ ¬ LastOfFile k.disk.volume request.parentClusterNumber.toNat := by
  rw [← not_or, ← chain_end_iff wellFormed inside notDirectory]
  constructor
  · rintro ⟨k', answer, _⟩ valid
    rcases write_answer rfl inside valid answer with ⟨taken, _⟩ | ⟨new, _⟩
    · exact absurd taken (by decide)
    · exact absurd new (by decide)
  · intro invalid
    exact ⟨_, write_invalid_parent rfl inside invalid, rfl⟩

/-- A free cluster of a new file system is turned away. -/
theorem parent_refused_iff_free : ParentRefused zeroKernel ⟨fun _ => 0, text ['a'], fun _ => 0, 3, 0⟩ := by
  have only := fresh_zeroKernel.onlyRoot
  refine (parent_refused_iff fresh_zeroKernel.regular.wellFormed (by decide) ?_).mpr ⟨by decide, ?_⟩
  · exact fun directory => absurd (only.directory directory) (by decide)
  · rintro ⟨_, _, _, slot, _⟩
    exact only.no_slot slot

/-- The allocation table of a new file system, read as a directory table. -/
def freshFatEntries : FAT32DirectoryTable :=
  FAT32DirectoryTable.layout.symm (FAT32FileAllocationTable.layout freshFat)

theorem zeroKernel_table_one : zeroKernel.disk.table 1 = freshFatEntries := by
  have content : zeroKernel.disk.cluster 1 = FAT32FileAllocationTable.layout freshFat := by
    rw [zeroKernel, createFat32_eq]
    exact (Disk.cluster_setCluster_of_ne (by decide)).trans Disk.cluster_setCluster
  rw [Disk.table, content, freshFatEntries]

/-- A folder is created in the allocation table itself: its entry lies over clusters 0 to 7. -/
theorem folder_created_in_fat :
    let request : FAT32DriverRequest := ⟨fun _ => 0, text ['a'], fun _ => 0, 1, 0⟩
    zeroKernel.disk.WellFormed ∧ ¬ zeroKernel.disk.volume.Directory request.parentClusterNumber.toNat ∧
      ¬ ParentRefused zeroKernel request ∧
      ∃ k, write zeroKernel request = some (0, k) ∧ (k.disk.table 1 0).name = request.name := by
  intro request
  have fresh := fresh_zeroKernel
  have notDirectory : ¬ zeroKernel.disk.volume.Directory request.parentClusterNumber.toNat :=
    fun directory => absurd (fresh.onlyRoot.directory directory) (by decide)
  -- the entries over the first words of the table are not in use, and none has the name
  have slot : FirstFree (zeroKernel.disk.table 1) 0 := by
    rw [zeroKernel_table_one]
    exact ⟨by decide +kernel, fun j below => absurd below (by simp)⟩
  have new : findName (zeroKernel.disk.table 1) request.name = none := by
    rw [zeroKernel_table_one]
    have other : ∀ i, (freshFatEntries i).name 0 ≠ request.name 0 := by decide +kernel
    exact findName_none.mpr fun i same => other i (congrFun same 0)
  have valid : zeroKernel.disk.fat 1 = fat32FatEndOfFile := fresh.regular.sound.volume.reserved1
  have free : freeList zeroKernel.disk.fatTable = 3 :: List.range' 4 508 := fresh.freeList.trans List.range'_succ
  obtain ⟨k, answer, _, disk⟩ := write_folder (p := 1) rfl (by decide) valid rfl new free slot
  refine ⟨fresh.regular.wellFormed, notDirectory, ?_, k, answer, ?_⟩
  · rintro ⟨_, refused, _⟩
    rw [answer] at refused
    exact absurd (Prod.mk.inj (Option.some.inj refused)).1 (by decide)
  · rw [disk, Disk.table_setTable, Function.update_self]
    rfl

/-! ## Deleting what is not there -/

/-- No slot in use has what the request asks for: its name and, for a file, its extension. -/
def Unmatched (table : FAT32DirectoryTable) (request : FAT32DriverRequest) : Prop :=
  ∀ i, (table i).Live → (table i).name = request.name → request.bufferSize ≠ 0 ∧ (table i).ext ≠ request.ext

/-- The delete is answered with 1, and nothing is stored. -/
def NotFound (k : Kernel) (request : FAT32DriverRequest) : Prop :=
  ∃ k', delete k request = some (1, k') ∧ k'.disk = k.disk

/-- Free slots are zeros, so they match a request of zeros and no other. -/
theorem unmatched_absent_iff (sound : k.disk.Sound) (directory : k.disk.volume.Directory p)
    (unmatched : Unmatched (k.disk.table p) request) :
    findNameExt (k.disk.table p) request.name request.ext = none ↔
      (request.name = (fun _ => 0) → request.ext = (fun _ => 0) → ∀ i, (k.disk.table p i).Live) := by
  have empty {i : Fin 64} (vacant : ¬ (k.disk.table p i).Live) : k.disk.table p i = .zero :=
    sound.volume.free directory vacant
  rw [findNameExt_none]
  constructor
  · intro absent name ext i
    by_contra vacant
    have different := absent i
    rw [empty vacant, name, ext] at different
    exact different rfl rfl
  · intro full i name ext
    by_cases live : (k.disk.table p i).Live
    · exact (unmatched i live name).2 ext
    · rw [empty live] at name ext
      exact live (full name.symm ext.symm i)

/-- On a well-formed disk the delete of what is not there is turned away exactly on the file path, and
    there unless the name and the extension are zeros and a slot is free. -/
theorem not_found_iff (wellFormed : k.disk.WellFormed)
    (directory : k.disk.volume.Directory request.parentClusterNumber.toNat)
    (unmatched : Unmatched (k.disk.table request.parentClusterNumber.toNat) request) :
    NotFound k request ↔ request.bufferSize ≠ 0 ∧
      (request.name = (fun _ => 0) → request.ext = (fun _ => 0) →
        ∀ i, (k.disk.table request.parentClusterNumber.toNat i).Live) := by
  have inside := (wellFormed.sound.volume.directory_range directory).2
  rw [← unmatched_absent_iff wellFormed.sound directory unmatched, ← delete_answers_one_iff rfl inside]
  constructor
  · rintro ⟨k', answer, _⟩
    exact ⟨k', answer⟩
  · rintro ⟨k', answer⟩
    exact ⟨k', answer, delete_failed answer (by decide)⟩

/-- The file `x.t` is not found on a new file system. -/
theorem not_found_iff_file : NotFound zeroKernel ⟨fun _ => 0, text ['x'], text ['t'], 2, 1⟩ := by
  have wellFormed := fresh_zeroKernel.regular.wellFormed
  refine (not_found_iff wellFormed .root ?_).mpr ⟨by decide, fun name => absurd (congrFun name 0) (by decide)⟩
  intro i live name
  have unused : ¬ Taken freshRoot ⟨fun _ => 0, text ['x'], fun _ => 0, 2, 0⟩ :=
    not_taken_freshRoot (by decide) (by decide)
  exact absurd ⟨i, fresh_zeroKernel.root ▸ name, fun size => absurd rfl size⟩ unused

/-- The delete of a folder that is not there is answered with 0: slot 0 of the root is cleared and cluster
    0 is freed. -/
theorem missing_folder_deleted :
    let request : FAT32DriverRequest := ⟨fun _ => 0, text ['x'], fun _ => 0, 2, 0⟩
    zeroKernel.disk.WellFormed ∧ zeroKernel.disk.volume.Directory request.parentClusterNumber.toNat ∧
      Unmatched (zeroKernel.disk.table request.parentClusterNumber.toNat) request ∧
      ¬ NotFound zeroKernel request ∧
      ∃ k, delete zeroKernel request = some (0, k) ∧ k.disk.table 2 0 = .zero ∧ k.disk.fat 0 = 0 := by
  intro request
  have wellFormed := fresh_zeroKernel.regular.wellFormed
  have unmatched : Unmatched (zeroKernel.disk.table request.parentClusterNumber.toNat) request := by
    intro i _ name
    have absent : ¬ Taken freshRoot request := not_taken_freshRoot (by decide) (by decide)
    exact (absent ⟨i, fresh_zeroKernel.root ▸ name, fun size => absurd rfl size⟩).elim
  obtain ⟨k, answer, table, fat⟩ := delete_missing_zeroKernel request rfl rfl (by decide) (by decide)
  refine ⟨wellFormed, .root, unmatched, ?_, k, answer, ?_, ?_⟩
  · rintro ⟨_, refused, _⟩
    rw [answer] at refused
    exact absurd (Prod.mk.inj (Option.some.inj refused)).1 (by decide)
  · rw [table, Function.update_self]
  · rw [fat, Function.update_self]

end Brother420.Fat32
