import Brother420.Fat32.Regular

/-! # Formatting and mounting

What `create_fat32` leaves on a zeroed driver state, whatever the disk held
before: a regular file system with an empty root.
-/

namespace Brother420.Fat32

open Packed (Bytes Layout)
open Kernel Volume

/-- The allocation table of a new file system. -/
def freshFat : FAT32FileAllocationTable :=
  Function.update (Function.update (Function.update (fun _ => 0) 0 cluster0Value) 1 cluster1Value) 2 fat32FatEndOfFile

/-- Its root directory. -/
def freshRoot : FAT32DirectoryTable :=
  initDirectoryTable (fun _ => .zero) rootName rootClusterNumber

/-- A disk after it was formatted. -/
def freshDisk (disk : Disk) : Disk :=
  Disk.setTable (Disk.setFat (Memory.store disk 0 fsSignature) freshFat) rootClusterNumber freshRoot

/-- The kernel just after it formatted a disk. -/
def Fresh (k : Kernel) : Prop := ∃ disk memoryAfter, k = createFat32 ⟨disk, .zero, memoryAfter⟩

/-- Nothing is in use but the root. -/
structure OnlyRoot (v : Volume) : Prop where
  reserved0 : v.fat 0 = cluster0Value
  reserved1 : v.fat 1 = cluster1Value
  root : v.fat rootClusterNumber = fat32FatEndOfFile
  live : (v.table rootClusterNumber 0).Live
  self : (v.table rootClusterNumber 0).cluster = rootClusterNumber
  free : ∀ i ≠ 0, v.table rootClusterNumber i = .zero

/-- A volume whose tables are those of a new file system. -/
structure Blank (v : Volume) : Prop where
  fat : v.fat = FAT32FileAllocationTable.at freshFat
  root : v.table rootClusterNumber = freshRoot

variable {v : Volume} {p : Nat} {i : Fin 64}

theorem createFat32_eq (disk : Disk) (memoryAfter : Memory) :
    createFat32 ⟨disk, .zero, memoryAfter⟩ =
      ⟨freshDisk disk, ⟨freshFat, fun _ => .zero, fun _ => 0⟩, memoryAfter⟩ := by
  simp only [createFat32, storeFat_eq, writeClusters_eq (show 2 < 2 ^ 26 by decide)]
  rfl

theorem freshDisk_boot (disk : Disk) : (freshDisk disk).bootSector = fsSignature :=
  (Disk.bootSector_setCluster (by decide)).trans
    ((Disk.bootSector_setCluster (by decide)).trans (Memory.bytes_store _))

theorem freshDisk_fatTable (disk : Disk) : (freshDisk disk).fatTable = freshFat :=
  (Disk.fatTable_setCluster (by decide)).trans Disk.fatTable_setFat

theorem freshDisk_blank (disk : Disk) : Blank (freshDisk disk).volume where
  fat := (Disk.fat_setTable (by decide)).trans Disk.fat_setFat
  root := Disk.table_setTable

theorem freshFat_free {c : Nat} (lower : 3 ≤ c) : FAT32FileAllocationTable.at freshFat c = 0 := by
  by_cases inside : c < 512
  · have not0 : (⟨c, inside⟩ : Fin 512) ≠ 0 := fun same => by simp [Fin.ext_iff] at same; omega
    have not1 : (⟨c, inside⟩ : Fin 512) ≠ 1 := fun same => by simp [Fin.ext_iff] at same; omega
    have not2 : (⟨c, inside⟩ : Fin 512) ≠ 2 := fun same => by simp [Fin.ext_iff] at same; omega
    simp [FAT32FileAllocationTable.at, inside, freshFat, not0, not1, not2]
  · simp [FAT32FileAllocationTable.at, inside]

theorem freshRoot_other (entry : i ≠ 0) : freshRoot i = .zero := initDirectoryTable_other entry

theorem freeList_freshFat : freeList freshFat = List.range' 3 509 := by
  -- of the 512 clusters only the first three are taken
  have split : List.range' 0 512 = List.range' 0 3 ++ List.range' 3 509 := by
    rw [List.range'_append]
  have kept :
      (List.range' 3 509).filter (fun c => FAT32FileAllocationTable.at freshFat c == 0) = List.range' 3 509 := by
    apply List.filter_eq_self.mpr
    intro c member
    rw [freshFat_free (List.mem_range'_1.mp member).1]
    rfl
  rw [freeList, Search.hits, split, List.filter_append, kept]
  rfl

theorem firstFree_freshRoot : FirstFree freshRoot 1 := firstFree_initDirectoryTable

theorem not_taken_freshRoot {request : FAT32DriverRequest} (notRoot : request.name ≠ rootName)
    (named : request.name ≠ fun _ => 0) : ¬ Taken freshRoot request := by
  rintro ⟨i, name, _⟩
  by_cases here : i = 0
  · exact notRoot (here ▸ name).symm
  · rw [freshRoot_other here] at name
    exact named name.symm

/-- The self entry is all that is in use in a new root. -/
theorem newName_freshRoot {request : FAT32DriverRequest} (notRoot : request.name ≠ rootName) :
    NewName freshRoot request := by
  intro i live name
  by_cases here : i = 0
  · exact absurd (here ▸ name).symm notRoot
  · rw [freshRoot_other here] at live
    exact absurd live FAT32DirectoryEntry.not_live_zero

theorem fsSignature_ascii : ∀ i, fsSignature i ≠ uattrNotEmpty := by
  decide +kernel

theorem Blank.onlyRoot (blank : Blank v) : OnlyRoot v where
  reserved0 := by rw [blank.fat]; rfl
  reserved1 := by rw [blank.fat]; rfl
  root := by rw [blank.fat]; rfl
  live := by rw [blank.root]; rfl
  self := by
    rw [blank.root]
    exact cluster_initDirectoryTable (by decide)
  free i entry := by rw [blank.root, freshRoot_other entry]

namespace OnlyRoot

variable (only : OnlyRoot v)
include only

theorem vacant (entry : i ≠ 0) : ¬ (v.table rootClusterNumber i).Live := by
  rw [only.free i entry]
  exact FAT32DirectoryEntry.not_live_zero

theorem directory (directory : v.Directory p) : p = rootClusterNumber := by
  induction directory with
  | root => rfl
  | child parent entry live folder ih =>
    subst ih
    exact absurd live (only.vacant entry)

theorem no_slot : ¬ v.Slot p i := by
  rintro ⟨directory, entry, live⟩
  rw [only.directory directory] at live
  exact only.vacant entry live

theorem live_self (directory : v.Directory p) (live : (v.table p i).Live) : i = 0 := by
  by_contra entry
  exact only.no_slot ⟨directory, entry, live⟩

protected theorem sound : v.Sound where
  reserved0 := only.reserved0
  reserved1 := only.reserved1
  root := only.root
  self := by
    intro p directory
    rw [only.directory directory]
    exact ⟨only.live, only.self⟩
  free := by
    intro p i directory vacant
    obtain rfl := only.directory directory
    apply only.free
    rintro rfl
    exact vacant only.live
  chain slot := absurd slot only.no_slot
  disjoint slot := absurd slot only.no_slot

protected theorem regular (fat : v.fat = FAT32FileAllocationTable.at freshFat) : v.Regular where
  toSound := only.sound
  rootless edge := only.no_slot edge.toSlot
  tree edge := absurd edge.toSlot only.no_slot
  unique directory live live' _ _ := by
    rw [only.live_self directory live, only.live_self directory live']
  noLeak := by
    intro c lower _ used
    left
    by_contra other
    rw [fat, freshFat_free (by simp [rootClusterNumber] at lower other; omega)] at used
    exact used rfl
  named slot := absurd slot only.no_slot
  plain slot := absurd slot only.no_slot

end OnlyRoot

theorem Fresh.regular {k : Kernel} (fresh : Fresh k) : k.disk.Regular := by
  obtain ⟨disk, memoryAfter, rfl⟩ := fresh
  rw [createFat32_eq]
  exact ⟨freshDisk_boot disk, (freshDisk_blank disk).onlyRoot.regular (freshDisk_blank disk).fat⟩

theorem Fresh.blank {k : Kernel} (fresh : Fresh k) : Blank k.disk.volume := by
  obtain ⟨disk, memoryAfter, rfl⟩ := fresh
  rw [createFat32_eq]
  exact freshDisk_blank disk

theorem Fresh.onlyRoot {k : Kernel} (fresh : Fresh k) : OnlyRoot k.disk.volume := fresh.blank.onlyRoot

theorem Fresh.cached {k : Kernel} (fresh : Fresh k) : k.driverState.fatTable = k.disk.fatTable := by
  obtain ⟨disk, memoryAfter, rfl⟩ := fresh
  rw [createFat32_eq]
  exact (freshDisk_fatTable disk).symm

theorem Fresh.root {k : Kernel} (fresh : Fresh k) : k.disk.table rootClusterNumber = freshRoot := fresh.blank.root

theorem Fresh.freeList {k : Kernel} (fresh : Fresh k) :
    Fat32.freeList k.disk.fatTable = List.range' 3 509 := by
  obtain ⟨disk, memoryAfter, rfl⟩ := fresh
  rw [createFat32_eq, freshDisk_fatTable]
  exact freeList_freshFat

/-- A disk of zeros, formatted. -/
def zeroKernel : Kernel := createFat32 ⟨fun _ => 0, .zero, fun _ => 0⟩

theorem fresh_zeroKernel : Fresh zeroKernel := ⟨_, _, rfl⟩

/-- Formatting writes block 0 only of cluster 0. -/
theorem freshDisk_cluster0 (disk : Disk) :
    Disk.cluster (freshDisk disk) 0 = Disk.cluster (Memory.store disk 0 fsSignature) 0 :=
  (Disk.cluster_setCluster_of_ne (by decide)).trans (Disk.cluster_setCluster_of_ne (by decide))

/-- Read as a directory table, cluster 0 of the disk of zeros shows no entry in use. -/
theorem zeroKernel_boot_vacant : occupied (zeroKernel.disk.table 0) = false := by
  have boot : zeroKernel.disk.table 0 = Disk.table (Memory.store (fun _ => 0) 0 fsSignature) 0 :=
    Disk.table_congr (by rw [zeroKernel, createFat32_eq]; exact freshDisk_cluster0 _)
  by_contra busy
  obtain ⟨i, _, live⟩ := occupied_iff.mp (by simpa using busy)
  rw [boot, FAT32DirectoryEntry.Live, Disk.table_userAttribute] at live
  -- the first 16 entries lie in the signature, which is text; the others are zeros
  by_cases inside : 12 + 32 * i.val < 512
  · rw [Memory.store_inside (by omega) (by omega)] at live
    exact absurd live (fsSignature_ascii _)
  · rw [Memory.store_outside (by omega)] at live
    exact absurd live (by decide)

/-! ## Mounting -/

theorem isEmptyStorage_eq_false {k : Kernel} (boot : k.disk.bootSector = fsSignature) :
    isEmptyStorage k = false := by
  simp [isEmptyStorage, boot, memcmp_eq_zero_iff.mpr rfl]

/-- On a disk without the signature, mounting formats it. -/
theorem initialize_fresh {disk : Disk} {memoryAfter : Memory} (empty : disk.bootSector ≠ fsSignature) :
    Fresh (initializeFilesystemFat32 ⟨disk, .zero, memoryAfter⟩) := by
  have missing : isEmptyStorage ⟨disk, .zero, memoryAfter⟩ = true := by
    simp [isEmptyStorage, memcmp_eq_zero_iff, empty]
  rw [initializeFilesystemFat32, if_pos missing]
  exact ⟨_, _, rfl⟩

/-- On a disk with the signature, mounting only loads the allocation table. -/
theorem initialize_eq {k : Kernel} (boot : k.disk.bootSector = fsSignature) :
    initializeFilesystemFat32 k = { k with driverState.fatTable := k.disk.fatTable } := by
  rw [initializeFilesystemFat32, isEmptyStorage_eq_false boot, if_neg (by decide), loadFat, readClusters_eq (by decide)]
  rfl

end Brother420.Fat32
