import Brother420.Fat32.Driver
import Brother420.Fat32.Volume

/-! # The volume on a disk, and the driver's accesses to it

`Disk.volume` reads a disk as a volume.  The lemmas say what the cluster
transfers and the accesses to `driver_state` do at indices inside the file
system, so that the functions of the driver need not be unfolded further.
-/

namespace Brother420

open Packed (Bytes Layout)
open Fat32

namespace Fat32

/-- An allocation table as a function of the cluster number. -/
def FAT32FileAllocationTable.at (t : FAT32FileAllocationTable) (c : Nat) : UInt32 :=
  if h : c < 512 then t ⟨c, h⟩ else 0

def FAT32FileAllocationTable.set (t : FAT32FileAllocationTable) (c : Nat) (value : UInt32) :
    FAT32FileAllocationTable :=
  if h : c < 512 then Function.update t ⟨c, h⟩ value else t

theorem FAT32FileAllocationTable.at_set (t : FAT32FileAllocationTable) {c : Nat} (inside : c < 512)
    (value : UInt32) :
    FAT32FileAllocationTable.at (t.set c value) =
    Function.update (FAT32FileAllocationTable.at t) c value := by
  rw [FAT32FileAllocationTable.set, dif_pos inside]
  funext x
  by_cases same : x = c
  · subst same
    simp [FAT32FileAllocationTable.at, inside]
  · rw [Function.update_of_ne same]
    by_cases bound : x < 512
    · have apart : (⟨x, bound⟩ : Fin 512) ≠ ⟨c, inside⟩ := fun eq => same (Fin.mk.inj eq)
      simp [FAT32FileAllocationTable.at, bound, Function.update_of_ne apart]
    · simp [FAT32FileAllocationTable.at, bound]

end Fat32

namespace Disk

/-- The allocation table stored in cluster 1. -/
def fatTable (d : Disk) : FAT32FileAllocationTable :=
  FAT32FileAllocationTable.layout.symm (d.cluster fatClusterNumber)

def fat (d : Disk) (c : Nat) : UInt32 := FAT32FileAllocationTable.at d.fatTable c

/-- Cluster `c` read as a directory table. -/
def table (d : Disk) (c : Nat) : FAT32DirectoryTable :=
  FAT32DirectoryTable.layout.symm (d.cluster c)

def volume (d : Disk) : Volume := ⟨d.fat, d.table⟩

@[simp] theorem volume_fat (d : Disk) : d.volume.fat = d.fat := rfl

@[simp] theorem volume_table (d : Disk) : d.volume.table = d.table := rfl

/-- The disk holds a file system whose structure lookups can rely on. -/
structure Sound (d : Disk) : Prop where
  boot : d.bootSector = fsSignature
  volume : d.volume.Sound

/-- The disk holds a well-formed file system. -/
structure WellFormed (d : Disk) : Prop where
  boot : d.bootSector = fsSignature
  volume : d.volume.WellFormed

theorem WellFormed.sound {d : Disk} (wellFormed : d.WellFormed) : d.Sound :=
  ⟨wellFormed.boot, wellFormed.volume.toSound⟩

/-- Store an allocation table in cluster 1. -/
def setFat (d : Disk) (t : FAT32FileAllocationTable) : Disk :=
  d.setCluster fatClusterNumber (FAT32FileAllocationTable.layout t)

/-- Store a directory table in cluster `c`. -/
def setTable (d : Disk) (c : Nat) (t : FAT32DirectoryTable) : Disk :=
  d.setCluster c (FAT32DirectoryTable.layout t)

variable {d d' : Disk} {c c' : Nat} {data : ClusterBuffer} {t : FAT32DirectoryTable} {m : FAT32FileAllocationTable}

@[simp] theorem fatTable_setFat : (d.setFat m).fatTable = m := by
  simp [fatTable, setFat]

@[simp] theorem fat_setFat : (d.setFat m).fat = FAT32FileAllocationTable.at m := by
  funext x
  simp [fat]

theorem fatTable_setCluster (different : c ≠ 1) : (d.setCluster c data).fatTable = d.fatTable := by
  rw [fatTable, fatClusterNumber, cluster_setCluster_of_ne (Ne.symm different), fatTable, fatClusterNumber]

theorem fat_setCluster (different : c ≠ 1) : (d.setCluster c data).fat = d.fat := by
  funext x
  rw [fat, fatTable_setCluster different, fat]

theorem fat_setTable (different : c ≠ 1) : (d.setTable c t).fat = d.fat := fat_setCluster different

theorem table_setCluster (different : c' ≠ c) : (d.setCluster c data).table c' = d.table c' := by
  rw [table, cluster_setCluster_of_ne different, table]

@[simp] theorem table_setTable : (d.setTable c t).table c = t := by
  simp [table, setTable]

theorem table_setTable_of_ne (different : c' ≠ c) : (d.setTable c t).table c' = d.table c' :=
  table_setCluster different

/-- Storing a table changes nothing exactly if the table is what stands there. -/
theorem setTable_eq_self_iff : d.setTable c t = d ↔ d.table c = t := by
  constructor
  · intro same
    have there : (d.setTable c t).table c = t := table_setTable
    rwa [same] at there
  · rintro rfl
    simp only [setTable, table, Equiv.apply_symm_apply]
    exact Memory.store_bytes

theorem setTable_comm {t' : FAT32DirectoryTable} (different : c ≠ c') :
    (d.setTable c t).setTable c' t' = (d.setTable c' t').setTable c t := setCluster_comm different

theorem table_congr (same : d'.cluster c = d.cluster c) : d'.table c = d.table c := by
  rw [table, same, table]

/-- Byte 12 of an entry says whether it is in use. -/
theorem table_userAttribute (d : Disk) (c : Nat) (i : Fin 64) :
    (d.table c i).userAttribute = d (2048 * c + (12 + 32 * i.val)) := rfl

end Disk

namespace Fat32.Kernel

variable {k : Kernel} {c i : Nat} {data : ClusterBuffer} {value : UInt32} {e : FAT32DirectoryEntry}

/-- Of a cluster number 26 bits reach the drive. -/
theorem clusterAddress_mod : blockSize * (c * 4 % 2 ^ 32 % 2 ^ 28) = 2048 * (c % 2 ^ 26) := by
  rw [blockSize]
  omega

theorem clusterAddress (inside : c < 2 ^ 26) :
    blockSize * (c * 4 % 2 ^ 32 % 2 ^ 28) = 2048 * c := by
  rw [clusterAddress_mod, Nat.mod_eq_of_lt inside]

theorem readClusters_eq (inside : c < 2 ^ 26) : k.readClusters c = k.disk.cluster c := by
  rw [readClusters, Disk.readBlocks, clusterAddress inside]
  rfl

theorem writeClusters_eq (inside : c < 2 ^ 26) :
    k.writeClusters data c = { k with disk := k.disk.setCluster c data } := by
  change { k with disk := @Memory.store 2048 k.disk (blockSize * (c * 4 % 2 ^ 32 % 2 ^ 28)) data } = _
  rw [clusterAddress inside]
  rfl

theorem load_eq (inside : c < 2 ^ 26) :
    k.load c = { k with driverState := ⟨k.disk.fatTable, k.disk.table c, k.driverState.clusterBuf⟩ } := by
  have fatInside : fatClusterNumber < 2 ^ 26 := by decide
  rw [load, loadFat, loadDirTable, readClusters_eq inside, readClusters_eq fatInside]
  rfl

theorem load_fatTable (inside : c < 2 ^ 26) : (k.load c).driverState.fatTable = k.disk.fatTable := by
  rw [load_eq inside]

theorem load_dirTableBuf (inside : c < 2 ^ 26) : (k.load c).driverState.dirTableBuf = k.disk.table c := by
  rw [load_eq inside]

theorem storeFat_eq : k.storeFat = { k with disk := k.disk.setFat k.driverState.fatTable } := by
  rw [storeFat, writeClusters_eq (by decide)]
  rfl

theorem storeDirTable_eq (inside : c < 2 ^ 26) :
    k.storeDirTable c = { k with disk := k.disk.setTable c k.driverState.dirTableBuf } := by
  rw [storeDirTable, writeClusters_eq inside]
  rfl

theorem clusterMap_eq (inside : i < 512) :
    k.clusterMap i = FAT32FileAllocationTable.at k.driverState.fatTable i := by
  simp [clusterMap, FAT32FileAllocationTable.at, inside]

/-- An entry is looked up in the table that was just loaded. -/
theorem load_clusterMap (inside : c < 2 ^ 26) (bound : i < 512) : (k.load c).clusterMap i = k.disk.fat i := by
  rw [clusterMap_eq bound, load_fatTable inside]
  rfl

theorem setClusterMap_eq (inside : i < 512) :
    k.setClusterMap i value =
    some { k with driverState.fatTable := k.driverState.fatTable.set i value } := by
  simp [setClusterMap, FAT32FileAllocationTable.set, inside]

theorem tableEntry_eq (inside : i < 64) :
    k.tableEntry i = k.driverState.dirTableBuf ⟨i, inside⟩ := by
  simp [tableEntry, inside]

theorem setTableEntry_eq (inside : i < 64) :
    k.setTableEntry i e =
      some { k with driverState.dirTableBuf := Function.update k.driverState.dirTableBuf ⟨i, inside⟩ e } := by
  simp [setTableEntry, inside]

end Fat32.Kernel

end Brother420
