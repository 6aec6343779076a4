import Brother420.Fat32.Types
import Brother420.Library.Search

/-! # The FAT32 driver

The functions of `fat32.c`.  `driver_state` is one packed structure, so an index
past the end of `cluster_map` or of `dir_table_buf` meets its next member, and
past the last member whatever the kernel keeps behind it.  The driver only reads
there in a run that this model follows: a store behind `driver_state`, and a
search that no word of memory stops, are the result `none`.
-/

namespace Brother420.Fat32

open Packed (Bytes Layout)

structure FAT32DriverState where
  fatTable : FAT32FileAllocationTable
  dirTableBuf : FAT32DirectoryTable
  clusterBuf : ClusterBuffer

/-- `driver_state` as the loader leaves it in `.bss`. -/
def FAT32DriverState.zero : FAT32DriverState := ⟨fun _ => 0, fun _ => .zero, fun _ => 0⟩

/-- The memory `buf` points to is part of the request. -/
structure FAT32DriverRequest where
  buf : Memory
  name : Bytes 8
  ext : Bytes 3
  parentClusterNumber : UInt32
  bufferSize : UInt32

/-- What the driver works on: the disk, its own state, and the memory behind that
    state, which holds no request buffer. -/
structure Kernel where
  disk : Disk
  driverState : FAT32DriverState
  memoryAfter : Memory

/-! ## Signature -/

def signatureText : List Char :=
  ['C', 'o', 'u', 'r', 's', 'e', ' ', ' ', ' ', ' ', ' ', ' ', ' ', ' ', ' ',  ' ',
   'D', 'e', 's', 'i', 'g', 'n', 'e', 'd', ' ', 'b', 'y', ' ', ' ', ' ', ' ',  ' ',
   'L', 'a', 'b', ' ', 'S', 'i', 's', 't', 'e', 'r', ' ', 'I', 'T', 'B', ' ',  ' ',
   'M', 'a', 'd', 'e', ' ', 'w', 'i', 't', 'h', ' ', '<', '3', ' ', ' ', ' ',  ' ',
   '-', '-', '-', '-', '-', '-', '-', '-', '-', '-', '-', '2', '0', '2', '3', '\n']

/-- The characters from `[BLOCK_SIZE-200]` on. -/
def signatureFlag : List Char :=
  ['F', 'A', 'C', 'T', '{', 'c', 'h', '1', '2', 'u', 'r', 'u', '_', '1', '5', '_', 'b', '3', '5', 't', '_', '6',
   '1', 'r', 'l', ':', 'D', '}']

def fsSignature : Bytes 512 := fun i =>
  if i.val < 80 then UInt8.ofNat (signatureText.getD i.val ' ').toNat
  else if 312 ≤ i.val ∧ i.val < 340 then UInt8.ofNat (signatureFlag.getD (i.val - 312) ' ').toNat
  else if i.val = 510 then 'O'.toUInt8
  else if i.val = 511 then 'k'.toUInt8
  else 0

def rootName : Bytes 8 := text ['R', 'O', 'O', 'T']

namespace Kernel

/-! ## The words and entries of driver_state -/

/-- `driver_state.fat_table.cluster_map[i]` -/
def clusterMap (k : Kernel) (i : Nat) : UInt32 :=
  if h : i < 512 then k.driverState.fatTable ⟨i, h⟩
  else if h : i < 1024 then
    FAT32FileAllocationTable.layout.symm (FAT32DirectoryTable.layout k.driverState.dirTableBuf) ⟨i - 512, by omega⟩
  else if h : i < 1536 then FAT32FileAllocationTable.layout.symm k.driverState.clusterBuf ⟨i - 1024, by omega⟩
  else Layout.word32.symm (k.memoryAfter.bytes (4 * (i - 1536)) 4)

/-- `driver_state.fat_table.cluster_map[i] = v` -/
def setClusterMap (k : Kernel) (i : Nat) (v : UInt32) : Option Kernel :=
  if h : i < 512 then
    some { k with driverState.fatTable := Function.update k.driverState.fatTable ⟨i, h⟩ v }
  else if h : i < 1024 then
    let words := FAT32FileAllocationTable.layout.symm (FAT32DirectoryTable.layout k.driverState.dirTableBuf)
    let bytes := FAT32FileAllocationTable.layout (Function.update words ⟨i - 512, by omega⟩ v)
    some { k with driverState.dirTableBuf := FAT32DirectoryTable.layout.symm bytes }
  else if h : i < 1536 then
    let words := FAT32FileAllocationTable.layout.symm k.driverState.clusterBuf
    some { k with
      driverState.clusterBuf :=
        FAT32FileAllocationTable.layout (Function.update words ⟨i - 1024, by omega⟩ v) }
  else none

/-- `driver_state.dir_table_buf.table[i]` -/
def tableEntry (k : Kernel) (i : Nat) : FAT32DirectoryEntry :=
  if h : i < 64 then k.driverState.dirTableBuf ⟨i, h⟩
  else if h : i < 128 then FAT32DirectoryTable.layout.symm k.driverState.clusterBuf ⟨i - 64, by omega⟩
  else FAT32DirectoryEntry.layout.symm (k.memoryAfter.bytes (32 * (i - 128)) 32)

/-- `driver_state.dir_table_buf.table[i] = e` -/
def setTableEntry (k : Kernel) (i : Nat) (e : FAT32DirectoryEntry) : Option Kernel :=
  if h : i < 64 then
    some { k with driverState.dirTableBuf := Function.update k.driverState.dirTableBuf ⟨i, h⟩ e }
  else if h : i < 128 then
    let entries := FAT32DirectoryTable.layout.symm k.driverState.clusterBuf
    some { k with
      driverState.clusterBuf :=
        FAT32DirectoryTable.layout (Function.update entries ⟨i - 64, by omega⟩ e) }
  else none

/-! ## Clusters -/

/-- Every call in the program moves one cluster. -/
def readClusters (k : Kernel) (clusterNumber : Nat) : ClusterBuffer :=
  k.disk.readBlocks (clusterNumber * 4 % 2 ^ 32) 4

def writeClusters (k : Kernel) (data : ClusterBuffer) (clusterNumber : Nat) : Kernel :=
  { k with disk := @Disk.writeBlocks 4 k.disk data (clusterNumber * 4 % 2 ^ 32) }

/-- `read_clusters(&driver_state.dir_table_buf, cluster, 1)` -/
def loadDirTable (k : Kernel) (clusterNumber : Nat) : Kernel :=
  { k with driverState.dirTableBuf := FAT32DirectoryTable.layout.symm (k.readClusters clusterNumber) }

/-- `read_clusters(&driver_state.fat_table, 1, 1)` -/
def loadFat (k : Kernel) : Kernel :=
  { k with driverState.fatTable := FAT32FileAllocationTable.layout.symm (k.readClusters fatClusterNumber) }

/-- The buffers as `read`, `write` and `delete` fill them first. -/
def load (k : Kernel) (parent : Nat) : Kernel := (k.loadDirTable parent).loadFat

/-- `write_clusters(driver_state.fat_table.cluster_map, 1, 1)` -/
def storeFat (k : Kernel) : Kernel :=
  k.writeClusters (FAT32FileAllocationTable.layout k.driverState.fatTable) fatClusterNumber

/-- `write_clusters(driver_state.dir_table_buf.table, cluster, 1)` -/
def storeDirTable (k : Kernel) (clusterNumber : Nat) : Kernel :=
  k.writeClusters (FAT32DirectoryTable.layout k.driverState.dirTableBuf) clusterNumber

end Kernel

open Kernel

/-! ## Formatting and mounting -/

def initDirectoryTable (dirTable : FAT32DirectoryTable) (name : Bytes 8) (parentDirCluster : Nat) :
    FAT32DirectoryTable :=
  Function.update dirTable 0
    { dirTable 0 with
      clusterHigh := UInt16.ofNat (parentDirCluster >>> 16)
      clusterLow := UInt16.ofNat (parentDirCluster &&& 0xFFFF)
      name := name
      userAttribute := uattrNotEmpty }

def isEmptyStorage (k : Kernel) : Bool := memcmp k.disk.bootSector fsSignature ≠ 0

def createFat32 (k : Kernel) : Kernel :=
  let k := { k with disk := Memory.store k.disk 0 fsSignature }
  let fatTable := Function.update (Function.update (Function.update k.driverState.fatTable
    0 cluster0Value) 1 cluster1Value) 2 fat32FatEndOfFile
  let k := { k with driverState.fatTable := fatTable }
  let k := k.storeFat
  let rootDirTable := initDirectoryTable (fun _ => .zero) rootName 2
  k.writeClusters (FAT32DirectoryTable.layout rootDirTable) 2

def initializeFilesystemFat32 (k : Kernel) : Kernel :=
  if isEmptyStorage k then createFat32 k else k.loadFat

/-! ## Reading -/

/-- The first slot of a table whose name is the request's. -/
def findName (table : FAT32DirectoryTable) (name : Bytes 8) : Option (Fin 64) :=
  Fin.find? fun i => memcmp (table i).name name == 0

/-- The first slot of a table whose name and extension are the request's. -/
def findNameExt (table : FAT32DirectoryTable) (name : Bytes 8) (ext : Bytes 3) : Option (Fin 64) :=
  Fin.find? fun i => memcmp (table i).name name == 0 && memcmp (table i).ext ext == 0

/-- The number of clusters that hold `size` bytes. -/
def totalCluster (size : UInt32) : Nat :=
  let whole := size.toNat / clusterSize
  if whole * clusterSize < size.toNat then whole + 1 else whole

def readDirectory (k : Kernel) (request : FAT32DriverRequest) : Int8 × Kernel × Memory :=
  let k := k.loadDirTable request.parentClusterNumber.toNat
  match findName k.driverState.dirTableBuf request.name with
  | none => (0, k, request.buf)
  | some i =>
    let entry := k.driverState.dirTableBuf i
    if request.bufferSize < entry.filesize then (2, k, request.buf)
    else if entry.attributeByte = 1 then (1, k, request.buf)
    else
      let k := k.storeDirTable request.parentClusterNumber.toNat
      (0, k, request.buf.store 0 (k.readClusters entry.cluster))

/-- The copying loop of `read` from iteration `j` on. -/
def readLoop (k : Kernel) : (remaining j location : Nat) → Memory → Memory
  | 0, _, _, buf => buf
  | remaining + 1, j, location, buf =>
    if j = 0 then
      readLoop k remaining (j + 1) location (buf.store (clusterSize * j) (k.readClusters location))
    else
      let next := (k.clusterMap location).toNat
      readLoop k remaining (j + 1) next (buf.store (clusterSize * j) (k.readClusters next))

def read (k : Kernel) (request : FAT32DriverRequest) : Int8 × Kernel × Memory :=
  let k := k.load request.parentClusterNumber.toNat
  match findNameExt k.driverState.dirTableBuf request.name request.ext with
  | none => (0, k, request.buf)
  | some i =>
    let entry := k.driverState.dirTableBuf i
    if request.bufferSize < entry.filesize then (2, k, request.buf)
    else if entry.attributeByte = 1 then (1, k, request.buf)
    else
      let buf := readLoop k (totalCluster entry.filesize) 0 entry.cluster request.buf
      (0, k.storeDirTable request.parentClusterNumber.toNat, buf)

/-! ## Writing -/

/-- `while (cluster_map[cluster] != 0) cluster++`, with a 16-bit counter. -/
def freeCluster (k : Kernel) (start : Nat) : Option Nat :=
  Search.scan (fun i => k.clusterMap i == 0) (2 ^ 16) (2 ^ 16) (start % 2 ^ 16)

/-- `while (table[cluster_table].user_attribute == UATTR_NOT_EMPTY) cluster_table++` -/
def freeSlot (k : Kernel) : Option Nat :=
  Search.scan (fun i => (k.tableEntry i).userAttribute != uattrNotEmpty) (2 ^ 16) (2 ^ 16) 0

def writeFolder (k : Kernel) (request : FAT32DriverRequest) (cluster : Nat) :
    Option (Int8 × Kernel) :=
  if (findName k.driverState.dirTableBuf request.name).isSome then some (1, k)
  else do
    let k ← k.setClusterMap cluster fat32FatEndOfFile
    let k := k.storeFat
    let newDir := initDirectoryTable (fun _ => .zero) request.name cluster
    let k := k.writeClusters (FAT32DirectoryTable.layout newDir) cluster
    let clusterTable ← freeSlot k
    let k ← k.setTableEntry clusterTable (newDir 0)
    some (0, k.storeDirTable request.parentClusterNumber.toNat)

/-- The last cluster of a file, padded with zeros. -/
def lastCluster (request : FAT32DriverRequest) (i : Nat) : ClusterBuffer := fun j =>
  if j.val < request.bufferSize.toNat - clusterSize * i then request.buf (clusterSize * i + j.val) else 0

/-- Iteration `i` of the loop of `write` that places a file's clusters. -/
def placeCluster (request : FAT32DriverRequest) (totalCluster clusterTable i : Nat) (k : Kernel) :
    Option Kernel := do
  let cluster ← freeCluster k 0
  let clusterNext ← freeCluster k (cluster + 1)
  if i < totalCluster - 1 then
    let k ← k.setClusterMap cluster (UInt32.ofNat clusterNext)
    -- read after the store, which an index past the FAT puts into this very table
    let entry := k.tableEntry clusterTable
    let k ← k.setTableEntry clusterTable { entry with filesize := entry.filesize + 2048 }
    some (k.writeClusters (request.buf.bytes (clusterSize * i) 2048) cluster).storeFat
  else
    let k ← k.setClusterMap cluster fat32FatEndOfFile
    let rest := request.bufferSize - UInt32.ofNat (clusterSize * i)
    let entry := k.tableEntry clusterTable
    let k ← k.setTableEntry clusterTable { entry with filesize := entry.filesize + rest }
    some (k.writeClusters (lastCluster request i) cluster).storeFat

/-- The loop itself, from iteration `i` on. -/
def placeClusters (request : FAT32DriverRequest) (totalCluster clusterTable : Nat) :
    (remaining i : Nat) → Kernel → Option Kernel
  | 0, _, k => some k
  | remaining + 1, i, k => do
    let k ← placeCluster request totalCluster clusterTable i k
    placeClusters request totalCluster clusterTable remaining (i + 1) k

def writeFile (k : Kernel) (request : FAT32DriverRequest) (cluster : Nat) :
    Option (Int8 × Kernel) :=
  if (findNameExt k.driverState.dirTableBuf request.name request.ext).isSome then some (1, k)
  else do
    let total := totalCluster request.bufferSize
    let clusterTable ← freeSlot k
    let k ← k.setTableEntry clusterTable
      { k.tableEntry clusterTable with
        name := request.name
        ext := request.ext
        attributeByte := 0
        userAttribute := uattrNotEmpty
        clusterLow := UInt16.ofNat cluster }
    let k ← placeClusters request total clusterTable total 0 k
    some (0, k.storeDirTable request.parentClusterNumber.toNat)

def write (k : Kernel) (request : FAT32DriverRequest) : Option (Int8 × Kernel) :=
  let k := k.load request.parentClusterNumber.toNat
  if k.clusterMap request.parentClusterNumber.toNat ≠ fat32FatEndOfFile then some (2, k)
  else do
    let cluster ← freeCluster k 0
    if request.bufferSize = 0 then writeFolder k request cluster
    else writeFile k request cluster

/-! ## Deleting -/

/-- The slot and the cluster that the folder path of `delete` acts on: those of
    the first slot with the name, and 0 where there is none. -/
def folderTarget (table : FAT32DirectoryTable) (name : Bytes 8) : Fin 64 × Nat :=
  match findName table name with
  | some i => (i, (table i).cluster)
  | none => (0, 0)

/-- A slot other than the self entry is in use. -/
def occupied (table : FAT32DirectoryTable) : Bool :=
  (Fin.find? fun i => i ≠ 0 ∧ (table i).Live).isSome

def deleteFolder (k : Kernel) (request : FAT32DriverRequest) : Option (Int8 × Kernel) :=
  let target := folderTarget k.driverState.dirTableBuf request.name
  let tempTab := FAT32DirectoryTable.layout.symm (k.readClusters target.2)
  if occupied tempTab then some (2, k)
  else if memcmp request.name rootName = 0 then some (-1, k)
  else do
    let k := { k with driverState.dirTableBuf := Function.update k.driverState.dirTableBuf target.1 .zero }
    let k ← k.setClusterMap target.2 0
    some (0, k.storeFat.storeDirTable request.parentClusterNumber.toNat)

/-- The loop of `delete` that follows a chain and frees its clusters; `none` also
    when it is still going after `fuel` iterations. -/
def releaseChain : (fuel : Nat) → Kernel → (location : Nat) → Option Kernel
  | 0, _, _ => none
  | fuel + 1, k, location =>
    if k.clusterMap location = fat32FatEndOfFile then k.setClusterMap location 0
    else do
      let clusterTemp := location % 2 ^ 16
      let next := (k.clusterMap location).toNat
      let k ← k.setClusterMap clusterTemp 0
      releaseChain fuel k next

def deleteFile (k : Kernel) (request : FAT32DriverRequest) : Option (Int8 × Kernel) :=
  match findNameExt k.driverState.dirTableBuf request.name request.ext with
  | none => some (1, k)
  | some i => do
    let location := (k.driverState.dirTableBuf i).cluster
    let k := { k with driverState.dirTableBuf := Function.update k.driverState.dirTableBuf i .zero }
    let k ← releaseChain (2 ^ 16) k location
    some (0, k.storeFat.storeDirTable request.parentClusterNumber.toNat)

def delete (k : Kernel) (request : FAT32DriverRequest) : Option (Int8 × Kernel) :=
  let k := k.load request.parentClusterNumber.toNat
  if request.bufferSize = 0 then deleteFolder k request else deleteFile k request

end Brother420.Fat32
