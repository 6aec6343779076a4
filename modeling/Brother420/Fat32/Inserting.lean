import Brother420.Ata
import Brother420.Fat32.Booting
import Brother420.Fat32.TornFormats

/-! # The inserter

`external-inserter.c` runs the same file system on an image of the disk.  With it
the shell is put on a new image, from which the kernel then boots.  Its driver
copies from and to the image and checks no bounds; the clusters that it is asked
for all lie inside the image.
-/

namespace Brother420.Fat32

open Packed (Bytes)
open Linked (Chain)
open Kernel Volume

/-! ## Its driver -/

/-- The image has 4 MiB. -/
def imageSize : Nat := 4 * 1024 * 1024

section Driver

variable {image ptr : Memory} {logicalBlockAddress : UInt32} {blockCount : UInt8}
  (inside : logicalBlockAddress.toNat + blockCount.toNat ≤ 8192)

include inside

/-- Inside the image its driver reads what the drive would. -/
theorem inserter_readBlocks :
    Ata.inserterReadBlocks image imageSize ptr logicalBlockAddress blockCount =
      some (ptr.store 0 (Disk.readBlocks image logicalBlockAddress.toNat blockCount.toNat)) := by
  rw [Ata.inserterReadBlocks_copies image ptr (by omega) (by simp only [blockSize, imageSize]; omega), Memory.copy,
    Disk.readBlocks, Nat.mod_eq_of_lt (by omega)]

variable (logicalBlockAddress blockCount) in
/-- And it writes what the drive would. -/
theorem inserter_writeBlocks (data : Bytes (blockSize * blockCount.toNat)) :
    Ata.inserterWriteBlocks image imageSize (ptr.store 0 data) logicalBlockAddress blockCount =
      some (Disk.writeBlocks image data logicalBlockAddress.toNat) := by
  rw [Ata.inserterWriteBlocks_copies image _ (by omega) (by simp only [blockSize, imageSize]; omega), Memory.copy,
    Memory.bytes_store, Disk.writeBlocks, Nat.mod_eq_of_lt (by omega)]

end Driver

/-- `read_clusters(ptr, cluster, 1)` -/
def inserterReadCluster (image : Disk) (ptr : Memory) (clusterNumber : Nat) : Option Memory :=
  Ata.inserterReadBlocks image imageSize ptr (UInt32.ofNat (clusterNumber * 4)) 4

/-- `write_clusters(ptr, cluster, 1)`, where `ptr` points to the data. -/
def inserterWriteCluster (image : Disk) (w : ClusterWrite) : Option Disk :=
  Ata.inserterWriteBlocks image imageSize (Memory.store (fun _ => 0) 0 w.data) (UInt32.ofNat (w.clusterNumber * 4)) 4

/-! ## The program -/

def isSpace (b : UInt8) : Bool := b = 32 || (9 ≤ b && b ≤ 13)

/-- `sscanf(arg, "%8s", name)` into an array of zeros. -/
def scanName (arg : List UInt8) : Bytes 8 := fun i => ((arg.dropWhile isSpace).takeWhile fun b => !isSpace b).getD i 0

/-- What `fread` leaves in the buffer: the file, and behind it what was there before. -/
def fileBuffer (contents : List UInt8) (before : Memory) : Memory := fun a => contents.getD a (before a)

def inserterRequest (arg : List UInt8) (parentClusterNumber : UInt32) (contents : List UInt8) (before : Memory) :
    FAT32DriverRequest :=
  ⟨fileBuffer contents before, scanName arg, fun _ => 0, parentClusterNumber, UInt32.ofNat contents.length⟩

/-- `main`: the code of the write and the image that is stored back. -/
def inserterMain (image : Disk) (memoryAfter : Memory) (arg : List UInt8) (parentClusterNumber : UInt32)
    (contents : List UInt8) (before : Memory) : Option (Int8 × Disk) := do
  let (code, k) ← write (initializeFilesystemFat32 ⟨image, .zero, memoryAfter⟩)
    (inserterRequest arg parentClusterNumber contents before)
  some (code, k.disk)

variable {image : Disk} {ptr : Memory} {w : ClusterWrite} {log : List ClusterWrite} {k k' : Kernel}
  {request : FAT32DriverRequest} {arg contents : List UInt8} {before memoryAfter : Memory} {parentClusterNumber : UInt32} {c n : Nat} {l rest : List Nat}

theorem contents_fileBuffer : (List.range contents.length).map (fileBuffer contents before) = contents := by
  apply List.ext_getElem (by simp)
  intro a _ inside
  simp [fileBuffer, inside]

/-- The word `shell`. -/
def shellArg : List UInt8 := ['s', 'h', 'e', 'l', 'l'].map Char.toUInt8

/-- A shell of 11 to 502 clusters, put on an image without a file system, is what every start of the kernel loads. -/
theorem inserted_shell_boots (empty : image.bootSector ≠ fsSignature) (long : 20480 < contents.length)
    (short : contents.length ≤ 1028096) (unmarked : Unmarked contents) (memoryAfter before : Memory) :
    ∃ image', inserterMain image memoryAfter shellArg 2 contents before = some (0, image') ∧
      ∀ driverState memoryAfter, ∃ k, setup image' driverState memoryAfter = some k ∧ LoadsShell k contents ∧
        HoldsTree k.disk (addAll (Function.update newTree [(text ['s', 'h', 'e', 'l', 'l'], fun _ => 0)]
          (some (.file contents))) setupRequests) ∧
        ∀ driverState memoryAfter, ∃ k', setup k.disk driverState memoryAfter = some k' ∧ k'.disk = k.disk ∧
          LoadsShell k' contents := by
  have fresh : Fresh (initializeFilesystemFat32 ⟨image, .zero, memoryAfter⟩) := initialize_fresh empty
  generalize found : inserterRequest shellArg 2 contents before = request
  have size : request.bufferSize.toNat = contents.length := by
    rw [← found]
    exact Nat.mod_eq_of_lt (by omega)
  have same : request.contents = contents := by
    rw [FAT32DriverRequest.contents, size, ← found]
    exact contents_fileBuffer
  have name : request.name = text ['s', 'h', 'e', 'l', 'l'] := by
    rw [← found]
    exact show scanName shellArg = text ['s', 'h', 'e', 'l', 'l'] by decide
  have parent : request.parentClusterNumber.toNat = rootClusterNumber := by
    rw [← found]
    rfl
  have long : 20480 < request.bufferSize.toNat := by omega
  obtain ⟨file, count⟩ := needed_long long
  obtain ⟨k, answer, written⟩ := write_fresh fresh parent (by rw [name]; decide) (by rw [name]; decide) (by omega)
  have bootable := bootable_written answer written long fresh parent (by omega) (same ▸ unmarked)
  have entry : request.entryName = (text ['s', 'h', 'e', 'l', 'l'], fun _ => 0) := by
    rw [entryName_file file, name, ← found]
    rfl
  rw [entry, newNode_file file, same] at bootable
  refine ⟨k.disk, ?_, fun driverState memoryAfter => ?_⟩
  · simp only [inserterMain, found, answer, Option.bind_eq_bind, Option.bind_some]
  · obtain ⟨k', started, holds, loads, again⟩ :=
      setup_loads_shell bootable (Function.update_self _ _ _) (by omega) driverState memoryAfter
    exact ⟨k', started, loads, holds, again⟩

/-- The image is all zeros, and so is the shell. -/
theorem inserted_shell_boots_zeros :
    ∃ image', inserterMain (fun _ => 0) (fun _ => 0) shellArg 2 (List.replicate 22528 0) (fun _ => 0) = some (0, image') ∧
      ∃ k, setup image' .zero (fun _ => 0) = some k ∧ LoadsShell k (List.replicate 22528 0) := by
  have empty : Disk.bootSector (fun _ => 0) ≠ fsSignature := by
    intro same
    exact absurd (congrFun same 0) (by decide)
  have length : (List.replicate 22528 (0 : UInt8)).length = 22528 := List.length_replicate
  obtain ⟨image', inserted, boots⟩ :=
    inserted_shell_boots empty (by omega) (by omega) unmarked_zeros (fun _ => 0) fun _ => 0
  obtain ⟨k, started, loads, _⟩ := boots .zero fun _ => 0
  exact ⟨image', inserted, k, started, loads⟩

/-! ## The calls of its driver -/

theorem blockNumber_toNat (inside : c < 2048) : (UInt32.ofNat (c * 4)).toNat = c * 4 :=
  UInt32.toNat_ofNat_of_lt' (by simp [UInt32.size]; omega)

/-- The image has 2048 clusters. -/
theorem inserterReadCluster_eq (inside : c < 2048) (ptr : Memory) :
    inserterReadCluster k.disk ptr c = some (ptr.store 0 (k.readClusters c)) := by
  have place := blockNumber_toNat inside
  refine (inserter_readBlocks (by rw [place]; exact show c * 4 + 4 ≤ 8192 by omega)).trans ?_
  rw [place, Kernel.readClusters, Nat.mod_eq_of_lt (show c * 4 < 2 ^ 32 by omega)]
  rfl

theorem inserterWriteCluster_eq (inside : w.clusterNumber < 2048) :
    inserterWriteCluster image w = some (image.writeCluster w) := by
  have place := blockNumber_toNat inside
  have last : w.clusterNumber * 4 + (4 : UInt8).toNat ≤ 8192 := show w.clusterNumber * 4 + 4 ≤ 8192 by omega
  refine (inserter_writeBlocks _ 4 (by rwa [place]) w.data).trans ?_
  rw [place, Disk.writeCluster, Nat.mod_eq_of_lt (show w.clusterNumber * 4 < 2 ^ 32 by omega)]

/-- Induction on the writes. -/
theorem inserterWriteCluster_all (inside : ∀ w ∈ log, w.clusterNumber < 2048) :
    log.foldlM inserterWriteCluster image = some (image.writeAll log) := by
  induction log generalizing image with
  | nil => rfl
  | cons w log ih =>
    rw [List.foldlM_cons, inserterWriteCluster_eq (inside w List.mem_cons_self)]
    exact ih fun w later => inside w (List.mem_cons_of_mem _ later)

/-- What `main` asks of its driver on an image without a file system stays inside the 4 MiB that it has allocated, and
    the driver then does what the drive would: the block of the signature is read and written, `create_fat32` stores its
    clusters, and `write` reads the tables of the root and of the clusters and stores its own. -/
theorem inserterMain_inside (empty : image.bootSector ≠ fsSignature) (named : scanName arg ≠ fun _ => 0)
    (notRoot : scanName arg ≠ rootName) (short : contents.length ≤ 1042432) (before : Memory)
    (mounted : initializeFilesystemFat32 ⟨image, .zero, memoryAfter⟩ = k) :
    (∀ ptr, Ata.inserterReadBlocks image imageSize ptr 0 1 = some (ptr.store 0 image.bootSector)) ∧
    (∃ signed, Ata.inserterWriteBlocks image imageSize (Memory.store (fun _ => 0) 0 fsSignature) 0 1 = some signed ∧
      (createLog ⟨image, .zero, memoryAfter⟩).foldlM inserterWriteCluster signed = some k.disk) ∧
    (∀ ptr c, c = rootClusterNumber ∨ c = fatClusterNumber →
      inserterReadCluster k.disk ptr c = some (ptr.store 0 (k.readClusters c))) ∧
    ∃ image', (writeLog k (inserterRequest arg 2 contents before)).foldlM inserterWriteCluster k.disk = some image' ∧
      inserterMain image memoryAfter arg 2 contents before = some (0, image') := by
  subst mounted
  have fresh : Fresh (initializeFilesystemFat32 ⟨image, .zero, memoryAfter⟩) := initialize_fresh empty
  have formatted : initializeFilesystemFat32 ⟨image, .zero, memoryAfter⟩ = createFat32 ⟨image, .zero, memoryAfter⟩ := by
    have missing : isEmptyStorage ⟨image, .zero, memoryAfter⟩ = true := by
      simp [isEmptyStorage, memcmp_eq_zero_iff, empty]
    rw [initializeFilesystemFat32, if_pos missing]
  have room : needed (inserterRequest arg 2 contents before).bufferSize ≤ 509 := by
    have size : (inserterRequest arg 2 contents before).bufferSize.toNat = contents.length :=
      Nat.mod_eq_of_lt (by omega)
    unfold needed
    split
    · decide
    · rw [totalCluster_eq, size]
      omega
  obtain ⟨k', answer, written⟩ :=
    write_fresh fresh (show (inserterRequest arg 2 contents before).parentClusterNumber.toNat = 2 from rfl) named
      notRoot room
  refine ⟨?_, ⟨_, inserter_writeBlocks 0 1 (by decide) fsSignature, ?_⟩, ?_, k'.disk, ?_, ?_⟩
  · exact fun ptr => (inserter_readBlocks (by decide)).trans rfl
  · rw [formatted]
    refine (inserterWriteCluster_all fun w member => ?_).trans rfl
    simp only [createLog, List.mem_cons, List.not_mem_nil, or_false] at member
    obtain rfl | rfl := member
    · exact show fatClusterNumber < 2048 by decide
    · exact show 2 < 2048 by decide
  · rintro ptr c (rfl | rfl)
    · exact inserterReadCluster_eq (by decide) ptr
    · exact inserterReadCluster_eq (by decide) ptr
  · rw [inserterWriteCluster_all fun w member => Nat.lt_trans
      (written.writeLog_inside fresh.regular.sound rfl answer w member) (by decide), writeAll_writeLog answer]
  · simp only [inserterMain, answer, Option.bind_eq_bind, Option.bind_some]

end Brother420.Fat32
