import Brother420.Memory

/-! # The disk as the file system sees it

`read_blocks` and `write_blocks` move whole 512-byte blocks between a buffer and
the disk; of a block address the drive is sent 28 bits.  A cluster is four
consecutive blocks.
-/

namespace Brother420

open Packed (Bytes)

def blockSize : Nat := 512

/-- The bytes of the disk, block after block. -/
abbrev Disk := Memory

/-- struct ClusterBuffer -/
abbrev ClusterBuffer := Bytes 2048

namespace Disk

def readBlocks (d : Disk) (logicalBlockAddress blockCount : Nat) : Bytes (blockSize * blockCount) :=
  Memory.bytes d (blockSize * (logicalBlockAddress % 2 ^ 28)) _

def writeBlocks {blockCount : Nat} (d : Disk) (data : Bytes (blockSize * blockCount))
    (logicalBlockAddress : Nat) :
    Disk :=
  Memory.store d (blockSize * (logicalBlockAddress % 2 ^ 28)) data

/-- The contents of cluster `c`, blocks `4 * c` to `4 * c + 3`. -/
def cluster (d : Disk) (c : Nat) : ClusterBuffer := Memory.bytes d (2048 * c) 2048

def setCluster (d : Disk) (c : Nat) (data : ClusterBuffer) : Disk := Memory.store d (2048 * c) data

/-- Block 0, where the signature of a formatted disk is found. -/
def bootSector (d : Disk) : Bytes 512 := Memory.bytes d 0 512

variable {d d' : Disk} {c c' : Nat} {data data' : ClusterBuffer}

@[simp] theorem cluster_setCluster : (d.setCluster c data).cluster c = data :=
  Memory.bytes_store data

theorem cluster_setCluster_of_ne (different : c' ≠ c) :
    (d.setCluster c data).cluster c' = d.cluster c' :=
  Memory.bytes_store_apart (by omega)

theorem bootSector_setCluster (notBoot : c ≠ 0) : (d.setCluster c data).bootSector = d.bootSector :=
  Memory.bytes_store_apart (by omega)

theorem bootSector_congr (same : d.cluster 0 = d'.cluster 0) : d.bootSector = d'.bootSector := by
  funext i
  have there := congrFun same ⟨i, by omega⟩
  simpa [bootSector, cluster, Memory.bytes] using there

/-- Two disks with the same clusters are the same disk. -/
theorem ext_cluster (same : ∀ c, d.cluster c = d'.cluster c) : d = d' := by
  funext a
  have there := congrFun (same (a / 2048)) ⟨a % 2048, Nat.mod_lt _ (by omega)⟩
  simpa [cluster, Memory.bytes, Nat.div_add_mod] using there

theorem setCluster_comm (different : c ≠ c') :
    (d.setCluster c data).setCluster c' data' = (d.setCluster c' data').setCluster c data := by
  apply ext_cluster
  intro x
  by_cases first : x = c
  · subst first
    rw [cluster_setCluster_of_ne different, cluster_setCluster, cluster_setCluster]
  · by_cases second : x = c'
    · subst second
      rw [cluster_setCluster_of_ne (Ne.symm different), cluster_setCluster, cluster_setCluster]
    · simp only [cluster_setCluster_of_ne first, cluster_setCluster_of_ne second]

end Disk

end Brother420
