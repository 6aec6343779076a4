import Brother420.Fat32.Refusals
import Brother420.Library.Traces

/-! # The indices at which a write uses the allocation table

`write` looks for the free cluster behind the one that it takes even when it takes
the last one that it needs.  A file that leaves no free cluster behind its last
one makes this search leave the allocation table.
-/

namespace Brother420.Fat32

open Packed (Bytes Layout)
open Runs (Run)
open Traces (Traced)
open Traces.Traced (mem_used_bind)
open Kernel Volume

/-! ## The indices -/

/-- `driver_state.fat_table.cluster_map[i]` -/
def Kernel.clusterMapTraced (k : Kernel) (i : Nat) : Traced Nat UInt32 := .use i (some (k.clusterMap i))

/-- `driver_state.fat_table.cluster_map[i] = v` -/
def Kernel.setClusterMapTraced (k : Kernel) (i : Nat) (v : UInt32) : Traced Nat Kernel := .use i (k.setClusterMap i v)

def scanTraced (k : Kernel) : (fuel i : Nat) → Traced Nat Nat
  | 0, _ => .of none
  | fuel + 1, i => do
    if (← k.clusterMapTraced i) = 0 then return i
    else scanTraced k fuel ((i + 1) % 2 ^ 16)

/-- `while (cluster_map[cluster] != 0) cluster++` -/
def freeClusterTraced (k : Kernel) (start : Nat) : Traced Nat Nat := scanTraced k (2 ^ 16) (start % 2 ^ 16)

def placeClusterTraced (request : FAT32DriverRequest) (totalCluster clusterTable i : Nat) (k : Kernel) :
    Traced Nat Kernel := do
  let cluster ← freeClusterTraced k 0
  let clusterNext ← freeClusterTraced k (cluster + 1)
  if i < totalCluster - 1 then
    let k ← k.setClusterMapTraced cluster (UInt32.ofNat clusterNext)
    let entry := k.tableEntry clusterTable
    let k ← Traced.of (k.setTableEntry clusterTable { entry with filesize := entry.filesize + 2048 })
    return (k.writeClusters (request.buf.bytes (clusterSize * i) 2048) cluster).storeFat
  else
    let k ← k.setClusterMapTraced cluster fat32FatEndOfFile
    let rest := request.bufferSize - UInt32.ofNat (clusterSize * i)
    let entry := k.tableEntry clusterTable
    let k ← Traced.of (k.setTableEntry clusterTable { entry with filesize := entry.filesize + rest })
    return (k.writeClusters (lastCluster request i) cluster).storeFat

def placeClustersTraced (request : FAT32DriverRequest) (totalCluster clusterTable : Nat) :
    (remaining i : Nat) → Kernel → Traced Nat Kernel
  | 0, _, k => return k
  | remaining + 1, i, k => do
    let k ← placeClusterTraced request totalCluster clusterTable i k
    placeClustersTraced request totalCluster clusterTable remaining (i + 1) k

def writeFolderTraced (k : Kernel) (request : FAT32DriverRequest) (cluster : Nat) : Traced Nat (Int8 × Kernel) :=
  if (findName k.driverState.dirTableBuf request.name).isSome then return (1, k)
  else do
    let k ← k.setClusterMapTraced cluster fat32FatEndOfFile
    let k := k.storeFat
    let newDir := initDirectoryTable (fun _ => .zero) request.name cluster
    let k := k.writeClusters (FAT32DirectoryTable.layout newDir) cluster
    let clusterTable ← Traced.of (freeSlot k)
    let k ← Traced.of (k.setTableEntry clusterTable (newDir 0))
    return (0, k.storeDirTable request.parentClusterNumber.toNat)

def writeFileTraced (k : Kernel) (request : FAT32DriverRequest) (cluster : Nat) : Traced Nat (Int8 × Kernel) :=
  if (findNameExt k.driverState.dirTableBuf request.name request.ext).isSome then return (1, k)
  else do
    let total := totalCluster request.bufferSize
    let clusterTable ← Traced.of (freeSlot k)
    let k ← Traced.of (k.setTableEntry clusterTable (namedEntry (k.tableEntry clusterTable) request cluster))
    let k ← placeClustersTraced request total clusterTable total 0 k
    return (0, k.storeDirTable request.parentClusterNumber.toNat)

/-- `write`, with a trace of the indices at which it reads or writes `cluster_map`. -/
def writeTraced (k : Kernel) (request : FAT32DriverRequest) : Traced Nat (Int8 × Kernel) := do
  let k := k.load request.parentClusterNumber.toNat
  if (← k.clusterMapTraced request.parentClusterNumber.toNat) ≠ fat32FatEndOfFile then return (2, k)
  else
    let cluster ← freeClusterTraced k 0
    if request.bufferSize = 0 then writeFolderTraced k request cluster
    else writeFileTraced k request cluster

/-- Every `i` for which `write` reads or writes `cluster_map[i]`, in order. -/
def writeIndices (k : Kernel) (request : FAT32DriverRequest) : List Nat := (writeTraced k request).used

/-- The write succeeds, and it uses the allocation table inside its bounds only. -/
structure StaysInside (k : Kernel) (request : FAT32DriverRequest) : Prop where
  answer : ∃ k', write k request = some (0, k')
  inside : ∀ i ∈ writeIndices k request, i < clusterMapSize

variable {k : Kernel} {request : FAT32DriverRequest} {c d p x i j total : Nat} {l rest : List Nat} {s : Fin 64}

/-! ## What is traced is the write -/

@[simp] theorem result_clusterMapTraced : (k.clusterMapTraced i).result = some (k.clusterMap i) := rfl

@[simp] theorem used_clusterMapTraced : (k.clusterMapTraced i).used = [i] := rfl

@[simp] theorem result_setClusterMapTraced {value : UInt32} :
    (k.setClusterMapTraced i value).result = k.setClusterMap i value := rfl

@[simp] theorem used_setClusterMapTraced {value : UInt32} : (k.setClusterMapTraced i value).used = [i] := rfl

theorem scanTraced_eq {fuel : Nat} :
    scanTraced k fuel i = ⟨Search.visited (fun i => k.clusterMap i == 0) (2 ^ 16) fuel i,
      Search.scan (fun i => k.clusterMap i == 0) (2 ^ 16) fuel i⟩ := by
  induction fuel generalizing i with
  | zero => rfl
  | succ fuel ih =>
    have step : scanTraced k (fuel + 1) i =
        ⟨i :: (if k.clusterMap i = 0 then return i else scanTraced k fuel ((i + 1) % 2 ^ 16) : Traced Nat Nat).used,
          (if k.clusterMap i = 0 then return i else scanTraced k fuel ((i + 1) % 2 ^ 16) : Traced Nat Nat).result⟩ := rfl
    rw [step, Search.visited, Search.scan, ih]
    by_cases zero : k.clusterMap i = 0
    · simp only [zero, ↓reduceIte, BEq.rfl]
      rfl
    · simp only [zero, ↓reduceIte, beq_iff_eq]

@[simp] theorem result_freeClusterTraced {start : Nat} : (freeClusterTraced k start).result = freeCluster k start := by
  rw [freeClusterTraced, scanTraced_eq, freeCluster]

theorem used_freeClusterTraced {start : Nat} : (freeClusterTraced k start).used =
    Search.visited (fun i => k.clusterMap i == 0) (2 ^ 16) (2 ^ 16) (start % 2 ^ 16) := by
  rw [freeClusterTraced, scanTraced_eq]

theorem result_placeClusterTraced :
    (placeClusterTraced request total x i k).result = placeCluster request total x i k := by
  simp only [placeClusterTraced, placeCluster, Traced.result_bind, apply_ite Traced.result, result_freeClusterTraced,
    result_setClusterMapTraced, Traced.result_of, Traced.result_pure, Option.bind_eq_bind]

theorem result_placeClustersTraced {remaining : Nat} :
    (placeClustersTraced request total x remaining i k).result = placeClusters request total x remaining i k := by
  induction remaining generalizing i k with
  | zero => rfl
  | succ remaining ih =>
    simp only [placeClustersTraced, placeClusters, Traced.result_bind, result_placeClusterTraced, ih, Option.bind_eq_bind]

/-- The trace does not change what is computed. -/
theorem result_writeTraced : (writeTraced k request).result = write k request := by
  simp only [writeTraced, write, writeFolderTraced, writeFolder, writeFileTraced, writeFile, namedEntry,
    Traced.result_bind, apply_ite Traced.result, result_clusterMapTraced, result_freeClusterTraced,
    result_setClusterMapTraced, result_placeClustersTraced, Traced.result_of, Traced.result_pure, Option.bind_eq_bind,
    Option.bind_some]

/-! ## Searches -/

theorem freeClusterTraced_zero_lt (free : freeList k.driverState.fatTable = c :: rest)
    (member : x ∈ (freeClusterTraced k 0).used) : x < 512 := by
  rw [used_freeClusterTraced] at member
  obtain ⟨inside, zero⟩ := freeList_head free
  have found : (k.clusterMap c == 0) = true := by rw [clusterMap_eq inside, zero]; rfl
  have bound := Search.visited_le (j := c) found (by omega) (by omega) member
  omega

theorem freeClusterTraced_next_lt (free : freeList k.driverState.fatTable = c :: d :: rest)
    (member : x ∈ (freeClusterTraced k (c + 1)).used) : x < 512 := by
  obtain ⟨_, inside, _, _, tail⟩ := Search.hits_cons free
  have behind : d ∈ Search.hits (fun i => FAT32FileAllocationTable.at k.driverState.fatTable i == 0) (c + 1)
      (0 + 512 - (c + 1)) := tail ▸ List.mem_cons_self
  obtain ⟨⟨lower, upper⟩, zero⟩ := Search.mem_hits.mp behind
  have found : (k.clusterMap d == 0) = true := by rw [clusterMap_eq (by omega), beq_iff_eq.mp zero]; rfl
  have start : (c + 1) % 2 ^ 16 = c + 1 := Nat.mod_eq_of_lt (by omega)
  rw [used_freeClusterTraced, start] at member
  have bound := Search.visited_le found (by omega) lower member
  omega

/-- Behind the only free cluster the search goes on to index 512. -/
theorem freeClusterTraced_past (free : freeList k.driverState.fatTable = [c]) :
    512 ∈ (freeClusterTraced k (c + 1)).used := by
  obtain ⟨_, inside, _, _, tail⟩ := Search.hits_cons free
  have start : (c + 1) % 2 ^ 16 = c + 1 := Nat.mod_eq_of_lt (by omega)
  rw [used_freeClusterTraced, start]
  apply Search.mem_visited (by decide) (by omega) (by omega)
  intro i lower upper
  by_contra hit
  have member : i ∈ Search.hits (fun i => FAT32FileAllocationTable.at k.driverState.fatTable i == 0) (c + 1)
      (0 + 512 - (c + 1)) := by
    refine Search.mem_hits.mpr ⟨⟨lower, by omega⟩, ?_⟩
    rw [clusterMap_eq upper] at hit
    simpa using hit
  rw [← tail] at member
  cases member

/-! ## The loop -/

/-- Two searches, and the store at what the first of them found. -/
theorem mem_placeClusterTraced : x ∈ (placeClusterTraced request total j i k).used ↔
    x ∈ (freeClusterTraced k 0).used ∨ ∃ cluster, freeCluster k 0 = some cluster ∧
      (x ∈ (freeClusterTraced k (cluster + 1)).used ∨
        ∃ next, freeCluster k (cluster + 1) = some next ∧ x = cluster) := by
  simp only [placeClusterTraced, mem_used_bind, result_freeClusterTraced]
  refine or_congr_right (exists_congr fun cluster => and_congr_right fun _ => or_congr_right (exists_congr fun next =>
    and_congr_right fun _ => ?_))
  split <;> simp [mem_used_bind]

theorem placeClusterTraced_lt (free : freeList k.driverState.fatTable = c :: d :: rest)
    (member : x ∈ (placeClusterTraced request total j i k).used) : x < 512 := by
  simp only [mem_placeClusterTraced, freeCluster_zero free, Option.some.injEq, exists_eq_left',
    freeCluster_next free] at member
  rcases member with first | second | rfl
  · exact freeClusterTraced_zero_lt free first
  · exact freeClusterTraced_next_lt free second
  · exact (freeList_head free).1

theorem placeClusterTraced_past (free : freeList k.driverState.fatTable = [c]) :
    512 ∈ (placeClusterTraced request total j i k).used :=
  mem_placeClusterTraced.mpr (.inr ⟨c, freeCluster_zero free, .inl (freeClusterTraced_past free)⟩)

/-- Induction on the clusters still to be placed; the last iteration needs one more free cluster. -/
theorem placeClustersTraced_lt (free : freeList k.driverState.fatTable = l ++ rest) (more : rest ≠ [])
    (count : i + l.length = total) (full : clusterSize * (total - 1) ≤ request.bufferSize.toNat)
    (member : x ∈ (placeClustersTraced request total s l.length i k).used) : x < 512 := by
  induction l generalizing k i with
  | nil => cases member
  | cons c l ih =>
    rw [List.length_cons, placeClustersTraced, mem_used_bind, result_placeClusterTraced] at member
    cases l with
    | nil =>
      obtain ⟨d, rest, rfl⟩ := List.exists_cons_of_ne_nil more
      rcases member with here | ⟨_, _, later⟩
      · exact placeClusterTraced_lt free here
      · cases later
    | cons d l =>
      simp only [List.length_cons] at count
      have atLeast : clusterSize * (i + 1) ≤ clusterSize * (total - 1) := Nat.mul_le_mul_left _ (by omega)
      obtain ⟨k₁, step, continued⟩ :=
        placeCluster_next (s := s) (by omega : i + 1 < total) (Nat.le_trans atLeast full) free
      simp only [step, Option.some.injEq, exists_eq_left'] at member
      rcases member with here | later
      · exact placeClusterTraced_lt free here
      · exact ih (continued.fat ▸ freeList_set free (freeList_second free).2)
          (by simp only [List.length_cons]; omega) later

/-- When the loop takes all free clusters, its last iteration looks behind the table. -/
theorem placeClustersTraced_past (nonempty : l ≠ []) (free : freeList k.driverState.fatTable = l)
    (count : i + l.length = total) (full : clusterSize * (total - 1) ≤ request.bufferSize.toNat) :
    512 ∈ (placeClustersTraced request total s l.length i k).used := by
  induction l generalizing k i with
  | nil => exact absurd rfl nonempty
  | cons c l ih =>
    rw [List.length_cons, placeClustersTraced, mem_used_bind, result_placeClusterTraced]
    cases l with
    | nil => exact .inl (placeClusterTraced_past free)
    | cons d l =>
      simp only [List.length_cons] at count
      have atLeast : clusterSize * (i + 1) ≤ clusterSize * (total - 1) := Nat.mul_le_mul_left _ (by omega)
      have used : UInt32.ofNat d ≠ 0 := (freeList_second (free.trans (List.append_nil _).symm)).2
      obtain ⟨k₁, step, continued⟩ :=
        placeCluster_next (s := s) (by omega : i + 1 < total) (Nat.le_trans atLeast full) free
      exact .inr ⟨k₁, step, ih (by simp) (continued.fat ▸ freeList_set free used) (by simp only [List.length_cons]; omega)⟩

/-- The loop stays inside the table exactly if it leaves a cluster free. -/
theorem placeClustersTraced_inside_iff (positive : 0 < total) (enough : total ≤ (freeList k.driverState.fatTable).length)
    (full : clusterSize * (total - 1) ≤ request.bufferSize.toNat) :
    (∀ x ∈ (placeClustersTraced request total s total 0 k).used, x < 512) ↔
      total < (freeList k.driverState.fatTable).length := by
  constructor
  · intro stays
    by_contra exhausted
    have all : (freeList k.driverState.fatTable).length = total := by omega
    have past : 512 ∈ (placeClustersTraced request total s (freeList k.driverState.fatTable).length 0 k).used :=
      placeClustersTraced_past (List.ne_nil_of_length_pos (by omega)) rfl ((Nat.zero_add _).trans all) full
    rw [all] at past
    exact absurd (stays 512 past) (by decide)
  · intro more x member
    have length : ((freeList k.driverState.fatTable).take total).length = total := List.length_take_of_le enough
    have left : (freeList k.driverState.fatTable).drop total ≠ [] := by
      apply List.ne_nil_of_length_pos
      rw [List.length_drop]
      omega
    exact placeClustersTraced_lt (s := s) (List.take_append_drop _ _).symm left
      ((Nat.zero_add _).trans length) full (by rw [length]; exact member)

/-! ## The whole write -/

section Write

variable (parent : request.parentClusterNumber.toNat = p) (inside : p < 512)
  (valid : k.disk.fat p = fat32FatEndOfFile) (free : freeList k.disk.fatTable = c :: l)
include parent inside valid free

theorem mem_writeIndices :
    x ∈ writeIndices k request ↔ x = p ∨ x ∈ (freeClusterTraced (k.load p) 0).used ∨
      x ∈ (if request.bufferSize = 0 then writeFolderTraced (k.load p) request c
        else writeFileTraced (k.load p) request c).used := by
  have chainEnd : (k.load p).clusterMap p = fat32FatEndOfFile := (load_clusterMap (by omega) inside).trans valid
  have first : freeCluster (k.load p) 0 = some c := freeCluster_zero ((freeList_load (by omega)).trans free)
  simp only [writeIndices, writeTraced, parent, mem_used_bind, used_clusterMapTraced, List.mem_singleton,
    result_clusterMapTraced, Option.some.injEq, exists_eq_left', chainEnd, ne_eq, not_true_eq_false, ↓reduceIte,
    result_freeClusterTraced, first]

theorem writeIndices_folder_lt (folder : request.bufferSize = 0) (member : x ∈ writeIndices k request) : x < 512 := by
  rw [mem_writeIndices parent inside valid free, if_pos folder] at member
  rcases member with rfl | search | taken
  · exact inside
  · exact freeClusterTraced_zero_lt ((freeList_load (by omega)).trans free) search
  · unfold writeFolderTraced at taken
    split at taken
    · cases taken
    · obtain rfl : x = c := by simpa [mem_used_bind] using taken
      exact (freeList_head free).1

/-- For a new file the loop works on the table as it was loaded. -/
theorem writeIndices_file (file : request.bufferSize ≠ 0)
    (new : findNameExt (k.disk.table p) request.name request.ext = none) (slot : FirstFree (k.disk.table p) s) :
    ∃ k₁ : Kernel, k₁.driverState.fatTable = k.disk.fatTable ∧ ∀ x, x ∈ writeIndices k request ↔
      x = p ∨ x ∈ (freeClusterTraced (k.load p) 0).used ∨
        x ∈ (placeClustersTraced request (totalCluster request.bufferSize) s (totalCluster request.bufferSize) 0
          k₁).used := by
  have table : (k.load p).driverState.dirTableBuf = k.disk.table p := load_dirTableBuf (by omega)
  have place : freeSlot (k.load p) = some s.val := freeSlot_eq (by rw [table]; exact slot)
  have absent : (findNameExt (k.load p).driverState.dirTableBuf request.name request.ext).isSome = false := by
    rw [table, new]
    rfl
  obtain ⟨k₁, entered, cached⟩ : ∃ k₁, (k.load p).setTableEntry s (namedEntry ((k.load p).tableEntry s) request c) =
      some k₁ ∧ k₁.driverState.fatTable = k.disk.fatTable := by
    rw [setTableEntry_eq s.isLt]
    exact ⟨_, rfl, load_fatTable (by omega)⟩
  refine ⟨k₁, cached, fun x => ?_⟩
  rw [mem_writeIndices parent inside valid free, if_neg file, writeFileTraced]
  simp [absent, place, entered, mem_used_bind]

end Write

/-- A new write that has room stays inside the allocation table exactly if it creates a folder or leaves a
    cluster free. -/
theorem staysInside_new (wellFormed : k.disk.WellFormed)
    (directory : k.disk.volume.Directory request.parentClusterNumber.toNat)
    (room : Room k.disk request.parentClusterNumber.toNat request.bufferSize)
    (new : ¬ Taken (k.disk.table request.parentClusterNumber.toNat) request) :
    StaysInside k request ↔
      request.bufferSize = 0 ∨ needed request.bufferSize < (freeList k.disk.fatTable).length := by
  have sound := wellFormed.sound
  have inside := (sound.volume.directory_range directory).2
  have valid := sound.volume.directory_fat directory
  obtain ⟨s, slot⟩ := firstFree_of_vacant room.slot
  obtain ⟨k', _, _, _, wrote, _⟩ := write_accepted sound directory rfl room new
  obtain ⟨c, l, free⟩ := List.exists_cons_of_length_pos (Nat.lt_of_lt_of_le needed_pos room.clusters)
  by_cases folder : request.bufferSize = 0
  · refine iff_of_true ⟨⟨k', wrote⟩, ?_⟩ (.inl folder)
    intro x member
    exact writeIndices_folder_lt rfl inside valid free folder member
  · have absent := findNameExt_of_new folder new
    obtain ⟨k₁, cached, indices⟩ := writeIndices_file rfl inside valid free folder absent slot
    have count : needed request.bufferSize = totalCluster request.bufferSize := if_neg folder
    have full : clusterSize * (totalCluster request.bufferSize - 1) ≤ request.bufferSize.toNat := by
      rw [totalCluster_eq, clusterSize]
      omega
    have enough := room.clusters
    have positive : 0 < needed request.bufferSize := needed_pos
    rw [count] at enough positive ⊢
    rw [← cached] at enough ⊢
    rw [← placeClustersTraced_inside_iff (s := s) positive enough full]
    simp only [folder, false_or]
    constructor
    · exact fun stays x member => stays.inside x ((indices x).mpr (.inr (.inr member)))
    · refine fun loop => ⟨⟨k', wrote⟩, fun x member => ?_⟩
      rcases (indices x).mp member with rfl | search | member
      · exact inside
      · exact freeClusterTraced_zero_lt ((freeList_load (by omega)).trans free) search
      · exact loop x member

/-- On a well-formed disk with room, a write under a name that no slot in use has stays inside the allocation
    table exactly if the name is not all zeros and the write creates a folder or leaves a cluster free. -/
theorem stays_inside_iff (wellFormed : k.disk.WellFormed)
    (directory : k.disk.volume.Directory request.parentClusterNumber.toNat)
    (room : Room k.disk request.parentClusterNumber.toNat request.bufferSize)
    (new : NewName (k.disk.table request.parentClusterNumber.toNat) request) :
    StaysInside k request ↔ ¬ request.Unnamed ∧
      (request.bufferSize = 0 ∨ needed request.bufferSize < (freeList k.disk.fatTable).length) := by
  obtain ⟨s, vacant⟩ := room.slot
  have taken := taken_iff_unnamed wellFormed.sound directory new vacant
  by_cases unnamed : request.Unnamed
  · refine iff_of_false ?_ fun named => named.1 unnamed
    rintro ⟨⟨k', answer⟩, _⟩
    rw [write_refused wellFormed.sound directory rfl room (taken.mpr unnamed)] at answer
    exact absurd (Prod.mk.inj (Option.some.inj answer)).1 (by decide)
  · rw [staysInside_new wellFormed directory room (mt taken.mp unnamed)]
    exact (and_iff_right unnamed).symm

theorem length_freeList_zeroKernel : (freeList zeroKernel.disk.fatTable).length = 509 := by
  rw [fresh_zeroKernel.freeList, List.length_range']

theorem room_zeroKernel {size : UInt32} (fits : needed size ≤ 509) : Room zeroKernel.disk rootClusterNumber size where
  slot := ⟨1, by rw [fresh_zeroKernel.root]; exact firstFree_freshRoot.1⟩
  clusters := by rwa [length_freeList_zeroKernel]

/-- A file of one byte on a new file system. -/
theorem stays_inside_iff_small : StaysInside zeroKernel ⟨fun _ => 1, text ['a'], text ['t'], 2, 1⟩ := by
  have room : Room zeroKernel.disk rootClusterNumber 1 := room_zeroKernel (by decide)
  have new : ¬ Taken (zeroKernel.disk.table rootClusterNumber) ⟨fun _ => 1, text ['a'], text ['t'], 2, 1⟩ :=
    fresh_zeroKernel.root ▸ not_taken_freshRoot (by decide) (by decide)
  refine (@stays_inside_iff zeroKernel ⟨fun _ => 1, text ['a'], text ['t'], 2, 1⟩
    fresh_zeroKernel.regular.wellFormed .root room (newName_of_not_taken new)).mpr ⟨?_, .inr ?_⟩
  · exact fun zeros => absurd (congrFun zeros.1 0) (by decide)
  · rw [length_freeList_zeroKernel]
    decide

/-- The file `a.t` that takes all 509 clusters of a new file system. -/
def fillingFile : FAT32DriverRequest := ⟨fun _ => 0, text ['a'], text ['t'], 2, 1042432⟩

theorem needed_fillingFile : needed fillingFile.bufferSize = 509 := by decide

theorem newName_fillingFile : NewName (zeroKernel.disk.table rootClusterNumber) fillingFile :=
  newName_of_not_taken (fresh_zeroKernel.root ▸ not_taken_freshRoot (by decide) (by decide))

/-- Writing it looks at an index behind the table. -/
theorem filling_file_leaves_table :
    zeroKernel.disk.WellFormed ∧ zeroKernel.disk.volume.Directory fillingFile.parentClusterNumber.toNat ∧
      Room zeroKernel.disk fillingFile.parentClusterNumber.toNat fillingFile.bufferSize ∧
      NewName (zeroKernel.disk.table fillingFile.parentClusterNumber.toNat) fillingFile ∧
      ¬ StaysInside zeroKernel fillingFile := by
  have wellFormed := fresh_zeroKernel.regular.wellFormed
  have room : Room zeroKernel.disk rootClusterNumber fillingFile.bufferSize :=
    room_zeroKernel (Nat.le_of_eq needed_fillingFile)
  refine ⟨wellFormed, .root, room, newName_fillingFile, ?_⟩
  intro stays
  rcases ((@stays_inside_iff zeroKernel fillingFile wellFormed .root room newName_fillingFile).mp stays).2 with
    folder | more
  · exact absurd folder (by decide)
  · rw [needed_fillingFile, length_freeList_zeroKernel] at more
    exact absurd more (by decide)

end Brother420.Fat32
