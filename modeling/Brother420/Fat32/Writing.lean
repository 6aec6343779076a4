import Brother420.Fat32.Reading

/-! # The effect of a write

What `write` leaves behind when its request is valid: the parent's allocation
entry marks a chain end, the name is new, the table has a free slot and the
allocation table has enough free entries.  Nothing is assumed of the rest of the
disk.
-/

namespace Brother420.Fat32

open Packed (Bytes Layout)
open Linked (Chain link)
open Kernel

/-- The free clusters of an allocation table, in ascending order. -/
def freeList (t : FAT32FileAllocationTable) : List Nat :=
  Search.hits (fun c => FAT32FileAllocationTable.at t c == 0) 0 512

/-- Slot `s` is where the search for a free slot stops. -/
def FirstFree (table : FAT32DirectoryTable) (s : Fin 64) : Prop :=
  ¬ (table s).Live ∧ ∀ j, j < s → (table j).Live

variable {k : Kernel} {t : FAT32FileAllocationTable} {c p : Nat} {rest l : List Nat} {s : Fin 64}

theorem mem_freeList : c ∈ freeList t ↔ c < 512 ∧ FAT32FileAllocationTable.at t c = 0 := by
  simp [freeList, Search.mem_hits]

theorem freeList_head (free : freeList t = c :: rest) :
    c < 512 ∧ FAT32FileAllocationTable.at t c = 0 :=
  mem_freeList.mp (free ▸ List.mem_cons_self)

/-- Allocating the first free cluster leaves the others. -/
theorem freeList_set (free : freeList t = c :: rest) {value : UInt32} (used : value ≠ 0) :
    freeList (t.set c value) = rest := by
  have inside := (freeList_head free).1
  refine Search.hits_without (show _ = [c] ++ rest from free) ?_ ?_
  · simp [FAT32FileAllocationTable.at_set _ inside, used]
  · intro i different
    have apart : i ≠ c := by simpa using different
    simp [FAT32FileAllocationTable.at_set _ inside, apart]

/-- The free clusters ascend, so those behind the first are new and are not cluster 0. -/
theorem freeList_second {d : Nat} (free : freeList t = c :: d :: l ++ rest) :
    c ∉ d :: l ∧ UInt32.ofNat d ≠ 0 := by
  have distinct : (freeList t).Nodup := Search.hits_nodup 0 512
  rw [free] at distinct
  refine ⟨fun again => (List.nodup_cons.mp distinct).1 (List.mem_append_left rest again), ?_⟩
  -- `d` is a hit behind `c`, hence positive and below 512
  obtain ⟨_, _, _, _, tail⟩ := Search.hits_cons free
  have behind : d ∈ Search.hits (fun c => FAT32FileAllocationTable.at t c == 0) (c + 1) (0 + 512 - (c + 1)) :=
    tail ▸ List.mem_cons_self
  obtain ⟨⟨lower, upper⟩, _⟩ := Search.mem_hits.mp behind
  intro zero
  have bound : d < 2 ^ 32 := by omega
  have value := congrArg UInt32.toNat zero
  rw [UInt32.toNat_ofNat_of_lt' bound] at value
  simp at value
  omega

/-! ## The searches -/

theorem freeCluster_zero (free : freeList k.driverState.fatTable = c :: rest) :
    freeCluster k 0 = some c := by
  have same : Search.hits (fun i => k.clusterMap i == 0) 0 512 = c :: rest := by
    rw [← free]
    exact Search.hits_congr fun i _ bound => by rw [clusterMap_eq (by omega)]
  exact Search.scan_head same (by omega) (by omega)

theorem freeCluster_next {d : Nat} (free : freeList k.driverState.fatTable = c :: d :: rest) :
    freeCluster k (c + 1) = some d := by
  obtain ⟨_, inside, _, _, tail⟩ := Search.hits_cons free
  have same : Search.hits (fun i => k.clusterMap i == 0) (c + 1) (0 + 512 - (c + 1)) = d :: rest := by
    rw [tail]
    exact Search.hits_congr fun i _ bound => by rw [clusterMap_eq (by omega)]
  -- the 16-bit counter does not wrap below 512
  have start : (c + 1) % 2 ^ 16 = c + 1 := Nat.mod_eq_of_lt (by omega)
  rw [freeCluster, start]
  exact Search.scan_head same (by omega) (by omega)

/-- The look-ahead always stops, if only back at the cluster it started from. -/
theorem freeCluster_stops (free : freeList k.driverState.fatTable = c :: rest) (start : Nat) :
    ∃ d, freeCluster k start = some d := by
  obtain ⟨inside, zero⟩ := freeList_head free
  have found : (k.clusterMap c == 0) = true := by rw [clusterMap_eq inside, zero]; rfl
  exact Search.scan_isSome (Nat.mod_lt _ (by decide)) (j := c) (by omega) found

theorem freeSlot_eq (first : FirstFree k.driverState.dirTableBuf s) : freeSlot k = some s.val := by
  have bound := s.isLt
  apply Search.scan_finds
  · rw [tableEntry_eq bound]
    simpa [FAT32DirectoryEntry.Live] using first.1
  · omega
  · omega
  · omega
  · intro j _ below
    rw [tableEntry_eq (by omega)]
    simpa [FAT32DirectoryEntry.Live] using first.2 ⟨j, by omega⟩ below

theorem freeList_load (inside : p < 2 ^ 26) :
    freeList (k.load p).driverState.fatTable = freeList k.disk.fatTable := congrArg freeList (load_fatTable inside)

/-- Past the check of the parent, `write` goes on with the cluster that its search finds. -/
theorem write_found {request : FAT32DriverRequest} (parent : request.parentClusterNumber.toNat = p)
    (inside : p < 512) (valid : k.disk.fat p = fat32FatEndOfFile) (found : freeCluster (k.load p) 0 = some c) :
    write k request =
      if request.bufferSize = 0 then writeFolder (k.load p) request c else writeFile (k.load p) request c := by
  have chainEnd : (k.load p).clusterMap p = fat32FatEndOfFile := (load_clusterMap (by omega) inside).trans valid
  simp only [write, parent, chainEnd, ne_eq, not_true_eq_false, ↓reduceIte, found, Option.bind_eq_bind, Option.bind_some]

/-- Past the two early returns, `write` goes on with the first free cluster. -/
theorem write_valid {request : FAT32DriverRequest} (parent : request.parentClusterNumber.toNat = p)
    (inside : p < 512)
    (valid : k.disk.fat p = fat32FatEndOfFile) (free : freeList k.disk.fatTable = c :: rest) :
    write k request =
      if request.bufferSize = 0 then writeFolder (k.load p) request c else writeFile (k.load p) request c :=
  write_found parent inside valid (freeCluster_zero ((freeList_load (by omega)).trans free))

/-! ## Folders -/

theorem write_folder {request : FAT32DriverRequest} (parent : request.parentClusterNumber.toNat = p)
    (inside : p < 512) (valid : k.disk.fat p = fat32FatEndOfFile) (folder : request.bufferSize = 0)
    (new : findName (k.disk.table p) request.name = none)
    (free : freeList k.disk.fatTable = c :: rest)
    (slot : FirstFree (k.disk.table p) s) :
    let newDir := initDirectoryTable (fun _ => .zero) request.name c
    ∃ k', write k request = some (0, k') ∧
      k'.driverState.fatTable = k.disk.fatTable.set c fat32FatEndOfFile ∧
      k'.disk = ((k.disk.setFat (k.disk.fatTable.set c fat32FatEndOfFile)).setTable c newDir).setTable p
        (Function.update (k.disk.table p) s (newDir 0)) := by
  intro newDir
  have loaded := load_eq (k := k) (c := p) (by omega)
  obtain ⟨bound, zero⟩ := freeList_head free
  rw [write_valid parent inside valid free, if_pos folder, writeFolder, loaded]
  have place (d : Disk) (m : FAT32FileAllocationTable) :
      freeSlot { k with disk := d, driverState := ⟨m, k.disk.table p, k.driverState.clusterBuf⟩ } = some s.val :=
    freeSlot_eq slot
  simp only [new, Option.isSome_none, Bool.false_eq_true, ↓reduceIte, setClusterMap_eq bound, Option.bind_eq_bind,
    Option.bind_some, storeFat_eq, writeClusters_eq (show c < 2 ^ 26 by omega), place, setTableEntry_eq s.isLt, parent,
    storeDirTable_eq (show p < 2 ^ 26 by omega)]
  exact ⟨_, rfl, rfl, rfl⟩

/-! ## Files -/

/-- The entry as `write` leaves it before the loop, in the slot that held `old`. -/
def namedEntry (old : FAT32DirectoryEntry) (request : FAT32DriverRequest) (cluster : Nat) :
    FAT32DirectoryEntry :=
  { old with
    name := request.name
    ext := request.ext
    attributeByte := 0
    userAttribute := uattrNotEmpty
    clusterLow := UInt16.ofNat cluster }

/-- The entry that a new file gets; the size is added to what the slot held. -/
def fileEntry (old : FAT32DirectoryEntry) (request : FAT32DriverRequest) (cluster : Nat) :
    FAT32DirectoryEntry :=
  { namedEntry old request cluster with filesize := old.filesize + request.bufferSize }

/-- What the loop of `write` achieves from iteration `i` on, with the clusters of
    `l` still to be placed. -/
structure Placed (request : FAT32DriverRequest) (s : Fin 64) (i : Nat) (l : List Nat) (k k' : Kernel) : Prop where
  fat : FAT32FileAllocationTable.at k'.driverState.fatTable =
    link UInt32.ofNat fat32FatEndOfFile l (FAT32FileAllocationTable.at k.driverState.fatTable)
  entry : k'.driverState.dirTableBuf = Function.update k.driverState.dirTableBuf s
    { k.driverState.dirTableBuf s with
      filesize := (k.driverState.dirTableBuf s).filesize +
        (request.bufferSize - UInt32.ofNat (clusterSize * i)) }
  stored : k'.disk.fatTable = k'.driverState.fatTable
  data : ∀ j c, l[j]? = some c → k'.disk.cluster c = lastCluster request (i + j)
  frame : ∀ c, c ≠ 1 → c ∉ l → k'.disk.cluster c = k.disk.cluster c

/-- A cluster that is not the last one is filled entirely from the buffer. -/
theorem bytes_eq_lastCluster {request : FAT32DriverRequest} {i : Nat}
    (full : clusterSize * (i + 1) ≤ request.bufferSize.toNat) :
    request.buf.bytes (clusterSize * i) 2048 = lastCluster request i := by
  funext j
  have bound := j.isLt
  have inside : j.val < request.bufferSize.toNat - clusterSize * i := by
    simp only [clusterSize] at full ⊢
    omega
  simp [lastCluster, Memory.bytes, inside]

theorem filesize_step (size whole : UInt32) (i : Nat) :
    size + 2048 + (whole - UInt32.ofNat (clusterSize * (i + 1))) =
    size + (whole - UInt32.ofNat (clusterSize * i)) := by
  have next : UInt32.ofNat (clusterSize * (i + 1)) = UInt32.ofNat (clusterSize * i) + 2048 := by
    rw [Nat.mul_add, UInt32.ofNat_add]
    rfl
  rw [next]
  grind

/-- The last iteration marks the first free cluster as the end of the chain. -/
theorem placeCluster_last {request : FAT32DriverRequest} {total i : Nat} (last : i + 1 = total)
    (free : freeList k.driverState.fatTable = c :: rest) (notFat : c ≠ 1) :
    ∃ k', placeCluster request total s i k = some k' ∧ Placed request s i [c] k k' := by
  obtain ⟨bound, zero⟩ := freeList_head free
  -- the last iteration looks ahead too, and does not use what it finds
  obtain ⟨d, ahead⟩ := freeCluster_stops free (c + 1)
  have final : ¬ i < total - 1 := by omega
  simp only [placeCluster, freeCluster_zero free, ahead, final, ↓reduceIte, Option.bind_eq_bind, Option.bind_some,
    setClusterMap_eq bound, tableEntry_eq s.isLt, setTableEntry_eq s.isLt, storeFat_eq,
    writeClusters_eq (show c < 2 ^ 26 by omega)]
  refine ⟨_, rfl, ?_, rfl, ?_, ?_, ?_⟩
  · exact FAT32FileAllocationTable.at_set _ bound _
  · exact Disk.fatTable_setFat
  · intro j x found
    cases j with
    | zero =>
      obtain rfl : c = x := by simpa using found
      exact (Disk.cluster_setCluster_of_ne notFat).trans Disk.cluster_setCluster
    | succ j => simp at found
  · intro x notFat' outside
    have different : x ≠ c := by simpa using outside
    exact (Disk.cluster_setCluster_of_ne notFat').trans (Disk.cluster_setCluster_of_ne different)

/-- The state after an iteration that links cluster `c` to cluster `d`. -/
structure Continued (request : FAT32DriverRequest) (s : Fin 64) (i c d : Nat) (k k' : Kernel) : Prop where
  fat : k'.driverState.fatTable = k.driverState.fatTable.set c (UInt32.ofNat d)
  entry : k'.driverState.dirTableBuf = Function.update k.driverState.dirTableBuf s
    { k.driverState.dirTableBuf s with filesize := (k.driverState.dirTableBuf s).filesize + 2048 }
  disk : k'.disk = (k.disk.setCluster c (lastCluster request i)).setFat k'.driverState.fatTable

/-- Any other iteration links the first free cluster to the second. -/
theorem placeCluster_next {request : FAT32DriverRequest} {total i d : Nat} (more : i + 1 < total)
    (full : clusterSize * (i + 1) ≤ request.bufferSize.toNat)
    (free : freeList k.driverState.fatTable = c :: d :: rest) :
    ∃ k', placeCluster request total s i k = some k' ∧ Continued request s i c d k k' := by
  obtain ⟨bound, zero⟩ := freeList_head free
  have notLast : i < total - 1 := by omega
  simp only [placeCluster, freeCluster_zero free, freeCluster_next free, notLast, ↓reduceIte, Option.bind_eq_bind,
    Option.bind_some, setClusterMap_eq bound, tableEntry_eq s.isLt, setTableEntry_eq s.isLt, storeFat_eq,
    writeClusters_eq (show c < 2 ^ 26 by omega), bytes_eq_lastCluster full]
  exact ⟨_, rfl, rfl, rfl, rfl⟩

/-- One linked cluster in front of what the rest of the loop achieves. -/
theorem Continued.placed {request : FAT32DriverRequest} {i d : Nat} {k₁ k' : Kernel}
    (continued : Continued request s i c d k k₁) (later : Placed request s (i + 1) (d :: l) k₁ k')
    (bound : c < 512)
    (notFat : c ≠ 1) (fresh : c ∉ d :: l) : Placed request s i (c :: d :: l) k k' where
  fat := by
    rw [later.fat, continued.fat, FAT32FileAllocationTable.at_set _ bound]
    rfl
  entry := by
    rw [later.entry, continued.entry]
    simp only [Function.update_self, Function.update_idem, filesize_step]
  stored := later.stored
  data := by
    intro j x found
    cases j with
    | zero =>
      obtain rfl : c = x := by simpa using found
      -- the later iterations do not touch the cluster that this one filled
      rw [later.frame c notFat fresh, continued.disk]
      exact (Disk.cluster_setCluster_of_ne notFat).trans Disk.cluster_setCluster
    | succ j =>
      have position : i + (j + 1) = i + 1 + j := by omega
      rw [position]
      exact later.data j x (by simpa using found)
  frame := by
    intro x notFat' outside
    have different : x ≠ c := fun same => outside (same ▸ List.mem_cons_self)
    rw [later.frame x notFat' fun member => outside (List.mem_cons_of_mem _ member), continued.disk]
    exact (Disk.cluster_setCluster_of_ne notFat').trans (Disk.cluster_setCluster_of_ne different)

/-- Induction on the clusters still to be placed: they are the first free ones. -/
theorem placeClusters_placed {request : FAT32DriverRequest} {total i : Nat} (nonempty : l ≠ [])
    (free : freeList k.driverState.fatTable = l ++ rest) (notFat : 1 ∉ l)
    (count : i + l.length = total)
    (full : clusterSize * (total - 1) ≤ request.bufferSize.toNat) :
    ∃ k', placeClusters request total s l.length i k = some k' ∧ Placed request s i l k k' := by
  induction l generalizing k i with
  | nil => exact absurd rfl nonempty
  | cons c l ih =>
    have notFatHead : c ≠ 1 := fun same => notFat (same ▸ List.mem_cons_self)
    cases l with
    | nil =>
      obtain ⟨k', placed, spec⟩ :=
        @placeCluster_last k c rest s request total i count free notFatHead
      refine ⟨k', ?_, spec⟩
      simp only [List.length_cons, List.length_nil, placeClusters, placed, Option.bind_eq_bind, Option.bind_some]
    | cons d l =>
      simp only [List.length_cons] at count
      have atLeast : clusterSize * (i + 1) ≤ clusterSize * (total - 1) :=
        Nat.mul_le_mul_left _ (by omega)
      obtain ⟨k₁, step, continued⟩ :=
        placeCluster_next (s := s) (by omega : i + 1 < total) (Nat.le_trans atLeast full) free
      obtain ⟨bound, _⟩ := freeList_head free
      obtain ⟨fresh, used⟩ : c ∉ d :: l ∧ UInt32.ofNat d ≠ 0 := freeList_second free
      obtain ⟨k', placed, spec⟩ :=
        ih (i := i + 1) (k := k₁) (by simp) (continued.fat ▸ freeList_set free used)
        (fun member => notFat (List.mem_cons_of_mem _ member)) (by simp only [List.length_cons]; omega)
      refine ⟨k', ?_, continued.placed spec bound notFatHead fresh⟩
      rw [List.length_cons, placeClusters, step]
      exact placed

/-- What a successful write of a file leaves, with the file on the clusters `l`. -/
structure FileWritten (request : FAT32DriverRequest) (p : Nat) (s : Fin 64) (c : Nat) (l : List Nat) (k k' : Kernel) :
    Prop where
  fat : k'.disk.fat = link UInt32.ofNat fat32FatEndOfFile (c :: l) k.disk.fat
  stored : k'.disk.fatTable = k'.driverState.fatTable
  table : k'.disk.table p = Function.update (k.disk.table p) s (fileEntry (k.disk.table p s) request c)
  data : ∀ j x, (c :: l)[j]? = some x → k'.disk.cluster x = lastCluster request j
  frame : ∀ x, x ≠ 1 → x ≠ p → x ∉ c :: l → k'.disk.cluster x = k.disk.cluster x

/-- The table is stored behind the loop, at a cluster that the loop leaves alone. -/
theorem Placed.written {request : FAT32DriverRequest} {k₁ k₂ : Kernel}
    (placed : Placed request s 0 (c :: l) k₁ k₂)
    (disk : k₁.disk = k.disk) (fat : k₁.driverState.fatTable = k.disk.fatTable)
    (table : k₁.driverState.dirTableBuf = Function.update (k.disk.table p) s (namedEntry (k.disk.table p s) request c))
    (inside : p < 512) (notFat : p ≠ 1) (outside : p ∉ c :: l) :
    FileWritten request p s c l k (k₂.storeDirTable p) := by
  rw [storeDirTable_eq (by omega)]
  have elsewhere {x : Nat} (different : x ≠ p) (t : FAT32DirectoryTable) :
      (k₂.disk.setTable p t).cluster x = k₂.disk.cluster x :=
        Disk.cluster_setCluster_of_ne different
  refine ⟨?_, ?_, ?_, ?_, ?_⟩
  · rw [Disk.fat_setTable notFat]
    change FAT32FileAllocationTable.at k₂.disk.fatTable = _
    rw [placed.stored, placed.fat, fat]
    rfl
  · exact (Disk.fatTable_setCluster notFat).trans placed.stored
  · rw [Disk.table_setTable, placed.entry, table]
    simp only [Function.update_self, Function.update_idem]
    rw [fileEntry]
    simp [namedEntry, clusterSize]
  · intro j x found
    have different : x ≠ p := fun same => outside (same ▸ List.mem_of_getElem? found)
    rw [elsewhere different, placed.data j x found, Nat.zero_add]
  · intro x notFat' different member
    rw [elsewhere different, placed.frame x notFat' member, disk]

theorem write_file {request : FAT32DriverRequest} (parent : request.parentClusterNumber.toNat = p)
    (inside : p < 512) (notFat : p ≠ 1) (valid : k.disk.fat p = fat32FatEndOfFile)
    (file : request.bufferSize ≠ 0)
    (new : findNameExt (k.disk.table p) request.name request.ext = none)
    (free : freeList k.disk.fatTable = c :: l ++ rest)
    (count : (c :: l).length = totalCluster request.bufferSize)
    (reserved : k.disk.fat 1 ≠ 0) (slot : FirstFree (k.disk.table p) s) :
    ∃ k', write k request = some (0, k') ∧ FileWritten request p s c l k k' := by
  have loaded := load_eq (k := k) (c := p) (by omega)
  have unallocated {x : Nat} (member : x ∈ c :: l) : k.disk.fat x = 0 :=
    (mem_freeList.mp (free ▸ List.mem_append_left rest member)).2
  have notFatMember : 1 ∉ c :: l := fun member => reserved (unallocated member)
  -- the parent's own allocation entry marks a chain end, so it is not free
  have notParent : p ∉ c :: l := by
    intro member
    have value := unallocated member
    rw [valid] at value
    exact absurd value (by decide)
  have full : clusterSize * (totalCluster request.bufferSize - 1) ≤ request.bufferSize.toNat := by
    rw [totalCluster_eq, clusterSize]
    omega
  have place : freeSlot (k.load p) = some s.val := freeSlot_eq (by rw [loaded]; exact slot)
  have old : (k.load p).tableEntry s = k.disk.table p s := by
    rw [loaded, tableEntry_eq s.isLt]
  -- the entry is set before the loop, which then adds up its size
  obtain ⟨k₁, entered, disk, fat, table⟩ : ∃ k₁, (k.load p).setTableEntry s (namedEntry (k.disk.table p s) request c) =
      some k₁ ∧ k₁.disk = k.disk ∧ k₁.driverState.fatTable = k.disk.fatTable ∧ k₁.driverState.dirTableBuf =
        Function.update (k.disk.table p) s (namedEntry (k.disk.table p s) request c) := by
    rw [loaded, setTableEntry_eq s.isLt]
    exact ⟨_, rfl, rfl, rfl, rfl⟩
  have count' : 0 + (c :: l).length = totalCluster request.bufferSize := by rw [count, Nat.zero_add]
  obtain ⟨k₂, placed, spec⟩ :=
    placeClusters_placed (s := s) (k := k₁) (List.cons_ne_nil c l) (fat ▸ free) notFatMember count' full
  refine ⟨k₂.storeDirTable p, ?_, spec.written disk fat table inside notFat notParent⟩
  rw [write_valid parent inside valid free, if_neg file, writeFile]
  have search : (findNameExt (k.load p).driverState.dirTableBuf request.name request.ext).isSome = false := by
    rw [loaded, new]
    rfl
  have reserveEntry := entered
  rw [namedEntry, ← old] at reserveEntry
  rw [count] at placed
  simp only [search, Bool.false_eq_true, ↓reduceIte, place, Option.bind_eq_bind, Option.bind_some, parent,
    reserveEntry, placed]

end Brother420.Fat32
