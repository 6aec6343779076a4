import Brother420.Fat32.Indices

/-! # Writes without room

`write` has no answer for a directory without a free slot or a volume without a
free cluster.  Its searches go on behind the table that they search, and it
answers 0 for an entry that is not in the directory, or for one that names a
cluster behind the allocation table.  Only a name of zeros, which every free slot
has, is turned away on a full volume.
-/

namespace Brother420.Fat32

open Packed (Bytes Layout)
open Runs (Run)
open Kernel Volume

variable {k k' : Kernel} {request : FAT32DriverRequest} {c p n : Nat} {rest : List Nat} {i : Fin 64}

/-- The write is turned away, and nothing is stored. -/
def WriteRefused (k : Kernel) (request : FAT32DriverRequest) : Prop :=
  ∃ code k', write k request = some (code, k') ∧ code ≠ 0 ∧ k'.disk = k.disk

/-- A write under a new name into a directory. -/
structure NewEntry (k : Kernel) (request : FAT32DriverRequest) : Prop where
  wellFormed : k.disk.WellFormed
  directory : k.disk.volume.Directory request.parentClusterNumber.toNat
  new : ¬ Taken (k.disk.table request.parentClusterNumber.toNat) request

/-- No slot of the directory is free, and there are clusters enough. -/
structure DirectoryFull (k : Kernel) (request : FAT32DriverRequest) : Prop extends NewEntry k request where
  full : ∀ i, (k.disk.table request.parentClusterNumber.toNat i).Live
  clusters : needed request.bufferSize ≤ (freeList k.disk.fatTable).length

/-- A write into a directory with a free slot, under a name that no slot in use has, that needs more clusters
    than are free. -/
structure VolumeFull (k : Kernel) (request : FAT32DriverRequest) : Prop where
  wellFormed : k.disk.WellFormed
  directory : k.disk.volume.Directory request.parentClusterNumber.toNat
  new : NewName (k.disk.table request.parentClusterNumber.toNat) request
  slot : ∃ i, ¬ (k.disk.table request.parentClusterNumber.toNat i).Live
  clusters : (freeList k.disk.fatTable).length < needed request.bufferSize

theorem NewEntry.not_refused (entry : NewEntry k request) : ¬ WriteRefused k request := by
  rintro ⟨code, k', answer, failed, _⟩
  have sound := entry.wellFormed.sound
  have valid := sound.volume.directory_fat entry.directory
  rcases write_answer rfl (sound.volume.directory_range entry.directory).2 valid answer with
    ⟨_, taken⟩ | ⟨success, _⟩
  · exact entry.new taken
  · exact failed success

/-! ## A full directory -/

/-- No write into a full directory is turned away. -/
theorem full_directory_not_refused (full : DirectoryFull k request) : ¬ WriteRefused k request :=
  full.not_refused

/-- Where the entry behind the table is not in use, the new folder is entered there, and the table is
    stored as it was. -/
theorem write_folder_full (parent : request.parentClusterNumber.toNat = p) (inside : p < 512)
    (valid : k.disk.fat p = fat32FatEndOfFile) (folder : request.bufferSize = 0)
    (new : findName (k.disk.table p) request.name = none) (free : freeList k.disk.fatTable = c :: rest)
    (full : ∀ i, (k.disk.table p i).Live)
    (behind : ¬ (FAT32DirectoryTable.layout.symm k.driverState.clusterBuf 0).Live) :
    ∃ k', write k request = some (0, k') ∧
      k'.disk = ((k.disk.setFat (k.disk.fatTable.set c fat32FatEndOfFile)).setTable c
        (initDirectoryTable (fun _ => .zero) request.name c)).setTable p (k.disk.table p) := by
  have loaded := load_eq (k := k) (c := p) (by omega)
  obtain ⟨bound, zero⟩ := freeList_head free
  rw [write_valid parent inside valid free, if_pos folder, writeFolder, loaded]
  have place (d : Disk) (m : FAT32FileAllocationTable) :
      freeSlot { k with disk := d, driverState := ⟨m, k.disk.table p, k.driverState.clusterBuf⟩ } = some 64 := by
    apply Search.scan_finds
    · simpa [tableEntry, FAT32DirectoryEntry.Live] using behind
    · omega
    · omega
    · omega
    · intro j _ below
      rw [tableEntry_eq (by omega)]
      simpa [FAT32DirectoryEntry.Live] using full ⟨j, by omega⟩
  simp only [new, Option.isSome_none, Bool.false_eq_true, ↓reduceIte, setClusterMap_eq bound, Option.bind_eq_bind,
    Option.bind_some, storeFat_eq, writeClusters_eq (show c < 2 ^ 26 by omega), place, setTableEntry, Nat.reduceLT,
    ↓reduceDIte, parent, storeDirTable_eq (show p < 2 ^ 26 by omega)]
  exact ⟨_, rfl, rfl⟩

/-! ### A root of 63 folders -/

/-- The folder whose name is the byte `n`. -/
def numberedFolder (n : Nat) : FAT32DriverRequest :=
  ⟨fun _ => 0, fun j => if j = 0 then UInt8.ofNat n else 0, fun _ => 0, 2, 0⟩

/-- A root that the first `n` of them fill up to slot `n`. -/
def numberedRoot (n : Nat) : FAT32DirectoryTable := fun i =>
  if i = 0 then freshRoot 0 else if i.val ≤ n then newEntry (numberedFolder i) (2 + i) else .zero

theorem not_taken_numberedRoot (bound : n < 64) (next : request = numberedFolder (n + 1)) :
    ¬ Taken (numberedRoot n) request := by
  subst next
  rintro ⟨i, name, _⟩
  have byte := congrFun name 0
  have value : (UInt8.ofNat (n + 1)).toNat = n + 1 := UInt8.toNat_ofNat_of_lt' (by simp [UInt8.size]; omega)
  unfold numberedRoot at byte name
  split at byte
  · rename_i self
    rw [if_pos self] at name
    exact absurd (congrFun name 1) (show (freshRoot 0).name 1 ≠ 0 by decide)
  · split at byte
    · rename_i below
      rw [name_newEntry] at byte
      have same := congrArg UInt8.toNat byte
      simp only [numberedFolder, ↓reduceIte, value] at same
      rw [UInt8.toNat_ofNat_of_lt' (by simp [UInt8.size]; omega)] at same
      omega
    · have same := congrArg UInt8.toNat byte
      simp only [numberedFolder, ↓reduceIte, value] at same
      exact absurd same (by simp [FAT32DirectoryEntry.zero])

theorem numberedRoot_succ (bound : n + 1 < 64) :
    Function.update (numberedRoot n) ⟨n + 1, bound⟩ (newEntry (numberedFolder (n + 1)) (3 + n)) =
      numberedRoot (n + 1) := by
  funext i
  by_cases here : i = ⟨n + 1, bound⟩
  · subst here
    have notSelf : (⟨n + 1, bound⟩ : Fin 64) ≠ 0 := fun same => by simp [Fin.ext_iff] at same
    rw [Function.update_self, numberedRoot, if_neg notSelf, if_pos (Nat.le_refl _)]
    change _ = newEntry (numberedFolder (n + 1)) (2 + (n + 1))
    rw [show 2 + (n + 1) = 3 + n by omega]
  · rw [Function.update_of_ne here, numberedRoot, numberedRoot]
    have different : i.val ≠ n + 1 := fun same => here (Fin.ext same)
    by_cases below : i.val ≤ n
    · rw [if_pos below, if_pos (show i.val ≤ n + 1 by omega)]
    · rw [if_neg below, if_neg (show ¬ i.val ≤ n + 1 by omega)]

theorem firstFree_numberedRoot (bound : n + 1 < 64) : FirstFree (numberedRoot n) ⟨n + 1, bound⟩ := by
  have notSelf : (⟨n + 1, bound⟩ : Fin 64) ≠ 0 := fun same => by simp [Fin.ext_iff] at same
  refine ⟨?_, ?_⟩
  · rw [numberedRoot, if_neg notSelf, if_neg (Nat.not_succ_le_self n)]
    exact FAT32DirectoryEntry.not_live_zero
  · intro j below
    unfold numberedRoot
    split
    · rfl
    · rw [if_pos (by simp [Fin.lt_def] at below; omega)]
      exact live_newEntry

/-- Induction on the number of folders. -/
theorem run_numberedRoot (bound : n < 64) :
    ∃ history k, Run perform Intended Fresh history k ∧ k.disk.table rootClusterNumber = numberedRoot n ∧
      freeList k.disk.fatTable = List.range' (3 + n) (509 - n) ∧
      ∀ q i, k.disk.volume.Slot q i → q = rootClusterNumber := by
  induction n with
  | zero =>
    refine ⟨[], zeroKernel, .start fresh_zeroKernel, ?_, fresh_zeroKernel.freeList,
      fun _ _ slot => absurd slot fresh_zeroKernel.onlyRoot.no_slot⟩
    rw [fresh_zeroKernel.root]
    funext i
    by_cases self : i = 0
    · rw [self]
      rfl
    · have above : ¬ i.val ≤ 0 := fun zero => self (Fin.ext (Nat.le_zero.mp zero))
      rw [numberedRoot, if_neg self, if_neg above, freshRoot_other self]
  | succ n ih =>
    obtain ⟨history, k, run, table, free, inRoot⟩ := ih (by omega)
    have split : freeList k.disk.fatTable = (3 + n) :: [] ++ List.range' (3 + (n + 1)) (509 - (n + 1)) := by
      rw [free, show 509 - n = 509 - (n + 1) + 1 by omega, List.range'_succ]
      rfl
    have new : ¬ Taken (k.disk.table rootClusterNumber) (numberedFolder (n + 1)) :=
      table ▸ not_taken_numberedRoot (by omega) rfl
    have slot : FirstFree (k.disk.table rootClusterNumber) ⟨n + 1, bound⟩ :=
      table ▸ firstFree_numberedRoot bound
    obtain ⟨k', run', written⟩ := run_write run .root rfl new split rfl slot
    refine ⟨_, k', run', ?_, written.freeList (run_regular run).sound split, ?_⟩
    · have tables : k'.disk.table rootClusterNumber = Function.update (k.disk.table rootClusterNumber) ⟨n + 1, bound⟩
          (newEntry (numberedFolder (n + 1)) (3 + n)) := written.added.tableParent
      rw [tables, table, numberedRoot_succ bound]
    · intro q i slot
      rcases (written.added.slot_iff (run_regular run).sound.volume).mp slot with old | ⟨here, _⟩
      · exact inRoot q i old
      · exact here

/-- The root with 63 folders has room for no other entry; the driver's buffers are zeros. -/
theorem full_numberedRoot :
    ∃ k, DirectoryFull k (numberedFolder 64) ∧ k.driverState = .zero ∧
      freeList k.disk.fatTable = 66 :: List.range' 67 445 := by
  obtain ⟨history, k, run, table, free, _⟩ := run_numberedRoot (n := 63) (by decide)
  have full : ∀ i, (numberedRoot 63 i).Live := by
    intro i
    unfold numberedRoot
    split
    · rfl
    · rw [if_pos (by omega)]
      exact live_newEntry
  have new : ¬ Taken (numberedRoot 63) (numberedFolder 64) := not_taken_numberedRoot (by decide) rfl
  refine ⟨⟨k.disk, .zero, fun _ => 0⟩, ⟨⟨(run_regular run).wellFormed, .root, table ▸ new⟩, table ▸ full, ?_⟩, rfl,
    free.trans List.range'_succ⟩
  rw [free, List.length_range']
  decide

theorem full_directory_not_refused_root :
    ∃ k, DirectoryFull k (numberedFolder 64) ∧ ¬ WriteRefused k (numberedFolder 64) := by
  obtain ⟨k, full, _⟩ := full_numberedRoot
  exact ⟨k, full, full_directory_not_refused full⟩

/-- One more folder is answered with 0: it takes cluster 66, and the root stays as it was. -/
theorem full_directory_leaks :
    ∃ k, DirectoryFull k (numberedFolder 64) ∧ ¬ WriteRefused k (numberedFolder 64) ∧ k.disk.fat 66 = 0 ∧
      ∃ k', write k (numberedFolder 64) = some (0, k') ∧ k'.disk.table 2 = k.disk.table 2 ∧
        k'.disk.fat 66 = fat32FatEndOfFile := by
  obtain ⟨k, full, state, free⟩ := full_numberedRoot
  have parent : (numberedFolder 64).parentClusterNumber.toNat = 2 := rfl
  have valid : k.disk.fat 2 = fat32FatEndOfFile := full.wellFormed.sound.volume.directory_fat full.directory
  have absent : findName (k.disk.table 2) (numberedFolder 64).name = none := findName_of_new rfl full.new
  have behind : ¬ (FAT32DirectoryTable.layout.symm k.driverState.clusterBuf 0).Live := by
    rw [state]
    decide
  obtain ⟨k', answer, disk⟩ := write_folder_full parent (by decide) valid rfl absent free full.full behind
  refine ⟨k, full, full.not_refused, (freeList_head free).2, k', answer, ?_, ?_⟩
  · rw [disk, Disk.table_setTable]
  · rw [disk, Disk.fat_setTable (by decide), Disk.fat_setTable (by decide), Disk.fat_setFat,
      FAT32FileAllocationTable.at_set _ (by decide), Function.update_self]

/-! ## A full volume -/

/-- A slot of zeros holds eight words of zeros. -/
theorem clusterMap_vacant (empty : k.driverState.dirTableBuf i = .zero) : k.clusterMap (512 + 8 * i.val) = 0 := by
  have word (bytes : ClusterBuffer) : FAT32FileAllocationTable.layout.symm bytes ⟨8 * i.val, by omega⟩ =
      Layout.word32.symm fun j => (FAT32DirectoryTable.layout.symm bytes i).name ⟨j, by omega⟩ := by
    have name (j : Fin 8) : (FAT32DirectoryTable.layout.symm bytes i).name j = bytes ⟨j + 32 * i.val, by omega⟩ := rfl
    simp only [name]
    refine (Layout.array_symm_apply 512 Layout.word32 bytes _).trans (congrArg _ (funext fun j => ?_))
    congr 1
    apply Fin.ext
    simp only [finProdFinEquiv_apply_val]
    omega
  rw [clusterMap, dif_neg (by omega), dif_pos (by omega)]
  simp only [Nat.add_sub_cancel_left]
  rw [word, Equiv.symm_apply_apply, empty]
  rfl

/-- With a free slot in the table of the parent, the search for a free cluster always comes to an end. -/
theorem freeCluster_vacant (empty : k.driverState.dirTableBuf i = .zero) : ∃ c, freeCluster k 0 = some c := by
  apply Search.scan_isSome (j := 512 + 8 * i.val) (by decide) (by omega)
  rw [clusterMap_vacant empty]
  rfl

/-- A write into a full volume is turned away exactly if its name is all zeros. -/
theorem full_volume_refused_iff (full : VolumeFull k request) : WriteRefused k request ↔ request.Unnamed := by
  have sound := full.wellFormed.sound
  have inside := (sound.volume.directory_range full.directory).2
  obtain ⟨s, vacant⟩ := full.slot
  have taken := taken_iff_unnamed sound full.directory full.new vacant
  constructor
  · intro refused
    by_contra named
    exact NewEntry.not_refused ⟨full.wellFormed, full.directory, mt taken.mp named⟩ refused
  · intro unnamed
    have empty : (k.load request.parentClusterNumber.toNat).driverState.dirTableBuf s = .zero := by
      rw [load_dirTableBuf (by omega)]
      exact sound.volume.free full.directory vacant
    -- the search goes past the allocation table, but nothing is stored in front of the check for the name
    obtain ⟨c, found⟩ := freeCluster_vacant empty
    exact ⟨1, _, write_taken rfl inside (sound.volume.directory_fat full.directory) found (taken.mpr unnamed),
      by decide, rfl⟩

/-- The words behind the allocation table are those of the directory table: the name of slot 0 holds the
    first two. -/
theorem clusterMap_name (k : Kernel) :
    k.clusterMap 512 = Layout.word32.symm (fun j => (k.driverState.dirTableBuf 0).name ⟨j, by omega⟩) ∧
      k.clusterMap 513 = Layout.word32.symm (fun j => (k.driverState.dirTableBuf 0).name ⟨4 + j, by omega⟩) :=
  ⟨rfl, rfl⟩

/-- Where no cluster is free, the second word of the name `ROOT` is the first that is zero. -/
theorem freeCluster_root (free : freeList k.driverState.fatTable = [])
    (self : (k.driverState.dirTableBuf 0).name = rootName) : freeCluster k 0 = some 513 := by
  obtain ⟨first, second⟩ := clusterMap_name k
  rw [self] at first second
  apply Search.scan_finds
  · rw [second]
    decide
  · decide
  · decide
  · decide
  · intro i _ below
    by_cases inside : i < 512
    · rw [clusterMap_eq inside]
      by_contra zero
      have member : i ∈ freeList k.driverState.fatTable := mem_freeList.mpr ⟨inside, by simpa using zero⟩
      rw [free] at member
      cases member
    · obtain rfl : i = 512 := by omega
      rw [first]
      decide

/-- Byte 12 of an entry says whether it is in use. -/
theorem userAttribute_layout (bytes : ClusterBuffer) (i : Fin 64) :
    (FAT32DirectoryTable.layout.symm bytes i).userAttribute = bytes ⟨12 + 32 * i.val, by omega⟩ := rfl

/-- A word stored there leaves every slot as free or as used as it was. -/
theorem setClusterMap_name (k : Kernel) (value : UInt32) :
    ∃ k', k.setClusterMap 513 value = some k' ∧ k'.disk = k.disk ∧
      ∀ i, (k'.driverState.dirTableBuf i).userAttribute = (k.driverState.dirTableBuf i).userAttribute := by
  let bytes : ClusterBuffer := FAT32DirectoryTable.layout k.driverState.dirTableBuf
  let words := Function.update (FAT32FileAllocationTable.layout.symm bytes) 1 value
  refine ⟨{ k with driverState.dirTableBuf := FAT32DirectoryTable.layout.symm (FAT32FileAllocationTable.layout words) },
    rfl, rfl, ?_⟩
  intro i
  -- the byte lies in word `8 * i + 3` of the table
  have other : (⟨12 + 32 * i.val, by omega⟩ : Fin (512 * 4)).divNat ≠ 1 := by
    intro same
    have word := congrArg Fin.val same
    simp [Fin.divNat] at word
    omega
  have kept : FAT32FileAllocationTable.layout words ⟨12 + 32 * i.val, by omega⟩ =
      FAT32FileAllocationTable.layout (FAT32FileAllocationTable.layout.symm bytes) ⟨12 + 32 * i.val, by omega⟩ :=
    Layout.array_update_other Layout.word32 _ value other
  calc (FAT32DirectoryTable.layout.symm (FAT32FileAllocationTable.layout words) i).userAttribute
      = FAT32FileAllocationTable.layout words ⟨12 + 32 * i.val, by omega⟩ := userAttribute_layout _ i
    _ = bytes ⟨12 + 32 * i.val, by omega⟩ := by rw [kept, Equiv.apply_symm_apply]
    _ = (FAT32DirectoryTable.layout.symm bytes i).userAttribute := (userAttribute_layout bytes i).symm
    _ = (k.driverState.dirTableBuf i).userAttribute := by rw [Equiv.symm_apply_apply]

/-- A folder that is written to the root then is entered with cluster 513. -/
theorem write_folder_past (parent : request.parentClusterNumber.toNat = rootClusterNumber)
    (valid : k.disk.fat rootClusterNumber = fat32FatEndOfFile) (folder : request.bufferSize = 0)
    (new : findName (k.disk.table rootClusterNumber) request.name = none) (free : freeList k.disk.fatTable = [])
    (self : (k.disk.table rootClusterNumber 0).name = rootName) {s : Fin 64}
    (slot : FirstFree (k.disk.table rootClusterNumber) s) :
    ∃ k', write k request = some (0, k') ∧
      k'.disk.table rootClusterNumber s = initDirectoryTable (fun _ => .zero) request.name 513 0 := by
  have chainEnd : (k.load rootClusterNumber).clusterMap rootClusterNumber = fat32FatEndOfFile :=
    (load_clusterMap (by decide) (by decide)).trans valid
  have table : (k.load rootClusterNumber).driverState.dirTableBuf = k.disk.table rootClusterNumber :=
    load_dirTableBuf (by decide)
  have absent : (findName (k.load rootClusterNumber).driverState.dirTableBuf request.name).isSome = false := by
    rw [table, new]
    rfl
  have cluster : freeCluster (k.load rootClusterNumber) 0 = some 513 :=
    freeCluster_root ((freeList_load (by decide)).trans free) (table ▸ self)
  obtain ⟨k₁, stored, _, attributes⟩ := setClusterMap_name (k.load rootClusterNumber) fat32FatEndOfFile
  have slot₁ : FirstFree k₁.driverState.dirTableBuf s := by
    rw [table] at attributes
    refine ⟨?_, fun j below => ?_⟩
    · rw [FAT32DirectoryEntry.Live, attributes s]
      exact slot.1
    · rw [FAT32DirectoryEntry.Live, attributes j]
      exact slot.2 j below
  have place (d : Disk) : freeSlot { k₁ with disk := d } = some s.val := freeSlot_eq slot₁
  simp only [write, parent, chainEnd, ne_eq, not_true_eq_false, ↓reduceIte, cluster, folder, writeFolder, absent,
    Bool.false_eq_true, stored, storeFat_eq, writeClusters_eq (show 513 < 2 ^ 26 by decide), place,
    setTableEntry_eq s.isLt, storeDirTable_eq (show rootClusterNumber < 2 ^ 26 by decide), Option.bind_eq_bind,
    Option.bind_some]
  refine ⟨_, rfl, ?_⟩
  rw [Disk.table_setTable, Function.update_self]

/-- The file `a.t` takes all clusters of a new volume. -/
theorem full_fillingFile :
    ∃ k, (∀ n < 64, VolumeFull k (numberedFolder n)) ∧ freeList k.disk.fatTable = [] ∧
      k.disk.table rootClusterNumber = Function.update freshRoot 1 (newEntry fillingFile 3) := by
  have split : List.range' 3 509 = 3 :: List.range' 4 508 ++ [] := by rw [List.append_nil, List.range'_succ]
  have count : (3 :: List.range' 4 508).length = needed fillingFile.bufferSize := by
    rw [List.length_cons, List.length_range', needed_fillingFile]
  obtain ⟨k, run, written⟩ := run_first fillingFile (by decide) (by decide) rfl split count
  have table := first_table written
  have free : freeList k.disk.fatTable = [] :=
    written.freeList fresh_zeroKernel.regular.sound (fresh_zeroKernel.freeList.trans split)
  have new {n : Nat} (bound : n < 64) : NewName (k.disk.table rootClusterNumber) (numberedFolder n) := by
    have root : (numberedFolder n).name ≠ rootName := fun same =>
      absurd (congrFun same 1) (show (0 : UInt8) ≠ rootName 1 by decide)
    have other : (newEntry fillingFile 3).name ≠ (numberedFolder n).name := by
      intro same
      have byte := congrArg UInt8.toNat (congrFun same 0)
      have value : (UInt8.ofNat n).toNat = n := UInt8.toNat_ofNat_of_lt' (by simp [UInt8.size]; omega)
      simp only [numberedFolder, ↓reduceIte, value] at byte
      exact absurd byte (show 97 ≠ n by omega)
    rw [table]
    exact (newName_freshRoot root).update other
  refine ⟨k, fun n bound => ⟨(run_regular run).wellFormed, .root, new bound, ⟨2, ?_⟩, ?_⟩, free, table⟩
  · exact table ▸ (by decide)
  · rw [free]
    exact needed_pos

/-- The folder 1 is not turned away there, and the folder 0, whose name is zeros, is. -/
theorem full_volume_refused_iff_folders :
    ∃ k, VolumeFull k (numberedFolder 1) ∧ ¬ WriteRefused k (numberedFolder 1) ∧
      VolumeFull k (numberedFolder 0) ∧ WriteRefused k (numberedFolder 0) := by
  obtain ⟨k, full, _⟩ := full_fillingFile
  refine ⟨k, full 1 (by decide), ?_, full 0 (by decide), ?_⟩
  · rw [full_volume_refused_iff (full 1 (by decide))]
    exact fun zeros => absurd (congrFun zeros.1 0) (by decide)
  · rw [full_volume_refused_iff (full 0 (by decide))]
    exact ⟨by decide, fun file => absurd rfl file⟩

/-- When a file fills a new volume, a folder is answered with 0 and entered in the root with cluster 513. -/
theorem full_volume_allocates_past :
    ∃ k, VolumeFull k (numberedFolder 1) ∧ ¬ WriteRefused k (numberedFolder 1) ∧
      ∃ k', write k (numberedFolder 1) = some (0, k') ∧ (k'.disk.table 2 2).Live ∧ (k'.disk.table 2 2).cluster = 513 := by
  obtain ⟨k, fulls, free, table⟩ := full_fillingFile
  have full := fulls 1 (by decide)
  have sound := full.wellFormed.sound
  have new : ¬ Taken (k.disk.table rootClusterNumber) (numberedFolder 1) := by
    rw [table]
    exact not_taken_update (not_taken_freshRoot (by decide) (by decide)) fun same => absurd same (by decide)
  have absent : findName (k.disk.table rootClusterNumber) (numberedFolder 1).name = none := findName_of_new rfl new
  have slot : FirstFree (k.disk.table rootClusterNumber) 2 := by
    rw [table]
    exact firstFree_freshRoot.update live_newEntry rfl (by decide)
  have self : (k.disk.table rootClusterNumber 0).name = rootName := by
    rw [table, Function.update_of_ne (by decide)]
    rfl
  obtain ⟨k', answer, entry⟩ := write_folder_past rfl sound.volume.root rfl absent free self slot
  refine ⟨k, full, NewEntry.not_refused ⟨full.wellFormed, .root, new⟩, k', answer, ?_, ?_⟩
  · exact entry ▸ rfl
  · exact entry ▸ (by decide)

end Brother420.Fat32
