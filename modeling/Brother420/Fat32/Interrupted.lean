import Brother420.Fat32.Erasing
import Brother420.Fat32.Indices

/-! # Interrupted writes

`write` stores its clusters one call of `write_clusters` after the other, and the
table of the parent last.  Until then only clusters that were free and their
allocation entries have changed, so a volume on which the write stops half way
has lost at most these clusters.
-/

namespace Brother420

open Packed (Bytes Layout)
open Linked (Chain)
open Fat32

/-- One call of `write_clusters`. -/
structure ClusterWrite where
  clusterNumber : Nat
  data : ClusterBuffer

namespace Disk

def writeCluster (d : Disk) (w : ClusterWrite) : Disk := @writeBlocks 4 d w.data (w.clusterNumber * 4 % 2 ^ 32)

/-- The disk that these writes reach, in order. -/
def writeAll (d : Disk) (log : List ClusterWrite) : Disk := log.foldl writeCluster d

variable {d : Disk} {w : ClusterWrite} {log log' : List ClusterWrite}

@[simp] theorem writeAll_nil : d.writeAll [] = d := rfl

@[simp] theorem writeAll_cons : d.writeAll (w :: log) = (d.writeCluster w).writeAll log := rfl

theorem writeAll_append : d.writeAll (log ++ log') = (d.writeAll log).writeAll log' := List.foldl_append

theorem writeCluster_eq (inside : w.clusterNumber < 2 ^ 26) :
    d.writeCluster w = d.setCluster w.clusterNumber w.data := by
  change @Memory.store 2048 d (blockSize * (w.clusterNumber * 4 % 2 ^ 32 % 2 ^ 28)) w.data = _
  rw [Kernel.clusterAddress inside]
  rfl

end Disk

namespace Fat32

open Kernel Volume

/-! ## The cluster writes of a write -/

namespace Kernel

/-- `write_clusters(driver_state.fat_table.cluster_map, 1, 1)` -/
def fatWrite (k : Kernel) : ClusterWrite :=
  ⟨fatClusterNumber, FAT32FileAllocationTable.layout k.driverState.fatTable⟩

/-- `write_clusters(driver_state.dir_table_buf.table, cluster, 1)` -/
def dirTableWrite (k : Kernel) (clusterNumber : Nat) : ClusterWrite :=
  ⟨clusterNumber, FAT32DirectoryTable.layout k.driverState.dirTableBuf⟩

variable (k : Kernel)

theorem fatWrite_congr {k k' : Kernel} (same : k'.driverState.fatTable = k.driverState.fatTable) :
    k'.fatWrite = k.fatWrite := by
  rw [fatWrite, same, fatWrite]

theorem writeClusters_disk (data : ClusterBuffer) (clusterNumber : Nat) :
    (k.writeClusters data clusterNumber).disk = k.disk.writeCluster ⟨clusterNumber, data⟩ := rfl

theorem storeFat_disk : k.storeFat.disk = k.disk.writeCluster k.fatWrite := rfl

theorem storeDirTable_disk (clusterNumber : Nat) :
    (k.storeDirTable clusterNumber).disk = k.disk.writeCluster (k.dirTableWrite clusterNumber) := rfl

end Kernel

/-- What an iteration stores: its part of the file, and then the allocation table as it leaves it. -/
def placeClusterLog (request : FAT32DriverRequest) (totalCluster clusterTable i : Nat) (k : Kernel) :
    List ClusterWrite :=
  match freeCluster k 0, placeCluster request totalCluster clusterTable i k with
  | some cluster, some k =>
    let data := if i < totalCluster - 1 then request.buf.bytes (clusterSize * i) 2048 else lastCluster request i
    [⟨cluster, data⟩, k.fatWrite]
  | _, _ => []

def placeClustersLog (request : FAT32DriverRequest) (totalCluster clusterTable : Nat) :
    (remaining i : Nat) → Kernel → List ClusterWrite
  | 0, _, _ => []
  | remaining + 1, i, k =>
    placeClusterLog request totalCluster clusterTable i k ++
      match placeCluster request totalCluster clusterTable i k with
      | none => []
      | some k => placeClustersLog request totalCluster clusterTable remaining (i + 1) k

/-- For a folder: the allocation table, the new table and the table of the parent. -/
def writeFolderLog (k : Kernel) (request : FAT32DriverRequest) (cluster : Nat) : List ClusterWrite :=
  if (findName k.driverState.dirTableBuf request.name).isSome then []
  else
    match writeFolder k request cluster with
    | none => []
    | some (_, k) =>
      let newDir := initDirectoryTable (fun _ => .zero) request.name cluster
      [k.fatWrite, ⟨cluster, FAT32DirectoryTable.layout newDir⟩, k.dirTableWrite request.parentClusterNumber.toNat]

/-- For a file: what the loop stores, and the table of the parent. -/
def writeFileLog (k : Kernel) (request : FAT32DriverRequest) (cluster : Nat) : List ClusterWrite :=
  if (findNameExt k.driverState.dirTableBuf request.name request.ext).isSome then []
  else
    let total := totalCluster request.bufferSize
    match freeSlot k with
    | none => []
    | some clusterTable =>
      match k.setTableEntry clusterTable (namedEntry (k.tableEntry clusterTable) request cluster) with
      | none => []
      | some k =>
        placeClustersLog request total clusterTable total 0 k ++
          match placeClusters request total clusterTable total 0 k with
          | none => []
          | some k => [k.dirTableWrite request.parentClusterNumber.toNat]

/-- The cluster writes that `write` issues, in order. -/
def writeLog (k : Kernel) (request : FAT32DriverRequest) : List ClusterWrite :=
  let k := k.load request.parentClusterNumber.toNat
  if k.clusterMap request.parentClusterNumber.toNat ≠ fat32FatEndOfFile then []
  else
    match freeCluster k 0 with
    | none => []
    | some cluster =>
      if request.bufferSize = 0 then writeFolderLog k request cluster else writeFileLog k request cluster

variable {k k' : Kernel} {request : FAT32DriverRequest} {code : Int8} {d d' : Disk} {w : ClusterWrite}
  {log : List ClusterWrite} {c p q total clusterTable remaining i : Nat} {l rest : List Nat} {s j : Fin 64}

/-! ## The writes make up the new disk -/

theorem setClusterMap_disk {x : Nat} {value : UInt32} (stored : k.setClusterMap x value = some k') :
    k'.disk = k.disk := by
  unfold setClusterMap at stored
  split at stored
  · obtain rfl := Option.some.inj stored
    rfl
  · split at stored
    · obtain rfl := Option.some.inj stored
      rfl
    · split at stored
      · obtain rfl := Option.some.inj stored
        rfl
      · cases stored

/-- An entry is stored in the table or in the buffer behind it, not in the allocation table. -/
theorem setTableEntry_disk {x : Nat} {e : FAT32DirectoryEntry} (stored : k.setTableEntry x e = some k') :
    k'.disk = k.disk ∧ k'.driverState.fatTable = k.driverState.fatTable := by
  unfold setTableEntry at stored
  split at stored
  · obtain rfl := Option.some.inj stored
    exact ⟨rfl, rfl⟩
  · split at stored
    · obtain rfl := Option.some.inj stored
      exact ⟨rfl, rfl⟩
    · cases stored

theorem writeAll_placeClusterLog (placed : placeCluster request total clusterTable i k = some k') :
    k.disk.writeAll (placeClusterLog request total clusterTable i k) = k'.disk := by
  have result := placed
  simp only [placeCluster, Option.bind_eq_bind, Option.bind_eq_some_iff] at result
  obtain ⟨cluster, found, clusterNext, _, result⟩ := result
  simp only [placeClusterLog, found, placed]
  split at result
  · rename_i more
    obtain ⟨k₁, linked, k₂, entered, result⟩ := by simpa only [Option.bind_eq_some_iff] using result
    obtain rfl := Option.some.inj result
    rw [if_pos more, ← setClusterMap_disk linked, ← (setTableEntry_disk entered).1]
    rfl
  · rename_i last
    obtain ⟨k₁, linked, k₂, entered, result⟩ := by simpa only [Option.bind_eq_some_iff] using result
    obtain rfl := Option.some.inj result
    rw [if_neg last, ← setClusterMap_disk linked, ← (setTableEntry_disk entered).1]
    rfl

/-- Induction on the iterations. -/
theorem writeAll_placeClustersLog (placed : placeClusters request total clusterTable remaining i k = some k') :
    k.disk.writeAll (placeClustersLog request total clusterTable remaining i k) = k'.disk := by
  induction remaining generalizing k i with
  | zero =>
    obtain rfl := Option.some.inj placed
    rfl
  | succ remaining ih =>
    simp only [placeClusters, Option.bind_eq_bind, Option.bind_eq_some_iff] at placed
    obtain ⟨k₁, step, later⟩ := placed
    rw [placeClustersLog, Disk.writeAll_append, writeAll_placeClusterLog step, step]
    exact ih later

theorem writeAll_writeFolderLog {cluster : Nat} (answer : writeFolder k request cluster = some (code, k')) :
    k.disk.writeAll (writeFolderLog k request cluster) = k'.disk := by
  unfold writeFolderLog
  have result := answer
  unfold writeFolder at result
  split at result
  · rename_i taken
    obtain ⟨_, rfl⟩ := Prod.mk.inj (Option.some.inj result)
    rw [if_pos taken]
    rfl
  · rename_i new
    rw [if_neg new, answer]
    simp only [Option.bind_eq_bind, Option.bind_eq_some_iff] at result
    obtain ⟨k₁, marked, clusterTable, _, k₂, entered, result⟩ := result
    obtain ⟨_, rfl⟩ := Prod.mk.inj (Option.some.inj result)
    obtain ⟨disk, fatTable⟩ := setTableEntry_disk entered
    -- the allocation table is not changed any more once it is stored
    have same : (k₂.storeDirTable request.parentClusterNumber.toNat).fatWrite = k₁.fatWrite := fatWrite_congr fatTable
    simp only [Disk.writeAll_cons, Disk.writeAll_nil]
    rw [same, storeDirTable_disk, disk, writeClusters_disk, storeFat_disk, setClusterMap_disk marked]
    rfl

theorem writeAll_writeFileLog {cluster : Nat} (answer : writeFile k request cluster = some (code, k')) :
    k.disk.writeAll (writeFileLog k request cluster) = k'.disk := by
  unfold writeFileLog
  unfold writeFile at answer
  split at answer
  · rename_i taken
    obtain ⟨_, rfl⟩ := Prod.mk.inj (Option.some.inj answer)
    rw [if_pos taken]
    rfl
  · rename_i new
    simp only [Option.bind_eq_bind, Option.bind_eq_some_iff] at answer
    obtain ⟨clusterTable, place, k₁, entered, k₂, placed, answer⟩ := answer
    obtain ⟨_, rfl⟩ := Prod.mk.inj (Option.some.inj answer)
    rw [if_neg new]
    simp only [place, namedEntry, entered, placed]
    rw [Disk.writeAll_append, ← (setTableEntry_disk entered).1, writeAll_placeClustersLog placed]
    rfl

/-- Any write that comes to an end has stored these clusters and no others. -/
theorem writeAll_writeLog (answer : write k request = some (code, k')) :
    k.disk.writeAll (writeLog k request) = k'.disk := by
  unfold writeLog
  unfold write at answer
  simp only at answer ⊢
  split at answer
  · rename_i invalid
    obtain ⟨_, rfl⟩ := Prod.mk.inj (Option.some.inj answer)
    rw [if_pos invalid]
    rfl
  · rename_i valid
    simp only [Option.bind_eq_bind, Option.bind_eq_some_iff] at answer
    obtain ⟨cluster, found, answer⟩ := answer
    rw [if_neg valid, found]
    split at answer
    · rename_i folder
      have stored := writeAll_writeFolderLog answer
      simp only [folder, ↓reduceIte]
      exact stored
    · rename_i file
      have stored := writeAll_writeFileLog answer
      simp only [file, ↓reduceIte]
      exact stored

/-! ## Keeping what is in use -/

namespace Volume

variable {v v' : Volume}

/-- The slots in use and the allocated clusters of `v` are the same in `v'`. -/
structure Preserves (v v' : Volume) : Prop where
  tables : ∀ q i, v.Directory q → (v.table q i).Live → v'.table q i = v.table q i
  fat : ∀ c, v.fat c ≠ 0 → v'.fat c = v.fat c

theorem Preserves.directory (preserves : Preserves v v') (directory : v.Directory q) : v'.Directory q := by
  induction directory with
  | root => exact .root
  | child parent entry live folder ih =>
    have same := preserves.tables _ _ parent live
    rw [← same] at live folder ⊢
    exact .child ih entry live folder

theorem Preserves.chain (preserves : Preserves v v') (sound : v.Sound) (directory : v.Directory q)
    (live : (v.table q j).Live) (chain : v.SlotChain q j l) : v'.SlotChain q j l := by
  obtain ⟨l₀, chain₀, allocated⟩ := sound.live_chain directory live
  obtain rfl := chain.unique chain₀
  unfold SlotChain
  rw [preserves.tables q j directory live]
  exact chain.congr fun c member => next_congr (preserves.fat c (allocated c member).2)

theorem Added.preserves {e : FAT32DirectoryEntry} (added : Added v v' p s e l) : Preserves v v' where
  tables _ _ directory live := added.table_eq directory live
  fat c used := added.fatFrame c fun member => used (added.fresh c member)

/-- `v'` differs from `v` in clusters that are free in `v`, and in their allocation entries. -/
structure Leaked (v v' : Volume) : Prop where
  tables : ∀ q, v.Directory q → v'.table q = v.table q
  fat : ∀ c, v.fat c ≠ 0 → v'.fat c = v.fat c

namespace Leaked

variable (leaked : Leaked v v')
include leaked

theorem preserves : Preserves v v' where
  tables q j directory _ := congrFun (leaked.tables q directory) j
  fat := leaked.fat

theorem directory_iff : v'.Directory q ↔ v.Directory q := by
  apply directory_congr
  intro q j directory _
  rw [leaked.tables q directory]
  exact ⟨Iff.rfl, rfl, rfl⟩

theorem slot_old (slot : v'.Slot q j) : v.Slot q j := by
  have directory := leaked.directory_iff.mp slot.directory
  exact ⟨directory, slot.entry, leaked.tables q directory ▸ slot.live⟩

theorem chain_back (sound : v.Sound) (slot : v.Slot q j) (chain : v'.SlotChain q j l) : v.SlotChain q j l := by
  obtain ⟨l₀, chain₀, _⟩ := sound.chain slot
  obtain rfl := chain.unique (leaked.preserves.chain sound slot.directory slot.live chain₀)
  exact chain₀

/-- Lost clusters do no harm to the structure. -/
protected theorem sound (sound : v.Sound) : v'.Sound where
  reserved0 := by
    rw [leaked.fat 0 (by rw [sound.reserved0]; decide), sound.reserved0]
  reserved1 := by
    rw [leaked.fat 1 (by rw [sound.reserved1]; decide), sound.reserved1]
  root := by
    rw [leaked.fat _ (by rw [sound.root]; decide), sound.root]
  self := by
    intro q directory
    have old := leaked.directory_iff.mp directory
    rw [leaked.tables q old]
    exact sound.self old
  free := by
    intro q j directory
    have old := leaked.directory_iff.mp directory
    rw [leaked.tables q old]
    exact sound.free old
  chain := by
    intro q j slot
    have old := leaked.slot_old slot
    obtain ⟨l, chain, length, range⟩ := sound.chain old
    refine ⟨l, leaked.preserves.chain sound old.directory old.live chain, ?_, range⟩
    rw [leaked.tables q old.directory, length]
  disjoint := by
    intro q j r m l l' c slot slot' chain chain' member member'
    have old := leaked.slot_old slot
    have old' := leaked.slot_old slot'
    exact sound.disjoint old old' (leaked.chain_back sound old chain) (leaked.chain_back sound old' chain') member
      member'

end Leaked

end Volume

/-! ## Writes to free clusters -/

/-- A write of one of the clusters `l`, or of an allocation table that differs from that of `d` in entries of
    clusters of `l` only. -/
def Harmless (d : Disk) (l : List Nat) (w : ClusterWrite) : Prop :=
  w.clusterNumber ∈ l ∨ ∃ t : FAT32FileAllocationTable,
    w = ⟨fatClusterNumber, FAT32FileAllocationTable.layout t⟩ ∧
      ∀ c, c ∉ l → FAT32FileAllocationTable.at t c = d.fat c

/-- Only the clusters of `l` and their allocation entries differ. -/
structure Differs (l : List Nat) (d d' : Disk) : Prop where
  fat : ∀ c, c ∉ l → d'.fat c = d.fat c
  frame : ∀ c, c ≠ fatClusterNumber → c ∉ l → d'.cluster c = d.cluster c

theorem Differs.write {d₁ : Disk} (differs : Differs l d d₁) (inside : ∀ c ∈ l, 3 ≤ c ∧ c < 512)
    (harmless : Harmless d l w) : Differs l d (d₁.writeCluster w) := by
  rcases harmless with member | ⟨t, rfl, agrees⟩
  · have bounds := inside _ member
    rw [Disk.writeCluster_eq (by omega)]
    refine ⟨fun c outside => ?_, fun c notFat outside => ?_⟩
    · rw [Disk.fat_setCluster (by omega), differs.fat c outside]
    · have different : c ≠ w.clusterNumber := by
        rintro rfl
        exact outside member
      rw [Disk.cluster_setCluster_of_ne different, differs.frame c notFat outside]
  · have stored : d₁.writeCluster ⟨fatClusterNumber, FAT32FileAllocationTable.layout t⟩ = d₁.setFat t :=
      Disk.writeCluster_eq (show fatClusterNumber < 2 ^ 26 by decide)
    rw [stored]
    refine ⟨fun c outside => ?_, fun c notFat outside => ?_⟩
    · rw [Disk.fat_setFat, agrees c outside]
    · exact (Disk.cluster_setCluster_of_ne notFat).trans (differs.frame c notFat outside)

/-- Induction on the writes. -/
theorem Differs.writeAll {d₁ : Disk} (differs : Differs l d d₁) (inside : ∀ c ∈ l, 3 ≤ c ∧ c < 512)
    (harmless : ∀ w ∈ log, Harmless d l w) : Differs l d (d₁.writeAll log) := by
  induction log generalizing d₁ with
  | nil => exact differs
  | cons w log ih =>
    exact ih (differs.write inside (harmless w List.mem_cons_self))
      fun w member => harmless w (List.mem_cons_of_mem _ member)

theorem Differs.leaked (differs : Differs l d d') (sound : d.Sound) (free : ∀ c ∈ l, d.fat c = 0) :
    Leaked d.volume d'.volume where
  tables q directory := by
    have range := sound.volume.directory_range directory
    have used := sound.volume.directory_fat directory
    apply Disk.table_congr
    apply differs.frame q (by simp only [fatClusterNumber]; omega)
    intro member
    exact absurd (used.symm.trans (free q member)) (by decide)
  fat c used := differs.fat c fun member => used (free c member)

/-! ## The writes before the last one -/

theorem placeClusterLog_harmless {k₁ : Kernel} (found : freeCluster k 0 = some c)
    (step : placeCluster request total clusterTable i k = some k₁) (inside : c ∈ l)
    (agrees : ∀ x, x ∉ l → FAT32FileAllocationTable.at k₁.driverState.fatTable x = d.fat x)
    (member : w ∈ placeClusterLog request total clusterTable i k) : Harmless d l w := by
  simp only [placeClusterLog, found, step, List.mem_cons, List.not_mem_nil, or_false] at member
  rcases member with rfl | rfl
  · exact .inl inside
  · exact .inr ⟨_, rfl, agrees⟩

/-- Induction on the clusters still to be placed; `m` are all of the file. -/
theorem placeClustersLog_harmless {m : List Nat} (free : freeList k.driverState.fatTable = l ++ rest)
    (notFat : 1 ∉ l) (count : i + l.length = total) (full : clusterSize * (total - 1) ≤ request.bufferSize.toNat)
    (inside : l ⊆ m) (agrees : ∀ x, x ∉ m → FAT32FileAllocationTable.at k.driverState.fatTable x = d.fat x)
    (member : w ∈ placeClustersLog request total s l.length i k) : Harmless d m w := by
  induction l generalizing k i with
  | nil => cases member
  | cons c l ih =>
    rw [List.length_cons, placeClustersLog, List.mem_append] at member
    have here : c ∈ m := inside List.mem_cons_self
    have found := freeCluster_zero free
    have bound := (freeList_head free).1
    cases l with
    | nil =>
      obtain ⟨k₁, step, placed⟩ : ∃ k₁, placeCluster request total s i k = some k₁ ∧ Placed request s i [c] k k₁ :=
        placeCluster_last count free fun same => notFat (same ▸ List.mem_cons_self)
      rw [step] at member
      rcases member with first | later
      · refine placeClusterLog_harmless found step here (fun x outside => ?_) first
        have different : x ∉ [c] := fun same => outside (List.mem_singleton.mp same ▸ here)
        rw [placed.fat, Linked.link_frame different, agrees x outside]
      · cases later
    | cons e l =>
      simp only [List.length_cons] at count
      have atLeast : clusterSize * (i + 1) ≤ clusterSize * (total - 1) := Nat.mul_le_mul_left _ (by omega)
      obtain ⟨k₁, step, continued⟩ :=
        placeCluster_next (s := s) (by omega : i + 1 < total) (Nat.le_trans atLeast full) free
      have agrees₁ : ∀ x, x ∉ m → FAT32FileAllocationTable.at k₁.driverState.fatTable x = d.fat x := by
        intro x outside
        have different : x ≠ c := fun same => outside (same ▸ here)
        rw [continued.fat, FAT32FileAllocationTable.at_set _ bound, Function.update_of_ne different, agrees x outside]
      rw [step] at member
      rcases member with first | later
      · exact placeClusterLog_harmless found step here agrees₁ first
      · exact ih (continued.fat ▸ freeList_set free (freeList_second free).2)
          (fun member => notFat (List.mem_cons_of_mem _ member)) (by simp only [List.length_cons]; omega)
          (fun x member => inside (List.mem_cons_of_mem _ member)) agrees₁ later

section Write

variable (parent : request.parentClusterNumber.toNat = p) (inside : p < 512)
  (valid : k.disk.fat p = fat32FatEndOfFile) (free : freeList k.disk.fatTable = c :: rest)
include parent inside valid free

theorem writeLog_eq :
    writeLog k request =
      if request.bufferSize = 0 then writeFolderLog (k.load p) request c else writeFileLog (k.load p) request c := by
  have chainEnd : (k.load p).clusterMap p = fat32FatEndOfFile := (load_clusterMap (by omega) inside).trans valid
  have first : freeCluster (k.load p) 0 = some c := freeCluster_zero ((freeList_load (by omega)).trans free)
  simp only [writeLog, parent, chainEnd, ne_eq, not_true_eq_false, ↓reduceIte, first]

/-- A write that is turned away stores nothing. -/
theorem writeLog_taken (taken : Taken (k.disk.table p) request) : writeLog k request = [] := by
  rw [← load_dirTableBuf (k := k) (c := p) (by omega)] at taken
  rw [writeLog_eq parent inside valid free]
  by_cases folder : request.bufferSize = 0
  · rw [if_pos folder, writeFolderLog, if_pos ((taken_folder_iff folder).mp taken)]
  · rw [if_neg folder, writeFileLog, if_pos ((taken_file_iff folder).mp taken)]

/-- A new folder: all writes but the last are harmless. -/
theorem writeLog_folder (folder : request.bufferSize = 0) (new : ¬ Taken (k.disk.table p) request)
    (slot : FirstFree (k.disk.table p) s) :
    ∃ before last, writeLog k request = before ++ [last] ∧ ∀ w ∈ before, Harmless k.disk [c] w := by
  have bound := (freeList_head free).1
  have absent : findName (k.disk.table p) request.name = none := findName_of_new folder new
  obtain ⟨k', wrote, cached, _⟩ := write_folder parent inside valid folder absent free slot
  have table : (k.load p).driverState.dirTableBuf = k.disk.table p := load_dirTableBuf (by omega)
  have search : (findName (k.load p).driverState.dirTableBuf request.name).isSome = false := by
    rw [table, absent]
    rfl
  have answer : writeFolder (k.load p) request c = some (0, k') := by
    rw [write_valid parent inside valid free, if_pos folder] at wrote
    exact wrote
  let newDir := initDirectoryTable (fun _ => .zero) request.name c
  refine ⟨[k'.fatWrite, ⟨c, FAT32DirectoryTable.layout newDir⟩], k'.dirTableWrite p, ?_, ?_⟩
  · rw [writeLog_eq parent inside valid free, if_pos folder, writeFolderLog]
    simp only [search, Bool.false_eq_true, ↓reduceIte, answer, parent]
    rfl
  · intro w member
    simp only [List.mem_cons, List.not_mem_nil, or_false] at member
    rcases member with rfl | rfl
    · refine .inr ⟨_, rfl, fun x outside => ?_⟩
      rw [cached, FAT32FileAllocationTable.at_set _ bound, Function.update_of_ne (by simpa using outside)]
      rfl
    · exact .inl List.mem_cons_self

/-- A new file: all writes but the last are harmless. -/
theorem writeLog_file (file : request.bufferSize ≠ 0) (new : ¬ Taken (k.disk.table p) request)
    (slot : FirstFree (k.disk.table p) s) {m : List Nat} (split : freeList k.disk.fatTable = m ++ l) (nonempty : m ≠ [])
    (count : m.length = totalCluster request.bufferSize) (notFat : 1 ∉ m) :
    ∃ before last, writeLog k request = before ++ [last] ∧ ∀ w ∈ before, Harmless k.disk m w := by
  have absent : findNameExt (k.disk.table p) request.name request.ext = none := findNameExt_of_new file new
  have table : (k.load p).driverState.dirTableBuf = k.disk.table p := load_dirTableBuf (by omega)
  have place : freeSlot (k.load p) = some s.val := freeSlot_eq (by rw [table]; exact slot)
  have search : (findNameExt (k.load p).driverState.dirTableBuf request.name request.ext).isSome = false := by
    rw [table, absent]
    rfl
  have full : clusterSize * (totalCluster request.bufferSize - 1) ≤ request.bufferSize.toNat := by
    rw [totalCluster_eq, clusterSize]
    omega
  obtain ⟨k₁, entered, cached⟩ : ∃ k₁, (k.load p).setTableEntry s (namedEntry ((k.load p).tableEntry s) request c) =
      some k₁ ∧ k₁.driverState.fatTable = k.disk.fatTable := by
    rw [setTableEntry_eq s.isLt]
    exact ⟨_, rfl, load_fatTable (by omega)⟩
  have split₁ : freeList k₁.driverState.fatTable = m ++ l := by rw [cached, split]
  have count₁ : 0 + m.length = totalCluster request.bufferSize := by rw [count, Nat.zero_add]
  obtain ⟨k₂, placed, _⟩ := placeClusters_placed (s := s) nonempty split₁ notFat count₁ full
  rw [count] at placed
  refine ⟨placeClustersLog request (totalCluster request.bufferSize) s (totalCluster request.bufferSize) 0 k₁,
    k₂.dirTableWrite p, ?_, ?_⟩
  · rw [writeLog_eq parent inside valid free, if_neg file, writeFileLog]
    simp only [search, Bool.false_eq_true, ↓reduceIte, place, entered, placed, parent]
  · intro w member
    rw [← count] at member
    refine placeClustersLog_harmless split₁ notFat (Nat.zero_add _) (count.symm ▸ full) (fun x member => member) ?_ member
    intro x _
    rw [cached]
    rfl

end Write

/-! ## Disks on which a write was interrupted -/

/-- On `d'` the slots in use of `d` are still in use, with the same chains and the same data but for the table
    of directory `p`, and every slot in use has a chain of allocated clusters. -/
structure Unharmed (p : Nat) (d d' : Disk) : Prop where
  kept : ∀ q i l, d.volume.Directory q → (d.table q i).Live → d.volume.SlotChain q i l →
    d'.volume.Directory q ∧ d'.table q i = d.table q i ∧ d'.volume.SlotChain q i l ∧
      ∀ c ∈ l, c ≠ p → d'.cluster c = d.cluster c
  complete : ∀ q i, d'.volume.Directory q → (d'.table q i).Live →
    ∃ l, d'.volume.SlotChain q i l ∧ ∀ c ∈ l, d'.fat c ≠ 0

theorem unharmed_of_preserves (sound : d.Sound) (preserves : Preserves d.volume d'.volume) (sound' : d'.volume.Sound)
    (frame : ∀ c, c ≠ fatClusterNumber → c ≠ p → d.fat c ≠ 0 → d'.cluster c = d.cluster c) : Unharmed p d d' where
  kept := by
    intro q i l directory live chain
    refine ⟨preserves.directory directory, preserves.tables q i directory live,
      preserves.chain sound.volume directory live chain, ?_⟩
    intro c member other
    obtain ⟨l₀, chain₀, allocated⟩ := sound.volume.live_chain directory live
    obtain rfl := chain.unique chain₀
    obtain ⟨range, used⟩ := allocated c member
    exact frame c (by simp only [fatClusterNumber]; omega) other used
  complete := by
    intro q i directory live
    obtain ⟨l, chain, allocated⟩ := sound'.live_chain directory live
    exact ⟨l, chain, fun c member => (allocated c member).2⟩

theorem Differs.unharmed (differs : Differs l d d') (sound : d.Sound) (free : ∀ c ∈ l, d.fat c = 0) :
    Unharmed p d d' := by
  have leaked := differs.leaked sound free
  refine unharmed_of_preserves sound leaked.preserves (leaked.sound sound.volume) ?_
  exact fun c notFat _ used => differs.frame c notFat fun member => used (free c member)

theorem Written.unharmed {e : FAT32DirectoryEntry} (written : Written request p s e l k k') (sound : k.disk.Sound) :
    Unharmed p k.disk k'.disk :=
  unharmed_of_preserves sound written.added.preserves (written.added.sound sound.volume)
    fun c notFat other used => written.frame c notFat other fun member => used (written.added.fresh c member)

/-- All writes but the last go to the clusters that the entry is to have. -/
theorem writeLog_split {e : FAT32DirectoryEntry} (sound : k.disk.Sound) (parent : request.parentClusterNumber.toNat = p)
    (written : Written request p s e l k k') :
    ∃ before last, writeLog k request = before ++ [last] ∧ ∀ w ∈ before, Harmless k.disk l w := by
  have directory := written.added.parent
  have inside := (sound.volume.directory_range directory).2
  have valid := sound.volume.directory_fat directory
  obtain ⟨rest, split⟩ := written.free
  have count : l.length = needed request.bufferSize := by
    rw [written.added.length, clusters_eq_needed, written.filesize]
  obtain ⟨c, m, rfl⟩ := List.exists_cons_of_length_pos (count ▸ needed_pos)
  by_cases folder : request.bufferSize = 0
  · rw [needed, if_pos folder] at count
    obtain rfl : m = [] := by simpa using count
    exact writeLog_folder parent inside valid split folder written.newName written.first
  · rw [needed, if_neg folder] at count
    refine writeLog_file parent inside valid split folder written.newName written.first split (by simp) count ?_
    intro member
    have bounds := written.added.mem_range sound.volume member
    omega

/-- On a well-formed disk with room, a write that was interrupted behind any of its cluster writes has harmed
    nothing. -/
theorem interrupted_write_unharmed (wellFormed : k.disk.WellFormed) (directory : k.disk.volume.Directory p)
    (parent : request.parentClusterNumber.toNat = p) (room : Room k.disk p request.bufferSize) (n : Nat) :
    Unharmed p k.disk (k.disk.writeAll ((writeLog k request).take n)) := by
  have sound := wellFormed.sound
  have inside := (sound.volume.directory_range directory).2
  by_cases taken : Taken (k.disk.table p) request
  · obtain ⟨c, rest, free⟩ := List.exists_cons_of_length_pos (Nat.lt_of_lt_of_le needed_pos room.clusters)
    rw [writeLog_taken parent inside (sound.volume.directory_fat directory) free taken, List.take_nil]
    have same : Differs [] k.disk k.disk := ⟨fun _ _ => rfl, fun _ _ _ => rfl⟩
    exact same.unharmed sound (by simp)
  · obtain ⟨k', s, e, l, wrote, written⟩ := write_accepted sound directory parent room taken
    obtain ⟨before, last, log, harmless⟩ := writeLog_split sound parent written
    by_cases whole : before.length < n
    -- the last write, of the parent's table, is done too
    · have all := writeAll_writeLog wrote
      rw [log] at all ⊢
      rw [List.take_of_length_le (by simp; omega), all]
      exact written.unharmed sound
    · rw [log, List.take_append_of_le_length (by omega)]
      have same : Differs l k.disk k.disk := ⟨fun _ _ => rfl, fun _ _ _ => rfl⟩
      refine (same.writeAll (fun c member => written.added.mem_range sound.volume member) ?_).unharmed sound
        written.added.fresh
      exact fun w member => harmless w (List.mem_of_mem_take member)

/-- A file `a.t` of two clusters. -/
def twoClusterFile : FAT32DriverRequest := ⟨fun _ => 0, text ['a'], text ['t'], 2, 4096⟩

/-- On a new volume its write is interrupted when cluster 3 is linked to cluster 4, which is still free. -/
theorem interrupted_write_unharmed_file :
    Unharmed rootClusterNumber zeroKernel.disk (zeroKernel.disk.writeAll ((writeLog zeroKernel twoClusterFile).take 2)) :=
  interrupted_write_unharmed fresh_zeroKernel.regular.wellFormed .root rfl (room_zeroKernel (by decide)) 2

end Fat32

end Brother420
