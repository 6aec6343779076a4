import Brother420.Fat32.PowerFailures

/-! # Power failures while the disk is formatted

`create_fat32` stores the signature first.  When the power fails behind it, the
next start takes the disk for a formatted one, and what is missing stays as it
was before.
-/

namespace Brother420.Fat32

open Packed (Bytes Layout)
open Runs (Run)
open Kernel Volume

/-- The clusters that `create_fat32` writes behind the boot sector. -/
def createLog (k : Kernel) : List ClusterWrite :=
  let fatTable := Function.update (Function.update (Function.update k.driverState.fatTable
    0 cluster0Value) 1 cluster1Value) 2 fat32FatEndOfFile
  [⟨fatClusterNumber, FAT32FileAllocationTable.layout fatTable⟩,
    ⟨2, FAT32DirectoryTable.layout (initDirectoryTable (fun _ => .zero) rootName 2)⟩]

/-- The blocks that `create_fat32` hands to the drive, in order. -/
def createBlocks (k : Kernel) : List BlockWrite := ⟨0, fsSignature⟩ :: (createLog k).flatMap ClusterWrite.blocks

theorem writeEach_createBlocks (k : Kernel) : k.disk.writeEach (createBlocks k) = (createFat32 k).disk := by
  have inside : ∀ w ∈ createLog k, w.clusterNumber < 2 ^ 26 := by
    intro w member
    simp only [createLog, List.mem_cons, List.not_mem_nil, or_false] at member
    obtain rfl | rfl := member
    · exact show fatClusterNumber < 2 ^ 26 by decide
    · exact show 2 < 2 ^ 26 by decide
  have first : k.disk.writeEach (createBlocks k) =
      Disk.writeEach (Memory.store k.disk 0 fsSignature) ((createLog k).flatMap ClusterWrite.blocks) := rfl
  rw [first, Disk.writeEach_flatMap inside]
  rfl

/-- The disk on which the formatting of `d` by a kernel that was just loaded has stopped behind `n` blocks. -/
def tornFormat (d : Disk) (memoryAfter : Memory) (n : Nat) : Disk :=
  d.writeEach ((createBlocks ⟨d, .zero, memoryAfter⟩).take n)

/-- Where the first `n` blocks do not reach, `d` already is what a file system without entries is. -/
structure EmptyBehind (d : Disk) (n : Nat) : Prop where
  reserved0 : n ≤ 1 → d.fat 0 = cluster0Value
  reserved1 : n ≤ 1 → d.fat 1 = cluster1Value
  root : n ≤ 1 → d.fat rootClusterNumber = fat32FatEndOfFile
  live : n ≤ 5 → (d.table rootClusterNumber 0).Live
  self : n ≤ 5 → (d.table rootClusterNumber 0).cluster = rootClusterNumber
  free : ∀ i : Fin 64, i ≠ 0 → n ≤ 5 + i.val / 16 → d.table rootClusterNumber i = .zero

variable {d : Disk} {v : Volume} {t : FAT32DirectoryTable} {c n : Nat} {memoryAfter : Memory}

/-! ## Disks that show no files -/

/-- All that is allocated but the root may be lost. -/
theorem OnlyRoot.lossy (only : OnlyRoot v) : v.Lossy := by
  let u : Volume := ⟨FAT32FileAllocationTable.at freshFat, v.table⟩
  have bare : OnlyRoot u := ⟨rfl, rfl, rfl, only.live, only.self, only.free⟩
  refine ⟨u, bare.regular rfl, fun _ _ => rfl, fun c used => ?_⟩
  have few : c < 3 := by
    by_contra lower
    exact used (freshFat_free (by omega))
  obtain rfl | rfl | rfl : c = 0 ∨ c = 1 ∨ c = 2 := by omega
  · exact only.reserved0
  · exact only.reserved1
  · exact only.root

theorem holdsTree_newTree_iff : HoldsTree d newTree ↔ d.bootSector = fsSignature ∧ OnlyRoot d.volume := by
  constructor
  · intro holds
    have sound := holds.lossy.volume.sound
    obtain ⟨live, self⟩ := sound.self .root
    refine ⟨holds.lossy.boot, sound.reserved0, sound.reserved1, sound.root, live, self, fun i entry => ?_⟩
    apply sound.free .root
    intro live
    have none_ : newTree ([] ++ [(d.table rootClusterNumber i).entryName]) = none := Function.update_of_ne (by simp) _ _
    exact (shows_none_iff holds.lossy.volume.distinct holds.shows .here).mp none_ i ⟨.root, entry, live⟩ rfl
  · rintro ⟨boot, only⟩
    exact ⟨⟨boot, only.lossy⟩, fun _ _ slot => absurd slot only.no_slot, only.shows⟩

/-! ## What is left -/

theorem tornFormat_succ : tornFormat d memoryAfter (n + 1) =
    (Disk.writeEach (Memory.store d 0 fsSignature)
      ((ClusterWrite.blocks ⟨fatClusterNumber, FAT32FileAllocationTable.layout freshFat⟩).take n)).writeEach
        ((ClusterWrite.blocks ⟨rootClusterNumber, FAT32DirectoryTable.layout freshRoot⟩).take (n - 4)) := by
  have behind : tornFormat d memoryAfter (n + 1) = Disk.writeEach (Memory.store d 0 fsSignature)
      ((ClusterWrite.blocks ⟨fatClusterNumber, FAT32FileAllocationTable.layout freshFat⟩ ++
        ClusterWrite.blocks ⟨rootClusterNumber, FAT32DirectoryTable.layout freshRoot⟩).take n) := rfl
  rw [behind, List.take_append, Disk.writeEach_append]
  rfl

theorem tornFormat_boot : (tornFormat d memoryAfter (n + 1)).bootSector = fsSignature := by
  have boot : Disk.bootSector (Memory.store d 0 fsSignature) = fsSignature := Memory.bytes_store _
  rw [← boot, tornFormat_succ]
  apply Disk.bootSector_congr
  rw [Disk.cluster_torn_of_ne (show rootClusterNumber < 2 ^ 26 by decide) (by decide),
    Disk.cluster_torn_of_ne (show fatClusterNumber < 2 ^ 26 by decide) (by decide)]

theorem tornFormat_fat : (tornFormat d memoryAfter (n + 1)).fat c =
    if c / 128 < n then FAT32FileAllocationTable.at freshFat c else d.fat c := by
  have signed : Disk.fat (Memory.store d 0 fsSignature) = d.fat := Disk.fat_congr (Memory.bytes_store_apart (by decide))
  have kept (d : Disk) : (d.writeEach ((ClusterWrite.blocks
      ⟨rootClusterNumber, FAT32DirectoryTable.layout freshRoot⟩).take (n - 4))).fat = d.fat :=
    Disk.fat_congr (Disk.cluster_torn_of_ne (show rootClusterNumber < 2 ^ 26 by decide) (by decide))
  rw [tornFormat_succ, kept, Disk.fat_torn, signed]

theorem tornFormat_table (i : Fin 64) : (tornFormat d memoryAfter (n + 1)).table rootClusterNumber i =
    if i.val / 16 < n - 4 then freshRoot i else d.table rootClusterNumber i := by
  have signed : Disk.table (Memory.store d 0 fsSignature) rootClusterNumber = d.table rootClusterNumber :=
    Disk.table_congr (Memory.bytes_store_apart (by decide))
  have kept (d : Disk) : (d.writeEach ((ClusterWrite.blocks
      ⟨fatClusterNumber, FAT32FileAllocationTable.layout freshFat⟩).take n)).table rootClusterNumber =
        d.table rootClusterNumber :=
    Disk.table_congr (Disk.cluster_torn_of_ne (show fatClusterNumber < 2 ^ 26 by decide) (by decide))
  rw [tornFormat_succ, Disk.table_torn (by decide), kept, signed]

theorem tornFormat_fat_iff {value : UInt32} (early : c < 128) (fresh : FAT32FileAllocationTable.at freshFat c = value) :
    (tornFormat d memoryAfter (n + 1)).fat c = value ↔ (n + 1 ≤ 1 → d.fat c = value) := by
  rw [tornFormat_fat]
  split
  · exact iff_of_true fresh fun behind => by omega
  · exact ⟨fun old _ => old, fun old => old (by omega)⟩

theorem tornFormat_table_iff {P : FAT32DirectoryEntry → Prop} {i : Fin 64} (fresh : P (freshRoot i)) :
    P ((tornFormat d memoryAfter (n + 1)).table rootClusterNumber i) ↔
      (n + 1 ≤ 5 + i.val / 16 → P (d.table rootClusterNumber i)) := by
  rw [tornFormat_table]
  split
  · exact iff_of_true fresh fun behind => by omega
  · exact ⟨fun old _ => old, fun old => old (by omega)⟩

theorem onlyRoot_tornFormat_iff : OnlyRoot (tornFormat d memoryAfter (n + 1)).volume ↔ EmptyBehind d (n + 1) := by
  have live : (freshRoot 0).Live := rfl
  have self : (freshRoot 0).cluster = rootClusterNumber := cluster_initDirectoryTable (by decide)
  constructor
  · intro only
    exact {
      reserved0 := (tornFormat_fat_iff (by decide) rfl).mp only.reserved0
      reserved1 := (tornFormat_fat_iff (by decide) rfl).mp only.reserved1
      root := (tornFormat_fat_iff (by decide) rfl).mp only.root
      live := (tornFormat_table_iff live).mp only.live
      self := (tornFormat_table_iff (P := fun e => e.cluster = rootClusterNumber) self).mp only.self
      free := fun i entry =>
        (tornFormat_table_iff (P := fun e => e = .zero) (freshRoot_other entry)).mp (only.free i entry) }
  · intro empty
    exact {
      reserved0 := (tornFormat_fat_iff (by decide) rfl).mpr empty.reserved0
      reserved1 := (tornFormat_fat_iff (by decide) rfl).mpr empty.reserved1
      root := (tornFormat_fat_iff (by decide) rfl).mpr empty.root
      live := (tornFormat_table_iff live).mpr empty.live
      self := (tornFormat_table_iff (P := fun e => e.cluster = rootClusterNumber) self).mpr empty.self
      free := fun i entry =>
        (tornFormat_table_iff (P := fun e => e = .zero) (freshRoot_other entry)).mpr (empty.free i entry) }

/-! ## The next start -/

/-- The next start ends with a file system without entries exactly if nothing was stored, or the old contents stand in
    for what was not stored. -/
theorem torn_format_empty_iff (unformatted : d.bootSector ≠ fsSignature) (n : Nat) (memoryAfter memoryAfter' : Memory) :
    HoldsTree (initializeFilesystemFat32 ⟨tornFormat d memoryAfter n, .zero, memoryAfter'⟩).disk newTree ↔
      n = 0 ∨ EmptyBehind d n := by
  cases n with
  | zero => exact iff_of_true (holdsTree_fresh (initialize_fresh unformatted)) (.inl rfl)
  | succ n =>
    rw [restart_disk tornFormat_boot, holdsTree_newTree_iff, onlyRoot_tornFormat_iff]
    constructor
    · rintro ⟨_, empty⟩
      exact .inr empty
    · rintro (none_ | empty)
      · cases none_
      · exact ⟨tornFormat_boot, empty⟩

theorem emptyBehind_zeros_iff : EmptyBehind (fun _ => 0) n ↔ 6 ≤ n := by
  have zero (i : Fin 64) : Disk.table (fun _ => 0) rootClusterNumber i = .zero := rfl
  constructor
  · intro empty
    by_contra late
    have live := empty.live (by omega)
    rw [zero] at live
    exact FAT32DirectoryEntry.not_live_zero live
  · intro enough
    exact ⟨fun _ => by omega, fun _ => by omega, fun _ => by omega, fun _ => by omega, fun _ => by omega,
      fun i _ _ => zero i⟩

/-- On a disk of zeros the formatting has to come as far as the first block of the root. -/
theorem torn_format_empty_iff_zeros :
    ¬ HoldsTree (initializeFilesystemFat32 ⟨tornFormat (fun _ => 0) (fun _ => 0) 5, .zero, fun _ => 0⟩).disk newTree ∧
    HoldsTree (initializeFilesystemFat32 ⟨tornFormat (fun _ => 0) (fun _ => 0) 6, .zero, fun _ => 0⟩).disk newTree := by
  have unformatted : Disk.bootSector (fun _ => 0) ≠ fsSignature := by
    intro same
    exact absurd (congrFun same 0) (by decide)
  constructor
  · rw [torn_format_empty_iff unformatted, emptyBehind_zeros_iff]
    decide
  · rw [torn_format_empty_iff unformatted, emptyBehind_zeros_iff]
    decide

/-! ## Without the allocation table -/

/-- Reads, writes to the root, restarts, and power failures during such writes. -/
def Event.ToRoot : Event → Prop
  | .request _ (.read _) | .request _ (.readDirectory _) | .restart _ _ => True
  | .request _ (.write r) | .powerFailure _ r _ _ _ => r.parentClusterNumber = 2
  | .request _ (.delete _) => False

/-- The disk has the signature, and its root is no directory. -/
structure Rootless (d : Disk) : Prop where
  boot : d.bootSector = fsSignature
  root : d.fat rootClusterNumber ≠ fat32FatEndOfFile

section Rootless

variable {d₁ : Disk} {k : Kernel} {request : FAT32DriverRequest} {event : Event} {history : List (Event × Option Int8)}

theorem Rootless.write (rootless : Rootless k.disk) (parent : request.parentClusterNumber = 2) :
    write k request = some (2, k.load rootClusterNumber) :=
  write_invalid_parent (by rw [parent]; rfl) (by decide) rootless.root

theorem Rootless.writeLog (rootless : Rootless k.disk) (two : request.parentClusterNumber = 2) :
    writeLog k request = [] := by
  have parent : request.parentClusterNumber.toNat = rootClusterNumber := by rw [two]; rfl
  have value : (k.load rootClusterNumber).clusterMap rootClusterNumber = k.disk.fat rootClusterNumber :=
    load_clusterMap (by decide) (by decide)
  simp only [Fat32.writeLog, parent, value, ne_eq, rootless.root, not_false_eq_true, ↓reduceIte]

/-- Nothing is stored, and a write answers 2. -/
theorem Rootless.befall (rootless : Rootless k.disk) (toRoot : event.ToRoot) :
    ∃ answer k', event.befall k = some (answer, k') ∧ k'.disk = k.disk ∧
      ∀ path request, event = .request path (.write request) → answer = some 2 := by
  cases event with
  | request path r =>
    cases r with
    | read r => exact ⟨_, _, rfl, read_disk k r, fun _ _ other => by cases other⟩
    | readDirectory r => exact ⟨_, _, rfl, readDirectory_disk k r, fun _ _ other => by cases other⟩
    | write r =>
      refine ⟨some 2, k.load rootClusterNumber, ?_, rfl, fun _ _ _ => rfl⟩
      rw [Event.befall, perform, rootless.write toRoot]
      rfl
    | delete r => exact toRoot.elim
  | restart driverState memoryAfter =>
    exact ⟨none, _, rfl, restart_disk rootless.boot, fun _ _ other => by cases other⟩
  | powerFailure path r n driverState memoryAfter =>
    have same : k.disk.torn (Fat32.writeLog k r) n = k.disk := by
      rw [rootless.writeLog toRoot, Disk.torn, List.flatMap_nil, List.take_nil]
      rfl
    refine ⟨none, _, rfl, ?_, fun _ _ other => by cases other⟩
    rw [same]
    exact restart_disk rootless.boot

theorem Rootless.inductive_ (rootless : Rootless d₁) :
    Runs.Inductive Event.befall (fun _ event => event.ToRoot) (fun k => k.disk = d₁) fun k => k.disk = d₁ where
  start _ first := first
  step k event same toRoot := by
    rw [← same] at rootless
    obtain ⟨answer, k', befalls, kept, _⟩ := rootless.befall toRoot
    exact ⟨answer, k', befalls, kept.trans same⟩

/-- Induction on the run. -/
theorem Rootless.run (rootless : Rootless d₁)
    (run : Run Event.befall (fun _ event => event.ToRoot) (fun k => k.disk = d₁) history k) :
    ∀ path request answer, (.request path (.write request), answer) ∈ history → answer = some 2 := by
  induction run with
  | start _ => exact fun _ _ _ member => absurd member List.not_mem_nil
  | step earlier toRoot answered ih =>
    intro path request answer member
    cases List.mem_append.mp member with
    | inl before => exact ih path request answer before
    | inr last =>
      have same := earlier.invariant rootless.inductive_
      rw [← same] at rootless
      obtain ⟨answer', _, befalls, _, code⟩ := rootless.befall toRoot
      obtain ⟨rfl, _⟩ := Prod.mk.inj (Option.some.inj (answered.symm.trans befalls))
      obtain ⟨event, rfl⟩ := Prod.mk.inj (List.mem_singleton.mp last)
      exact code path request event.symm

theorem rootless_tornFormat (memoryAfter : Memory) (rootless : d.fat rootClusterNumber ≠ fat32FatEndOfFile) :
    Rootless (tornFormat d memoryAfter 1) := by
  refine ⟨tornFormat_boot, ?_⟩
  rw [tornFormat_fat, if_neg (by omega)]
  exact rootless

end Rootless

/-- When the power fails between the signature and the allocation table, no later run stores anything, with or without
    further power failures and restarts, and all its writes answer 2. -/
theorem torn_format_refuses_writes {k : Kernel} {history : List (Event × Option Int8)}
    (rootless : d.fat rootClusterNumber ≠ fat32FatEndOfFile)
    (run : Run Event.befall (fun _ event => event.ToRoot) (fun k => k.disk = tornFormat d memoryAfter 1) history k) :
    k.disk = tornFormat d memoryAfter 1 ∧
      (∀ path request answer, (.request path (.write request), answer) ∈ history → answer = some 2) ∧
      ∀ event : Event, event.ToRoot → ∃ answer k', event.befall k = some (answer, k') := by
  have left : Rootless (tornFormat d memoryAfter 1) := rootless_tornFormat _ rootless
  have unchanged := run.invariant left.inductive_
  exact ⟨unchanged, left.run run, fun _ toRoot => run.answered left.inductive_ toRoot⟩

/-- On a disk of zeros no folder can be made. -/
theorem torn_format_refuses_writes_zeros :
    ∃ k, Run Event.befall (fun _ event => event.ToRoot) (fun k => k.disk = tornFormat (fun _ => 0) (fun _ => 0) 1)
        [(.request [] (.write ⟨fun _ => 0, text ['a'], fun _ => 0, 2, 0⟩), some 2)] k ∧
      k.disk = tornFormat (fun _ => 0) (fun _ => 0) 1 := by
  have rootless : Disk.fat (fun _ => 0) rootClusterNumber ≠ fat32FatEndOfFile := by decide
  let k : Kernel := ⟨tornFormat (fun _ => 0) (fun _ => 0) 1, .zero, fun _ => 0⟩
  let request : FAT32DriverRequest := ⟨fun _ => 0, text ['a'], fun _ => 0, 2, 0⟩
  have left : Rootless k.disk := rootless_tornFormat (fun _ => 0) rootless
  have refused : write k request = some (2, k.load rootClusterNumber) := left.write rfl
  have answered : Event.befall k (.request [] (.write request)) = some (some 2, k.load rootClusterNumber) := by
    rw [Event.befall, perform, refused]
    rfl
  have run : Run Event.befall (fun _ event => event.ToRoot) (fun k => k.disk = tornFormat (fun _ => 0) (fun _ => 0) 1)
      ([] ++ [(.request [] (.write request), some 2)]) (k.load rootClusterNumber) := .step (.start rfl) rfl answered
  exact ⟨_, run, (torn_format_refuses_writes rootless run).1⟩

end Brother420.Fat32
