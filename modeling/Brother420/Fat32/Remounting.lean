import Brother420.Fat32.Requests

/-! # Remounting after a run

A boot only finds the file system again while the signature is in place and the
allocation table on disk is the cached one.  Both last through any run in which
every delete is either refused or hits a slot in use behind the self entry; a
delete of size 0 whose name no slot has frees cluster 0 instead.
-/

namespace Brother420.Fat32

open Packed (Bytes Layout)
open Runs (Run)
open Kernel Volume

variable {k k' : Kernel} {request : FAT32DriverRequest} {p : Nat} {i : Fin 64} {history : List (Request × Int8)}

/-- Mounting now, from whatever driver state, keeps the disk and loads the cached table. -/
structure Remountable (k : Kernel) : Prop where
  boot : k.disk.bootSector = fsSignature
  disk : ∀ state memoryAfter, (initializeFilesystemFat32 ⟨k.disk, state, memoryAfter⟩).disk = k.disk
  fatTable : ∀ state memoryAfter,
    (initializeFilesystemFat32 ⟨k.disk, state, memoryAfter⟩).driverState.fatTable = k.driverState.fatTable

/-! ## Requests -/

/-- The parent is a live directory, and a write does not exhaust its table or the disk. -/
structure Admitted (k : Kernel) (request : Request) : Prop where
  parent : k.disk.volume.Directory request.parent
  write : ∀ r, request = .write r → Room k.disk request.parent r.bufferSize

/-- The folder path of `delete` turns the request away. -/
def Refused (d : Disk) (p : Nat) (name : Bytes 8) : Prop :=
  occupied (d.table (folderTarget (d.table p) name).2) = true ∨ name = rootName

/-- A delete that is refused or whose first match is in use, other than the self entry. -/
def DeleteGuarded (d : Disk) (p : Nat) (request : FAT32DriverRequest) : Prop :=
  if request.bufferSize = 0 then
    Refused d p request.name ∨ ∃ i, findName (d.table p) request.name = some i ∧ i ≠ 0 ∧ (d.table p i).Live
  else ∀ i, findNameExt (d.table p) request.name request.ext = some i → i ≠ 0 ∧ (d.table p i).Live

structure Guarded (k : Kernel) (request : Request) : Prop extends Admitted k request where
  delete : ∀ r, request = .delete r → DeleteGuarded k.disk request.parent r

/-! ## The cached table -/

theorem read_cached (inside : request.parentClusterNumber.toNat < 2 ^ 26) :
    (read k request).2.1.driverState.fatTable = k.disk.fatTable := by
  have loaded := load_fatTable (k := k) inside
  unfold read
  simp only
  split
  · exact loaded
  · split
    · exact loaded
    · split
      · exact loaded
      · exact loaded

theorem readDirectory_cached :
    (readDirectory k request).2.1.driverState.fatTable = k.driverState.fatTable := by
  unfold readDirectory
  simp only
  split
  · rfl
  · split
    · rfl
    · split
      · rfl
      · rfl

/-! ## Guarded requests keep the structure -/

/-- The structure that a remount relies on. -/
structure Mounted (k : Kernel) : Prop where
  sound : k.disk.Sound
  cached : k.driverState.fatTable = k.disk.fatTable

theorem folderTarget_lt (sound : k.disk.Sound) (directory : k.disk.volume.Directory p)
    (name : Bytes 8) :
    (folderTarget (k.disk.table p) name).2 < 512 := by
  cases found : findName (k.disk.table p) name with
  | none =>
    rw [folderTarget_none found]
    decide
  | some i =>
    rw [folderTarget_some found]
    -- the self entry has the directory's own cluster, a free slot cluster 0
    by_cases live : (k.disk.table p i).Live
    · by_cases entry : i = 0
      · subst entry
        have self : (k.disk.table p 0).cluster = p := (sound.volume.self directory).2
        simp only [self]
        exact (sound.volume.directory_range directory).2
      · exact slot_cluster sound ⟨directory, entry, live⟩
    · have empty : k.disk.table p i = .zero := sound.volume.free directory live
      rw [empty]
      exact (by decide : FAT32DirectoryEntry.zero.cluster < 512)

/-- A refused delete answers and changes nothing. -/
theorem delete_refused (sound : k.disk.Sound) (directory : k.disk.volume.Directory p)
    (parent : request.parentClusterNumber.toNat = p) (folder : request.bufferSize = 0)
    (refused : Refused k.disk p request.name) :
    ∃ code, code ≠ 0 ∧ delete k request = some (code, k.load p) := by
  have bound := folderTarget_lt sound directory request.name
  unfold Refused at refused
  cases target : folderTarget (k.disk.table p) request.name with
  | mk i c =>
    rw [target] at bound refused
    rw [delete_folder parent (sound.volume.directory_range directory).2 folder target bound]
    by_cases busy : occupied (k.disk.table c) = true
    · rw [if_pos busy]
      exact ⟨2, by decide, rfl⟩
    · rw [if_neg busy, if_pos (refused.resolve_left busy)]
      exact ⟨-1, by decide, rfl⟩

/-- What a guarded delete does on a sound disk: nothing, or it removes an entry. -/
theorem delete_guarded (sound : k.disk.Sound) (directory : k.disk.volume.Directory p)
    (parent : request.parentClusterNumber.toNat = p) (guarded : DeleteGuarded k.disk p request) :
    (∃ code, code ≠ 0 ∧ delete k request = some (code, k.load p)) ∨
      ∃ k' s l, delete k request = some (0, k') ∧ Deleted p s l k k' := by
  obtain ⟨_, inside⟩ := sound.volume.directory_range directory
  unfold DeleteGuarded at guarded
  by_cases size : request.bufferSize = 0
  · rw [if_pos size] at guarded
    rcases guarded with refused | ⟨s, found, entry, live⟩
    · exact .inl (delete_refused sound directory parent size refused)
    · have slot : k.disk.volume.Slot p s := ⟨directory, entry, live⟩
      obtain ⟨l, chain, _⟩ := sound.volume.chain slot
      rcases delete_folder_spec sound parent size found slot chain with
        ⟨code, failed, answer, _⟩ | ⟨k', answer, deleted, _⟩
      · exact .inl ⟨code, failed, answer⟩
      · exact .inr ⟨k', s, l, answer, deleted⟩
  · rw [if_neg size] at guarded
    cases found : findNameExt (k.disk.table p) request.name request.ext with
    | none => exact .inl ⟨1, by decide, delete_absent parent inside size found⟩
    | some s =>
      obtain ⟨entry, live⟩ := guarded s found
      have slot : k.disk.volume.Slot p s := ⟨directory, entry, live⟩
      obtain ⟨l, chain, _⟩ := sound.volume.chain slot
      obtain ⟨k', answer, deleted, _⟩ := delete_file_spec sound parent size found slot chain
      exact .inr ⟨k', s, l, answer, deleted⟩

theorem Mounted.load (mounted : Mounted k) (inside : p < 512) : Mounted (k.load p) where
  sound := mounted.sound
  cached := load_fatTable (by omega)

theorem perform_mounted (mounted : Mounted k) {request : Request} (guarded : Guarded k request) :
    ∃ code k', perform k request = some (code, k') ∧ Mounted k' := by
  have directory := guarded.parent
  obtain ⟨_, inside⟩ := mounted.sound.volume.directory_range directory
  cases request with
  | read r =>
    have disk := read_disk k r
    have inBounds : r.parentClusterNumber.toNat < 2 ^ 26 := Nat.lt_trans inside (by decide)
    exact ⟨_, _, rfl, disk.symm ▸ mounted.sound, (read_cached inBounds).trans (congrArg _ disk.symm)⟩
  | readDirectory r =>
    have disk := readDirectory_disk k r
    exact ⟨_, _, rfl, disk.symm ▸ mounted.sound,
      readDirectory_cached.trans (mounted.cached.trans (congrArg _ disk.symm))⟩
  | write r =>
    have room := guarded.write r rfl
    by_cases taken : Taken (k.disk.table r.parentClusterNumber.toNat) r
    · exact ⟨1, _, write_refused mounted.sound directory rfl room taken, mounted.load inside⟩
    · obtain ⟨k', s, e, l, wrote, written⟩ := write_accepted mounted.sound directory rfl room taken
      exact ⟨0, k', wrote, written.sound mounted.sound, written.cached⟩
  | delete r =>
    rcases delete_guarded mounted.sound directory rfl (guarded.delete r rfl) with
      ⟨code, _, answer⟩ | ⟨k', s, l, answer, deleted⟩
    · exact ⟨code, _, answer, mounted.load inside⟩
    · exact ⟨0, k', answer, deleted.sound mounted.sound, deleted.cached⟩

theorem mounted_inductive : Runs.Inductive perform Guarded Fresh Mounted where
  start := fun _ fresh => ⟨fresh.regular.sound, fresh.cached⟩
  step := fun _ _ mounted guarded => perform_mounted mounted guarded

/-- An intended request is guarded: its delete hits the entry that it is aimed at. -/
theorem Intended.guarded {request : Request} (regular : k.disk.Regular)
    (intended : Intended k request) :
    Guarded k request := by
  refine ⟨⟨intended.parent, intended.write⟩, ?_⟩
  rintro r rfl
  have aimed := intended.delete r rfl
  unfold Aimed at aimed
  unfold DeleteGuarded
  split at aimed
  · rename_i folder
    obtain ⟨i, target⟩ := aimed
    have lookup := target.found regular.volume
    rw [if_pos folder]
    exact .inr ⟨i, lookup, target.entry, target.live⟩
  · rename_i file
    rw [if_neg file]
    intro i found
    rcases aimed with ⟨j, target⟩ | absent
    · obtain rfl := Option.some.inj (found.symm.trans (target.found regular.volume))
      exact ⟨target.entry, target.live⟩
    · obtain ⟨⟨name, ext⟩, _⟩ := findNameExt_some.mp found
      exact absurd ext (absent i name)

theorem run_guarded (run : Run perform Intended Fresh history k) :
    Run perform Guarded Fresh history k :=
  run.weaken regular_inductive fun _ _ regular intended => intended.guarded regular

theorem Mounted.remountable (mounted : Mounted k) : Remountable k where
  boot := mounted.sound.boot
  disk := by
    intro state memoryAfter
    rw [initialize_eq (k := ⟨k.disk, state, memoryAfter⟩) mounted.sound.boot]
  fatTable := by
    intro state memoryAfter
    rw [initialize_eq (k := ⟨k.disk, state, memoryAfter⟩) mounted.sound.boot]
    exact mounted.cached.symm

/-- The file system is found again after every run of guarded requests. -/
theorem guarded_run_remountable (run : Run perform Guarded Fresh history k) : Remountable k :=
  (run.invariant mounted_inductive).remountable

/-- Creating and removing a folder on a disk of zeros. -/
theorem guarded_run_remountable_folder :
    let folder : FAT32DriverRequest := ⟨fun _ => 0, text ['d'], fun _ => 0, 2, 0⟩
    ∃ code k, Run perform Guarded Fresh [(.write folder, 0), (.delete folder, code)] k ∧ Remountable k := by
  intro folder
  obtain ⟨k₁, run, written⟩ := run_first folder (l := []) (by decide) (by decide) rfl rfl rfl
  have run₁ := run_guarded run
  obtain ⟨slot, _⟩ := first_entry written
  -- no slot in front of the folder has its name
  have found : findName (k₁.disk.table 2) folder.name = some 1 := by
    have table : k₁.disk.table 2 = Function.update freshRoot 1 (newEntry folder 3) :=
      first_table written
    rw [table]
    refine findName_some.mpr ⟨rfl, ?_⟩
    intro j below
    obtain rfl : j = 0 := by omega
    decide
  have removable : Guarded k₁ (.delete folder) := by
    refine ⟨⟨.root, fun r impossible => by cases impossible⟩, ?_⟩
    rintro r ⟨rfl⟩
    exact .inr ⟨1, found, slot.entry, slot.live⟩
  obtain ⟨code, k₂, removed⟩ := run₁.answered mounted_inductive removable
  have run₂ : Run perform Guarded Fresh [(.write folder, 0), (.delete folder, code)] k₂ :=
    .step run₁ removable removed
  exact ⟨code, k₂, run₂, guarded_run_remountable run₂⟩

/-! ## The delete that frees cluster 0 -/

/-- A delete of size 0 whose name no slot has clears the self entry and frees cluster 0. -/
theorem delete_missing (parent : request.parentClusterNumber.toNat = p) (inside : p < 512)
    (folder : request.bufferSize = 0) (absent : findName (k.disk.table p) request.name = none)
    (vacant : occupied (k.disk.table 0) = false) (notRoot : request.name ≠ rootName) :
    ∃ k', delete k request = some (0, k') ∧
      k'.disk = (k.disk.setFat (k.disk.fatTable.set 0 0)).setTable p (Function.update (k.disk.table p) 0 .zero) := by
  have idle : ¬ occupied (k.disk.table 0) = true := by simp [vacant]
  rw [delete_folder parent inside folder (folderTarget_none absent) (by decide), if_neg idle, if_neg notRoot]
  exact ⟨_, rfl, rfl⟩

/-- On a new file system such a delete frees cluster 0 and slot 0 of the root. -/
theorem delete_missing_zeroKernel (removal : FAT32DriverRequest)
    (parent : removal.parentClusterNumber.toNat = 2) (folder : removal.bufferSize = 0)
    (notRoot : removal.name ≠ rootName) (named : removal.name ≠ fun _ => 0) :
    ∃ k, delete zeroKernel removal = some (0, k) ∧
      k.disk.table 2 = Function.update freshRoot 0 .zero ∧
      k.disk.fat = Function.update zeroKernel.disk.fat 0 0 := by
  obtain ⟨k₀, same, vacant⟩ : ∃ k₀, k₀ = zeroKernel ∧ occupied (k₀.disk.table 0) = false :=
    ⟨zeroKernel, rfl, zeroKernel_boot_vacant⟩
  have fresh : Fresh k₀ := same ▸ fresh_zeroKernel
  have absent : findName (k₀.disk.table 2) removal.name = none :=
    findName_of_new folder (fresh.root ▸ not_taken_freshRoot notRoot named)
  obtain ⟨k, removed, disk⟩ := delete_missing parent (by decide) folder absent vacant notRoot
  refine ⟨k, same ▸ removed, ?_, ?_⟩
  · rw [disk, Disk.table_setTable, ← fresh.root]
    rfl
  · rw [disk, Disk.fat_setTable (by decide), Disk.fat_setFat, FAT32FileAllocationTable.at_set _ (by decide), ← same]
    rfl

theorem run_missing_delete (removal : FAT32DriverRequest)
    (parent : removal.parentClusterNumber.toNat = 2) (folder : removal.bufferSize = 0)
    (notRoot : removal.name ≠ rootName) (named : removal.name ≠ fun _ => 0) :
    ∃ k, Run perform Admitted Fresh [(.delete removal, 0)] k ∧
      k.disk.table 2 = Function.update freshRoot 0 .zero ∧
      k.disk.fat = Function.update zeroKernel.disk.fat 0 0 := by
  obtain ⟨k, removed, table, fat⟩ := delete_missing_zeroKernel removal parent folder notRoot named
  have directory : zeroKernel.disk.volume.Directory (Request.delete removal).parent := by
    rw [show (Request.delete removal).parent = rootClusterNumber from parent]
    exact .root
  exact ⟨k, .step (.start fresh_zeroKernel) ⟨directory, nofun⟩ removed, table, fat⟩

/-- Removing a folder that does not exist, and then writing a file of one byte, overwrites the signature. -/
theorem missing_folder_delete_loses_signature :
    let removal : FAT32DriverRequest := ⟨fun _ => 0, text ['x'], fun _ => 0, 2, 0⟩
    let file : FAT32DriverRequest := ⟨fun _ => 1, text ['y'], text ['t'], 2, 1⟩
    ∃ k, Run perform Admitted Fresh [(.delete removal, 0), (.write file, 0)] k ∧ ¬ Remountable k := by
  intro removal file
  obtain ⟨k₁, run₁, table, fat⟩ := run_missing_delete removal rfl rfl (by decide) (by decide)
  have sound := fresh_zeroKernel.regular.sound
  have slot : FirstFree (k₁.disk.table 2) 0 := by
    rw [table]
    exact ⟨by rw [Function.update_self]; exact FAT32DirectoryEntry.not_live_zero, fun j below => absurd below (by simp)⟩
  have free : freeList k₁.disk.fatTable = 0 :: [] ++ Search.hits (fun c => k₁.disk.fat c == 0) 1 511 := by
    apply Search.hits_start
    change (k₁.disk.fat 0 == 0) = true
    rw [fat, Function.update_self]
    rfl
  have valid : k₁.disk.fat 2 = fat32FatEndOfFile := by
    rw [fat, Function.update_of_ne (by decide)]
    exact sound.volume.root
  have reserved : k₁.disk.fat 1 ≠ 0 := by
    have value : zeroKernel.disk.fat 1 = cluster1Value := sound.volume.reserved1
    rw [fat, Function.update_of_ne (by decide), value]
    decide
  have new : findNameExt (k₁.disk.table 2) file.name file.ext = none := by
    rw [table]
    apply findNameExt_none.mpr
    intro i name
    have unused : ¬ Taken (Function.update freshRoot 0 .zero) { file with bufferSize := 0 } :=
      not_taken_update (not_taken_freshRoot (by decide) (by decide)) fun same => absurd same (by decide)
    exact absurd ⟨i, name, fun size => absurd rfl size⟩ unused
  obtain ⟨k₂, wrote, written⟩ :=
    write_file (p := 2) rfl (by decide) (by decide) valid (by decide) new free (by decide) reserved slot
  have room : Room k₁.disk 2 file.bufferSize := by
    have one : needed file.bufferSize = 1 := by decide
    refine ⟨⟨0, slot.1⟩, ?_⟩
    rw [free, one, List.length_append]
    exact Nat.le_add_right 1 _
  have admitted : Admitted k₁ (.write file) := ⟨.root, by rintro r ⟨rfl⟩; exact room⟩
  refine ⟨k₂, .step run₁ admitted wrote, ?_⟩
  intro remountable
  -- the data of the file went to cluster 0, whose first block holds the signature
  have boot := congrFun remountable.boot 0
  have data := congrFun (written.data 0 0 rfl) 0
  have byte : k₂.disk.bootSector 0 = 1 := data
  rw [byte] at boot
  exact absurd boot (by decide)

end Brother420.Fat32
