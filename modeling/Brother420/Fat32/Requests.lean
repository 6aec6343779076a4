import Brother420.Fat32.Formatting
import Brother420.Library.Runs

/-! # Runs of requests

A freshly formatted file system answers any sequence of requests of the intended
kind, and stays well formed: parents are live directories, writes have room, and
a delete is aimed at a file by name and extension or at a folder whose name no
other slot has.
-/

namespace Brother420.Fat32

open Packed (Bytes Layout)
open Runs (Run)
open Kernel Volume

inductive Request
  | read (request : FAT32DriverRequest)
  | readDirectory (request : FAT32DriverRequest)
  | write (request : FAT32DriverRequest)
  | delete (request : FAT32DriverRequest)

def Request.driverRequest : Request → FAT32DriverRequest
  | read request => request
  | readDirectory request => request
  | write request => request
  | delete request => request

def Request.parent (request : Request) : Nat := request.driverRequest.parentClusterNumber.toNat

/-- The answer of the driver; the buffer that a read fills is the requester's. -/
def perform (k : Kernel) : Request → Option (Int8 × Kernel)
  | .read request => some ((read k request).1, (read k request).2.1)
  | .readDirectory request => some ((readDirectory k request).1, (readDirectory k request).2.1)
  | .write request => write k request
  | .delete request => delete k request

/-! ## Requests that leave the disk alone -/

def Request.readOnly : Request → Bool
  | read _ => true
  | readDirectory _ => true
  | write _ => false
  | delete _ => false

section Failures

variable {k k' : Kernel} {request : FAT32DriverRequest} {code : Int8} {cluster : Nat}

/-- Behind its duplicate check `write` only answers 0. -/
theorem writeFolder_answer (folder : request.bufferSize = 0)
    (answer : writeFolder k request cluster = some (code, k')) :
    (code = 1 ∧ k' = k ∧ Taken k.driverState.dirTableBuf request) ∨
      code = 0 ∧ ¬ Taken k.driverState.dirTableBuf request := by
  rw [taken_folder_iff folder]
  unfold writeFolder at answer
  split at answer
  · rename_i taken
    obtain ⟨rfl, rfl⟩ := Prod.mk.inj (Option.some.inj answer)
    exact .inl ⟨rfl, rfl, taken⟩
  · rename_i new
    simp only [Option.bind_eq_bind, Option.bind_eq_some_iff] at answer
    obtain ⟨_, _, _, _, _, _, answer⟩ := answer
    exact .inr ⟨(Prod.mk.inj (Option.some.inj answer)).1.symm, new⟩

theorem writeFile_answer (file : request.bufferSize ≠ 0)
    (answer : writeFile k request cluster = some (code, k')) :
    (code = 1 ∧ k' = k ∧ Taken k.driverState.dirTableBuf request) ∨
      code = 0 ∧ ¬ Taken k.driverState.dirTableBuf request := by
  rw [taken_file_iff file]
  unfold writeFile at answer
  split at answer
  · rename_i taken
    obtain ⟨rfl, rfl⟩ := Prod.mk.inj (Option.some.inj answer)
    exact .inl ⟨rfl, rfl, taken⟩
  · rename_i new
    simp only [Option.bind_eq_bind, Option.bind_eq_some_iff] at answer
    obtain ⟨_, _, _, _, _, _, answer⟩ := answer
    exact .inr ⟨(Prod.mk.inj (Option.some.inj answer)).1.symm, new⟩

theorem deleteFolder_answer (answer : deleteFolder k request = some (code, k')) :
    (code = 2 ∨ code = -1) ∧ k' = k ∨ code = 0 := by
  unfold deleteFolder at answer
  simp only at answer
  split at answer
  · obtain ⟨rfl, rfl⟩ := Prod.mk.inj (Option.some.inj answer)
    exact .inl ⟨.inl rfl, rfl⟩
  · split at answer
    · obtain ⟨rfl, rfl⟩ := Prod.mk.inj (Option.some.inj answer)
      exact .inl ⟨.inr rfl, rfl⟩
    · simp only [Option.bind_eq_bind, Option.bind_eq_some_iff] at answer
      obtain ⟨_, _, answer⟩ := answer
      exact .inr (Prod.mk.inj (Option.some.inj answer)).1.symm

theorem deleteFile_answer (answer : deleteFile k request = some (code, k')) :
    (code = 1 ∧ k' = k ∧ findNameExt k.driverState.dirTableBuf request.name request.ext = none) ∨ code = 0 := by
  unfold deleteFile at answer
  split at answer
  · rename_i absent
    obtain ⟨rfl, rfl⟩ := Prod.mk.inj (Option.some.inj answer)
    exact .inl ⟨rfl, rfl, absent⟩
  · simp only [Option.bind_eq_bind, Option.bind_eq_some_iff] at answer
    obtain ⟨_, _, answer⟩ := answer
    exact .inr (Prod.mk.inj (Option.some.inj answer)).1.symm

theorem write_failed (answer : write k request = some (code, k')) (failed : code ≠ 0) :
    k'.disk = k.disk := by
  unfold write at answer
  simp only at answer
  split at answer
  · obtain ⟨_, rfl⟩ := Prod.mk.inj (Option.some.inj answer)
    rfl
  · simp only [Option.bind_eq_bind, Option.bind_eq_some_iff] at answer
    obtain ⟨cluster, _, answer⟩ := answer
    split at answer
    · rename_i folder
      rcases writeFolder_answer folder answer with ⟨_, rfl, _⟩ | ⟨success, _⟩
      · rfl
      · exact absurd success failed
    · rename_i file
      rcases writeFile_answer file answer with ⟨_, rfl, _⟩ | ⟨success, _⟩
      · rfl
      · exact absurd success failed

theorem delete_failed (answer : delete k request = some (code, k')) (failed : code ≠ 0) :
    k'.disk = k.disk := by
  unfold delete at answer
  simp only at answer
  split at answer
  · rcases deleteFolder_answer answer with ⟨_, rfl⟩ | success
    · rfl
    · exact absurd success failed
  · rcases deleteFile_answer answer with ⟨_, rfl, _⟩ | success
    · rfl
    · exact absurd success failed

/-- Only a successful write or delete changes the disk, whatever the disk holds. -/
theorem perform_keeps_disk {request : Request} (answer : perform k request = some (code, k'))
    (quiet : request.readOnly = true ∨ code ≠ 0) : k'.disk = k.disk := by
  cases request with
  | read r =>
    obtain ⟨_, rfl⟩ := Prod.mk.inj (Option.some.inj answer)
    exact read_disk k r
  | readDirectory r =>
    obtain ⟨_, rfl⟩ := Prod.mk.inj (Option.some.inj answer)
    exact readDirectory_disk k r
  | write r => exact write_failed answer (quiet.resolve_left (by simp [Request.readOnly]))
  | delete r => exact delete_failed answer (quiet.resolve_left (by simp [Request.readOnly]))

/-- A parent whose allocation entry is not the end of a chain is turned away. -/
theorem write_invalid_parent {p : Nat} (parent : request.parentClusterNumber.toNat = p)
    (inside : p < 512)
    (invalid : k.disk.fat p ≠ fat32FatEndOfFile) : write k request = some (2, k.load p) := by
  have value : (k.load p).clusterMap p = k.disk.fat p := load_clusterMap (by omega) inside
  simp only [write, parent, value, ne_eq, invalid, not_false_eq_true, ↓reduceIte]

/-- A write into the free cluster 3 of a new file system answers 2. -/
theorem perform_keeps_disk_free_parent :
    ∃ k', perform zeroKernel (.write ⟨fun _ => 0, text ['a'], fun _ => 0, 3, 0⟩) = some (2, k') ∧
      k'.disk = zeroKernel.disk := by
  have invalid : zeroKernel.disk.fat 3 ≠ fat32FatEndOfFile := by
    rw [Disk.fat, zeroKernel, createFat32_eq, freshDisk_fatTable, freshFat_free (by decide)]
    decide
  have refused : write zeroKernel ⟨fun _ => 0, text ['a'], fun _ => 0, 3, 0⟩ = some (2, zeroKernel.load 3) :=
    write_invalid_parent (p := 3) rfl (by decide) invalid
  have answer : perform zeroKernel (.write ⟨fun _ => 0, text ['a'], fun _ => 0, 3, 0⟩) =
      some (2, zeroKernel.load 3) := refused
  exact ⟨_, answer, perform_keeps_disk answer (.inr (by decide))⟩

end Failures

/-! ## Intended requests -/

/-- Slot `i` of directory `p` holds the file with this name and extension. -/
structure FileAt (v : Volume) (p : Nat) (i : Fin 64) (name : Bytes 8) (ext : Bytes 3) : Prop extends v.Slot p i where
  file : (v.table p i).filesize ≠ 0
  name : (v.table p i).name = name
  ext : (v.table p i).ext = ext

/-- Slot `i` of directory `p` holds a folder with this name, and no other slot in use has the name. -/
structure OnlyFolderAt (v : Volume) (p : Nat) (i : Fin 64) (name : Bytes 8) : Prop extends v.Slot p i where
  folder : (v.table p i).filesize = 0
  only : ∀ j, (v.table p j).Live → (v.table p j).name = name → j = i
  name : (v.table p i).name = name

/-- The search of the driver for a file finds it. -/
theorem FileAt.found {v : Volume} {i : Fin 64} {name : Bytes 8} {ext : Bytes 3} (target : FileAt v p i name ext)
    (regular : v.Regular) : findNameExt (v.table p) name ext = some i := by
  have lookup := regular.findNameExt_slot target.toSlot
  rwa [target.name, target.ext] at lookup

theorem OnlyFolderAt.found {v : Volume} {i : Fin 64} {name : Bytes 8} (target : OnlyFolderAt v p i name)
    (regular : v.Regular) : findName (v.table p) name = some i := by
  have lookup := regular.findName_folder target.toSlot target.folder (by rw [target.name]; exact target.only)
  rwa [target.name] at lookup

def Aimed (d : Disk) (p : Nat) (request : FAT32DriverRequest) : Prop :=
  if request.bufferSize = 0 then ∃ i, OnlyFolderAt d.volume p i request.name
  else (∃ i, FileAt d.volume p i request.name request.ext) ∨
    ∀ i, (d.table p i).name = request.name → (d.table p i).ext ≠ request.ext

structure Intended (k : Kernel) (request : Request) : Prop where
  parent : k.disk.volume.Directory request.parent
  write : ∀ r, request = .write r → Room k.disk request.parent r.bufferSize
  delete : ∀ r, request = .delete r → Aimed k.disk request.parent r

/-! ## One request -/

variable {k k' : Kernel} {request : FAT32DriverRequest} {p : Nat} {i : Fin 64} {history : List (Request × Int8)}

theorem write_regular (regular : k.disk.Regular) (directory : k.disk.volume.Directory p)
    (parent : request.parentClusterNumber.toNat = p) (room : Room k.disk p request.bufferSize) :
    ∃ code k', write k request = some (code, k') ∧ k'.disk.Regular := by
  by_cases taken : Taken (k.disk.table p) request
  · exact ⟨1, _, write_refused regular.sound directory parent room taken, regular⟩
  · obtain ⟨k', s, e, l, wrote, written⟩ := write_accepted regular.sound directory parent room taken
    exact ⟨0, k', wrote, written.regular regular⟩

/-- A delete removed the whole of the entry that the request asks for. -/
structure Erased (request : FAT32DriverRequest) (p : Nat) (s : Fin 64) (l : List Nat) (k k' : Kernel) : Prop
    extends Deleted p s l k k' where
  freed : ∀ c ∈ l, k'.disk.fat c = 0
  empty : (k.disk.table p s).filesize = 0 → occupied (k.disk.table (k.disk.table p s).cluster) = false
  name : (k.disk.table p s).name = request.name
  ext : request.bufferSize ≠ 0 → (k.disk.table p s).ext = request.ext
  kind : (k.disk.table p s).filesize = 0 ↔ request.bufferSize = 0

/-- On a regular disk an aimed delete does nothing, or removes a whole entry. -/
theorem delete_aimed (regular : k.disk.Regular) (directory : k.disk.volume.Directory p)
    (parent : request.parentClusterNumber.toNat = p) (aimed : Aimed k.disk p request) :
    (∃ code, code ≠ 0 ∧ delete k request = some (code, k.load p)) ∨
      ∃ k' s l, delete k request = some (0, k') ∧ Erased request p s l k k' := by
  obtain ⟨_, inside⟩ := regular.volume.directory_range directory
  unfold Aimed at aimed
  by_cases size : request.bufferSize = 0
  · rw [if_pos size] at aimed
    obtain ⟨s, target⟩ := aimed
    -- the lookup finds the entry that the request is aimed at
    have found : findName (k.disk.table p) request.name = some s := target.found regular.volume
    have chain := (regular.volume.folder_chain ⟨target.toSlot, target.folder, rfl⟩).1
    rcases delete_folder_spec regular.sound parent size found target.toSlot chain with
      ⟨code, failed, answer, _⟩ | ⟨k', answer, deleted, empty, fat⟩
    · exact .inl ⟨code, failed, answer⟩
    · refine .inr ⟨k', s, _, answer, deleted, ?_, fun _ => empty, target.name, fun file => absurd size file,
        iff_of_true target.folder size⟩
      intro c member
      obtain rfl := List.mem_singleton.mp member
      rw [fat]
      exact Function.update_self _ _ _
  · rw [if_neg size] at aimed
    rcases aimed with ⟨s, target⟩ | absent
    · have found : findNameExt (k.disk.table p) request.name request.ext = some s := target.found regular.volume
      obtain ⟨l, chain, _⟩ := regular.volume.chain target.toSlot
      obtain ⟨k', answer, deleted, freed⟩ :=
        delete_file_spec regular.sound parent size found target.toSlot chain
      exact .inr ⟨k', s, l, answer, deleted, freed, fun folder => absurd folder target.file, target.name,
        fun _ => target.ext, iff_of_false target.file size⟩
    · exact .inl ⟨1, by decide, delete_absent parent inside size (findNameExt_none.mpr absent)⟩

/-- So one that succeeds has erased the entry. -/
theorem delete_erased (regular : k.disk.Regular) (directory : k.disk.volume.Directory p)
    (parent : request.parentClusterNumber.toNat = p) (aimed : Aimed k.disk p request)
    (answer : delete k request = some (0, k')) : ∃ s l, Erased request p s l k k' := by
  rcases delete_aimed regular directory parent aimed with ⟨code, failed, other⟩ | ⟨k₀, s, l, other, erased⟩
  · obtain ⟨success, _⟩ := Prod.mk.inj (Option.some.inj (answer.symm.trans other))
    exact absurd success.symm failed
  · obtain ⟨_, rfl⟩ := Prod.mk.inj (Option.some.inj (answer.symm.trans other))
    exact ⟨s, l, erased⟩

theorem perform_regular (regular : k.disk.Regular) {request : Request}
    (intended : Intended k request) :
    ∃ code k', perform k request = some (code, k') ∧ k'.disk.Regular := by
  cases request with
  | read r => exact ⟨_, _, rfl, (read_disk k r).symm ▸ regular⟩
  | readDirectory r => exact ⟨_, _, rfl, (readDirectory_disk k r).symm ▸ regular⟩
  | write r => exact write_regular regular intended.parent rfl (intended.write r rfl)
  | delete r =>
    rcases delete_aimed regular intended.parent rfl (intended.delete r rfl) with
      ⟨code, _, answer⟩ | ⟨k', s, l, answer, erased⟩
    · exact ⟨code, _, answer, regular⟩
    · exact ⟨0, k', answer, erased.regular regular erased.freed erased.empty⟩

/-- A write under a new name into the first free slot and the first free clusters is intended. -/
theorem intended_write (directory : k.disk.volume.Directory p)
    (parent : request.parentClusterNumber.toNat = p)
    {l rest : List Nat} (free : freeList k.disk.fatTable = l ++ rest)
    (count : l.length = needed request.bufferSize)
    {s : Fin 64} (slot : FirstFree (k.disk.table p) s) : Intended k (.write request) where
  parent := by
    rw [← parent] at directory
    exact directory
  write := by
    rintro r ⟨rfl⟩
    rw [← parent] at slot
    refine ⟨⟨s, slot.1⟩, ?_⟩
    rw [free, List.length_append, count]
    omega
  delete := fun r impossible => by cases impossible

/-! ## All requests -/

theorem regular_inductive : Runs.Inductive perform Intended Fresh fun k => k.disk.Regular where
  start := fun _ fresh => fresh.regular
  step := fun _ _ regular intended => perform_regular regular intended

theorem run_regular (run : Run perform Intended Fresh history k) : k.disk.Regular := by
  have kept := run.invariant regular_inductive
  exact kept

/-- After any run of intended requests the volume is well formed, and the next
    intended request is answered. -/
theorem intended_run_wellFormed (run : Run perform Intended Fresh history k) :
    k.disk.WellFormed ∧ ∀ request, Intended k request →
    ∃ code k', perform k request = some (code, k') :=
  ⟨(run_regular run).wellFormed, fun _ intended => run.answered regular_inductive intended⟩

/-- Extending a run by a write whose slot and clusters are known. -/
theorem run_write (run : Run perform Intended Fresh history k)
    (directory : k.disk.volume.Directory p)
    (parent : request.parentClusterNumber.toNat = p) (new : ¬ Taken (k.disk.table p) request)
    {c : Nat}
    {l rest : List Nat} (free : freeList k.disk.fatTable = c :: l ++ rest)
    (count : (c :: l).length = needed request.bufferSize) {s : Fin 64}
    (slot : FirstFree (k.disk.table p) s) :
    ∃ k', Run perform Intended Fresh (history ++ [(.write request, 0)]) k' ∧
      Written request p s (newEntry request c) (c :: l) k k' := by
  obtain ⟨k', wrote, written⟩ :=
    write_adds (run_regular run).sound directory parent new free count slot
  exact ⟨k', .step run (intended_write directory parent free count slot) wrote, written⟩

/-- The first entry of a new root goes to slot 1 and to cluster 3 and those behind it. -/
theorem run_first (request : FAT32DriverRequest) {l rest : List Nat}
    (notRoot : request.name ≠ rootName) (named : request.name ≠ fun _ => 0)
    (parent : request.parentClusterNumber.toNat = rootClusterNumber)
    (split : List.range' 3 509 = 3 :: l ++ rest)
    (count : (3 :: l).length = needed request.bufferSize) :
    ∃ k, Run perform Intended Fresh [(.write request, 0)] k ∧
      Written request rootClusterNumber 1 (newEntry request 3) (3 :: l) zeroKernel k := by
  have fresh := fresh_zeroKernel
  have new : ¬ Taken (zeroKernel.disk.table rootClusterNumber) request := by
    rw [fresh.root]
    exact not_taken_freshRoot notRoot named
  exact run_write (.start fresh) .root parent new (fresh.freeList.trans split) count
    (fresh.root ▸ firstFree_freshRoot)

section First

variable {l : List Nat} (written : Written request rootClusterNumber 1 (newEntry request 3) l zeroKernel k)
include written

/-- The root with its first entry. -/
theorem first_table :
    k.disk.table rootClusterNumber = Function.update freshRoot 1 (newEntry request 3) :=
  fresh_zeroKernel.root ▸ written.added.tableParent

theorem first_entry :
    k.disk.volume.Slot rootClusterNumber 1 ∧ k.disk.table rootClusterNumber 1 = newEntry request 3 :=
  ⟨(written.added.slot_iff fresh_zeroKernel.regular.sound.volume).mpr (.inr ⟨rfl, rfl⟩),
    written.added.table_new⟩

/-- The root then has no names but its own, that of the entry and the empty one. -/
theorem first_names {name : Bytes 8} (named : name ≠ fun _ => 0) (notRoot : name ≠ rootName)
    (other : name ≠ request.name) (i : Fin 64) : (k.disk.table rootClusterNumber i).name ≠ name := by
  intro same
  rw [first_table written] at same
  by_cases new : i = 1
  · rw [new, Function.update_self, name_newEntry] at same
    exact other same.symm
  · rw [Function.update_of_ne new] at same
    by_cases self : i = 0
    · rw [self] at same
      exact notRoot same.symm
    · rw [freshRoot_other self] at same
      exact named same.symm

end First

/-- The first file of a new root, and what is left. -/
theorem first_file {request : FAT32DriverRequest} {l rest : List Nat}
    (written : Written request rootClusterNumber 1 (newEntry request 3) (3 :: l) zeroKernel k)
    (file : request.bufferSize ≠ 0) (split : List.range' 3 509 = 3 :: l ++ rest) :
    FileAt k.disk.volume rootClusterNumber 1 request.name request.ext ∧
      k.disk.volume.SlotChain rootClusterNumber 1 (3 :: l) ∧ freeList k.disk.fatTable = rest ∧
      ¬ (k.disk.table rootClusterNumber 2).Live := by
  have fresh := fresh_zeroKernel
  obtain ⟨slot, entry⟩ := first_entry written
  refine ⟨⟨slot, ?_, ?_, ?_⟩, ?_, written.freeList fresh.regular.sound (fresh.freeList.trans split), ?_⟩
  · rw [Disk.volume_table, entry, filesize_newEntry]
    exact file
  · rw [Disk.volume_table, entry, name_newEntry]
  · rw [Disk.volume_table, entry, ext_newEntry file]
  · have chain := written.added.chain
    rw [← entry] at chain
    exact chain
  · rw [first_table written, Function.update_of_ne (by decide), freshRoot_other (by decide)]
    exact FAT32DirectoryEntry.not_live_zero

/-- The second entry goes to slot 2 and to the clusters behind those of the first. -/
theorem run_second (request : FAT32DriverRequest) {first : FAT32DriverRequest} {l t rest : List Nat}
    {c : Nat}
    {k : Kernel} (run : Run perform Intended Fresh history k)
    (written : Written first rootClusterNumber 1 (newEntry first 3) (3 :: l) zeroKernel k)
    (notRoot : request.name ≠ rootName) (named : request.name ≠ fun _ => 0)
    (different : first.name = request.name → request.bufferSize ≠ 0 ∧ (newEntry first 3).ext ≠ request.ext)
    (parent : request.parentClusterNumber.toNat = rootClusterNumber)
    (split : List.range' 3 509 = 3 :: l ++ (c :: t ++ rest))
    (count : (c :: t).length = needed request.bufferSize) :
    ∃ k', Run perform Intended Fresh (history ++ [(.write request, 0)]) k' ∧
      Written request rootClusterNumber 2 (newEntry request c) (c :: t) k k' := by
  have fresh := fresh_zeroKernel
  have table := first_table written
  have new : ¬ Taken (k.disk.table rootClusterNumber) request := by
    rw [table]
    apply not_taken_update (not_taken_freshRoot notRoot named)
    rw [name_newEntry]
    exact different
  have slot : FirstFree (k.disk.table rootClusterNumber) 2 := by
    rw [table]
    exact firstFree_freshRoot.update live_newEntry rfl (by decide)
  exact run_write run .root parent new (written.freeList fresh.regular.sound (fresh.freeList.trans split)) count slot

/-- The first folder of a new root, with its table. -/
theorem run_first_folder (request : FAT32DriverRequest) (folder : request.bufferSize = 0)
    (notRoot : request.name ≠ rootName) (named : request.name ≠ fun _ => 0)
    (parent : request.parentClusterNumber.toNat = rootClusterNumber) :
    ∃ k, Run perform Intended Fresh [(.write request, 0)] k ∧
      Written request rootClusterNumber 1 (newEntry request 3) [3] zeroKernel k ∧
      k.disk.table 3 = initDirectoryTable (fun _ => .zero) request.name 3 := by
  have fresh := fresh_zeroKernel
  have sound := fresh.regular.sound
  have free : freeList zeroKernel.disk.fatTable = [3] ++ List.range' 4 508 := fresh.freeList.trans List.range'_succ
  have slot : FirstFree (zeroKernel.disk.table rootClusterNumber) 1 := fresh.root ▸ firstFree_freshRoot
  have new : ¬ Taken (zeroKernel.disk.table rootClusterNumber) request :=
    fresh.root ▸ not_taken_freshRoot notRoot named
  have count : [3].length = needed request.bufferSize := by
    rw [needed, if_pos folder]
    rfl
  obtain ⟨k, wrote, written⟩ := write_adds sound .root parent new free count slot
  exact ⟨k, .step (.start fresh) (intended_write .root parent free count slot) wrote, written,
    write_newTable sound .root parent folder new free slot wrote⟩

/-- The first folder of a new root, and the first entry in that. -/
theorem run_inside (outer inner : FAT32DriverRequest) {t rest : List Nat} (folder : outer.bufferSize = 0)
    (notRoot : outer.name ≠ rootName) (named : outer.name ≠ fun _ => 0)
    (parent : outer.parentClusterNumber.toNat = rootClusterNumber) (inside : inner.parentClusterNumber.toNat = 3)
    (named' : inner.name ≠ fun _ => 0) (different : inner.name ≠ outer.name)
    (split : List.range' 4 508 = 4 :: t ++ rest) (count : (4 :: t).length = needed inner.bufferSize) :
    ∃ k₁ k, Run perform Intended Fresh [(.write outer, 0), (.write inner, 0)] k ∧
      Written outer rootClusterNumber 1 (newEntry outer 3) [3] zeroKernel k₁ ∧
      Written inner 3 1 (newEntry inner 4) (4 :: t) k₁ k ∧
      k₁.disk.table 3 = initDirectoryTable (fun _ => .zero) outer.name 3 ∧
      (inner.bufferSize = 0 → k.disk.table 4 = initDirectoryTable (fun _ => .zero) inner.name 4) := by
  obtain ⟨k₁, run₁, written₁, table₁⟩ := run_first_folder outer folder notRoot named parent
  have sound := (run_regular run₁).sound
  obtain ⟨_, entry₁⟩ := first_entry written₁
  have directory : k₁.disk.volume.Directory 3 :=
    (edge_newEntry .root (by decide) folder (by decide) entry₁).directory_child
  have free : freeList k₁.disk.fatTable = 4 :: t ++ rest :=
    (written₁.freeList fresh_zeroKernel.regular.sound (fresh_zeroKernel.freeList.trans List.range'_succ)).trans split
  have slot : FirstFree (k₁.disk.table 3) 1 := table₁ ▸ firstFree_initDirectoryTable
  have new : ¬ Taken (k₁.disk.table 3) inner := by
    rw [table₁]
    rintro ⟨i, name, _⟩
    by_cases self : i = 0
    · rw [self] at name
      exact different name.symm
    · rw [initDirectoryTable_other self] at name
      exact named' name.symm
  obtain ⟨k, wrote, written⟩ := write_adds sound directory inside new free count slot
  exact ⟨k₁, k, .step run₁ (intended_write directory inside free count slot) wrote, written₁, written, table₁,
    fun folder' => write_newTable sound directory inside folder' new free slot wrote⟩

/-- A new folder `d` on a disk of zeros. -/
theorem intended_run_wellFormed_folder :
    ∃ k, Run perform Intended Fresh [(.write ⟨fun _ => 0, text ['d'], fun _ => 0, 2, 0⟩, 0)] k ∧
      k.disk.WellFormed := by
  obtain ⟨k, run, _⟩ := run_first ⟨fun _ => 0, text ['d'], fun _ => 0, 2, 0⟩ (l := []) (by decide)
    (by decide) rfl rfl rfl
  exact ⟨k, run, (intended_run_wellFormed run).1⟩

end Brother420.Fat32
