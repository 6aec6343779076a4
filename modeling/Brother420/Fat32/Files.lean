import Brother420.Fat32.Requests

/-! # The driver as a map from file names to contents

The abstract model of the driver is a map from (directory, name, extension) to
byte strings: an accepted write stores a string, an accepted delete forgets one,
and nothing else changes the map.  The disk after any run of intended requests
holds exactly the files of the map, and `read` returns them.
-/

namespace Brother420.Fat32

open Packed (Bytes Layout)
open Linked (Chain)
open Runs (Run replay)
open Kernel Volume

/-- Directory, name and extension. -/
abbrev FileKey := Nat × Bytes 8 × Bytes 3

abbrev Files := FileKey → Option (List UInt8)

def FAT32DriverRequest.key (request : FAT32DriverRequest) : FileKey :=
  (request.parentClusterNumber.toNat, request.name, request.ext)

/-- The bytes that a write of a file hands over. -/
def FAT32DriverRequest.contents (request : FAT32DriverRequest) : List UInt8 :=
  (List.range request.bufferSize.toNat).map request.buf

/-- The map after a request was answered with `code`. -/
def Files.next (m : Files) (request : Request) (code : Int8) : Files :=
  match request with
  | .write r => if code = 0 ∧ r.bufferSize ≠ 0 then Function.update m r.key (some r.contents) else m
  | .delete r => if code = 0 ∧ r.bufferSize ≠ 0 then Function.update m r.key none else m
  | .read _ => m
  | .readDirectory _ => m

/-- The disk holds a file with this key and these contents. -/
def Holds (d : Disk) (key : FileKey) (data : List UInt8) : Prop :=
  ∃ i l, FileAt d.volume key.1 i key.2.1 key.2.2 ∧ d.volume.SlotChain key.1 i l ∧
    data = fileBytes d l (d.table key.1 i).filesize.toNat

/-- The files on the disk are those of the map. -/
def Represents (d : Disk) (m : Files) : Prop := ∀ key data, m key = some data ↔ Holds d key data

variable {k k' : Kernel} {request : FAT32DriverRequest} {p q : Nat} {s i : Fin 64} {e : FAT32DirectoryEntry}
  {l l' : List Nat} {key : FileKey} {data : List UInt8} {m : Files} {history : List (Request × Int8)}

theorem fileBytes_congr {d d' : Disk} (same : ∀ c ∈ l, d'.cluster c = d.cluster c) (size : Nat) :
    fileBytes d' l size = fileBytes d l size := by
  apply List.map_congr_left
  intro a _
  exact fileByte_congr same

theorem fileBytes_length {d : Disk} {size : Nat} : (fileBytes d l size).length = size := by
  simp [fileBytes]

/-! ## Accepted writes -/

/-- The clusters of the files that were there are not touched by a write. -/
theorem Written.fileBytes_kept (written : Written request p s e l k k') (sound : k.disk.Sound)
    (slot : k.disk.volume.Slot q i) (file : (k.disk.table q i).filesize ≠ 0)
    (chain : k.disk.volume.SlotChain q i l')
    (size : Nat) : fileBytes k'.disk l' size = fileBytes k.disk l' size := by
  apply fileBytes_congr
  intro c member
  have range := sound.volume.range slot chain member
  apply written.frame c (by omega)
  · rintro rfl
    exact sound.volume.file_not_directory slot file chain member written.added.parent
  · intro new
    exact sound.volume.fat_ne_zero slot chain member (written.added.fresh c new)

/-- The clusters of a new file hold what the request handed over. -/
theorem Written.fileBytes_new (written : Written request p s e l k k')
    (file : request.bufferSize ≠ 0) :
    fileBytes k'.disk l request.bufferSize.toNat = request.contents := by
  apply List.map_congr_left
  intro a inside
  have bound := List.mem_range.mp inside
  have length : l.length = (request.bufferSize.toNat + 2047) / 2048 := by
    rw [written.added.length, clusters_eq_needed, written.filesize, needed, if_neg file, totalCluster_eq]
  -- byte `a` lies in one of the clusters, and before the padding of the last
  have block : a / 2048 < l.length := by omega
  have found := List.getElem?_eq_getElem block
  have within : a % 2048 < request.bufferSize.toNat - clusterSize * (a / 2048) := by
    simp only [clusterSize]
    omega
  rw [fileByte_some found, written.content file _ _ found, lastCluster, if_pos within]
  simp only [clusterSize, Nat.div_add_mod]

/-- A file that was there keeps its slot, its chain and its bytes. -/
theorem Written.holds_kept (written : Written request p s e l k k') (sound : k.disk.Sound)
    (held : Holds k.disk key data) : Holds k'.disk key data := by
  have added := written.added
  obtain ⟨i, l', ⟨old, file, name, ext⟩, chain, rfl⟩ := held
  have slot : k'.disk.volume.Slot key.1 i := (added.slot_iff sound.volume).mpr (.inl old)
  have same : k'.disk.table key.1 i = k.disk.table key.1 i :=
    added.table_eq old.directory old.live
  refine ⟨i, l', ?_, added.chain_kept sound.volume old chain, ?_⟩
  · refine ⟨slot, ?_, ?_, ?_⟩ <;> rw [Disk.volume_table, same]
    · exact file
    · exact name
    · exact ext
  · rw [same, written.fileBytes_kept sound old file chain]

/-- The new slot holds the file of the request. -/
theorem Written.holds_new (written : Written request p s e l k k') (sound : k.disk.Sound)
    (parent : request.parentClusterNumber.toNat = p) (file : request.bufferSize ≠ 0) :
    Holds k'.disk request.key request.contents := by
  have added := written.added
  have slot : k'.disk.volume.Slot p s := (added.slot_iff sound.volume).mpr (.inr ⟨rfl, rfl⟩)
  have new : k'.disk.table p s = e := added.table_new
  refine ⟨s, l, ?_, ?_, ?_⟩ <;> simp only [FAT32DriverRequest.key, parent]
  · refine ⟨slot, ?_, ?_, ?_⟩ <;> rw [Disk.volume_table, new]
    · rw [written.filesize]
      exact file
    · exact written.name
    · rw [written.ext, if_neg file]
  · unfold Volume.SlotChain
    rw [Disk.volume_table, new]
    exact added.chain
  · rw [new, written.filesize, written.fileBytes_new file]

theorem Written.holds_iff (written : Written request p s e l k k') (sound : k.disk.Sound)
    (parent : request.parentClusterNumber.toNat = p) :
    Holds k'.disk key data ↔
      (request.bufferSize ≠ 0 ∧ key = request.key ∧ data = request.contents) ∨ Holds k.disk key data := by
  have added := written.added
  constructor
  · rintro ⟨i, l', target, chain, rfl⟩
    rcases (added.slot_iff sound.volume).mp target.toSlot with old | ⟨here, rfl⟩
    · have same : k'.disk.table key.1 i = k.disk.table key.1 i :=
        added.table_eq old.directory old.live
      obtain ⟨slot, file, name, ext⟩ := target
      rw [Disk.volume_table, same] at file name ext
      have chainOld := added.chain_back sound.volume old chain
      refine .inr ⟨i, l', ⟨old, file, name, ext⟩, chainOld, ?_⟩
      rw [same, written.fileBytes_kept sound old file chainOld]
    -- the new slot holds a file only if the request was for one
    · obtain ⟨slot, file, name, ext⟩ := target
      obtain ⟨q, name', ext'⟩ := key
      obtain rfl : q = p := here
      have new : k'.disk.table q i = e := added.table_new
      rw [Disk.volume_table, new] at file name ext
      rw [written.filesize] at file
      obtain rfl : l' = l := added.chain_new chain
      rw [written.name] at name
      rw [written.ext, if_neg file] at ext
      refine .inl ⟨file, ?_, ?_⟩
      · rw [FAT32DriverRequest.key, parent, name, ext]
      · rw [new, written.filesize, written.fileBytes_new file]
  · rintro (⟨file, rfl, rfl⟩ | held)
    · exact written.holds_new sound parent file
    · exact written.holds_kept sound held

/-- An accepted write did not hit a file that was there. -/
theorem Written.not_holds (written : Written request p s e l k k')
    (parent : request.parentClusterNumber.toNat = p) :
    ¬ Holds k.disk request.key data := by
  rintro ⟨i, l', target, _⟩
  rw [FAT32DriverRequest.key, parent] at target
  exact written.newName ⟨i, target.name, fun _ => target.ext⟩

theorem Written.represents (written : Written request p s e l k k') (sound : k.disk.Sound)
    (parent : request.parentClusterNumber.toNat = p) (represents : Represents k.disk m) :
    Represents k'.disk (Files.next m (.write request) 0) := by
  intro key data
  rw [written.holds_iff sound parent]
  by_cases file : request.bufferSize ≠ 0
  · rw [Files.next, if_pos ⟨rfl, file⟩]
    by_cases here : key = request.key
    · subst here
      simp [written.not_holds parent, file, eq_comm]
    · rw [Function.update_of_ne here, represents]
      simp [here]
  · rw [Files.next, if_neg fun both => file both.2]
    simp [file, represents key data]

/-! ## Accepted deletes -/

/-- The clusters of the other files are not touched by a delete. -/
theorem Deleted.fileBytes_kept (deleted : Deleted p s l k k') (sound : k.disk.Sound)
    (slot : k.disk.volume.Slot q i) (file : (k.disk.table q i).filesize ≠ 0)
    (chain : k.disk.volume.SlotChain q i l')
    (size : Nat) : fileBytes k'.disk l' size = fileBytes k.disk l' size := by
  apply fileBytes_congr
  intro c member
  have range := sound.volume.range slot chain member
  apply deleted.frame c (by omega)
  rintro rfl
  exact sound.volume.file_not_directory slot file chain member deleted.removed.slot.directory

theorem Erased.holds_iff (erased : Erased request p s l k k') (regular : k.disk.Regular)
    (parent : request.parentClusterNumber.toNat = p) :
    Holds k'.disk key data ↔ Holds k.disk key data ∧
    ¬ (request.bufferSize ≠ 0 ∧ key = request.key) := by
  have removed := erased.removed
  have sound := regular.sound
  have emptyFolder : (k.disk.table p s).filesize = 0 →
      ∀ i, i ≠ 0 → ¬ (k.disk.table (k.disk.table p s).cluster i).Live := by
    intro folder i entry live
    have busy := occupied_iff.mpr ⟨i, entry, live⟩
    rw [erased.empty folder] at busy
    cases busy
  constructor
  · rintro ⟨i, l', ⟨slot, file, name, ext⟩, chain, rfl⟩
    obtain ⟨old, other⟩ := removed.slot_old slot
    have same : k'.disk.table key.1 i = k.disk.table key.1 i := removed.table_eq old.directory other
    rw [Disk.volume_table, same] at file name ext
    have chainOld := removed.chain_back sound.volume slot chain
    refine ⟨⟨i, l', ⟨old, file, name, ext⟩, chainOld, ?_⟩, ?_⟩
    · rw [same, erased.fileBytes_kept sound old file chainOld]
    · rintro ⟨deletesFile, rfl⟩
      -- the file would be the removed entry, by the uniqueness of names
      rw [FAT32DriverRequest.key, parent] at *
      have again := regular.volume.unique old.directory old.live removed.slot.live (name.trans erased.name.symm)
        (ext.trans (erased.ext deletesFile).symm)
      simp [again] at other
  · rintro ⟨⟨i, l', ⟨old, file, name, ext⟩, chain, rfl⟩, notTarget⟩
    have other : key.1 ≠ p ∨ i ≠ s := by
      by_contra both
      obtain ⟨here, rfl⟩ : key.1 = p ∧ i = s := by simpa using both
      obtain ⟨q, name', ext'⟩ := key
      obtain rfl : q = p := here
      have deletesFile : request.bufferSize ≠ 0 := fun folder => file (erased.kind.mpr folder)
      refine notTarget ⟨deletesFile, ?_⟩
      rw [FAT32DriverRequest.key, parent, ← erased.name, ← erased.ext deletesFile]
      exact congrArg (Prod.mk q) (congrArg₂ Prod.mk name.symm ext.symm)
    have slot : k'.disk.volume.Slot key.1 i := removed.slot_kept emptyFolder old other
    have same : k'.disk.table key.1 i = k.disk.table key.1 i := removed.table_eq old.directory other
    refine ⟨i, l', ?_, removed.chain_kept sound.volume old other chain, ?_⟩
    · refine ⟨slot, ?_, ?_, ?_⟩ <;> rw [Disk.volume_table, same]
      · exact file
      · exact name
      · exact ext
    · rw [same, erased.fileBytes_kept sound old file chain]

theorem Erased.represents (erased : Erased request p s l k k') (regular : k.disk.Regular)
    (parent : request.parentClusterNumber.toNat = p) (represents : Represents k.disk m) :
    Represents k'.disk (Files.next m (.delete request) 0) := by
  intro key data
  rw [erased.holds_iff regular parent]
  by_cases file : request.bufferSize ≠ 0
  · rw [Files.next, if_pos ⟨rfl, file⟩]
    by_cases here : key = request.key
    · subst here
      simp [file]
    · rw [Function.update_of_ne here, represents]
      simp [here]
  · rw [Files.next, if_neg fun both => file both.2]
    simp [file, represents key data]

/-! ## Runs -/

theorem Files.next_failed {code : Int8} (failed : code ≠ 0) (request : Request) :
    Files.next m request code = m := by
  cases request <;> simp [Files.next, failed]

/-- One answered request is one step of the map. -/
theorem perform_represents {request : Request} {code : Int8} (regular : k.disk.Regular)
    (represents : Represents k.disk m) (intended : Intended k request)
    (answer : perform k request = some (code, k')) :
    Represents k'.disk (Files.next m request code) := by
  cases request with
  | read r =>
    obtain ⟨rfl, rfl⟩ := Prod.mk.inj (Option.some.inj answer)
    rw [read_disk]
    exact represents
  | readDirectory r =>
    obtain ⟨rfl, rfl⟩ := Prod.mk.inj (Option.some.inj answer)
    rw [readDirectory_disk]
    exact represents
  | write r =>
    have room := intended.write r rfl
    by_cases taken : Taken (k.disk.table r.parentClusterNumber.toNat) r
    · have refused := write_refused regular.sound intended.parent rfl room taken
      obtain ⟨rfl, rfl⟩ := Prod.mk.inj (Option.some.inj (answer.symm.trans refused))
      rw [Files.next_failed (by decide)]
      exact represents
    · obtain ⟨k'', s, e, l, wrote, written⟩ :=
        write_accepted regular.sound intended.parent rfl room taken
      obtain ⟨rfl, rfl⟩ := Prod.mk.inj (Option.some.inj (answer.symm.trans wrote))
      exact written.represents regular.sound rfl represents
  | delete r =>
    rcases delete_aimed regular intended.parent rfl (intended.delete r rfl) with
      ⟨code', failed, refused⟩ | ⟨k'', s, l, deleted, erased⟩
    · obtain ⟨rfl, rfl⟩ := Prod.mk.inj (Option.some.inj (answer.symm.trans refused))
      rw [Files.next_failed failed]
      exact represents
    · obtain ⟨rfl, rfl⟩ := Prod.mk.inj (Option.some.inj (answer.symm.trans deleted))
      exact erased.represents regular rfl represents

theorem Fresh.represents (fresh : Fresh k) : Represents k.disk fun _ => none := by
  obtain ⟨disk, memoryAfter, rfl⟩ := fresh
  rw [createFat32_eq]
  intro key data
  constructor
  · intro impossible
    exact absurd impossible (by simp)
  · rintro ⟨i, l, target, _⟩
    exact absurd target.toSlot (freshDisk_blank disk).onlyRoot.no_slot

/-- The disk after a run holds the files of the replayed history. -/
theorem run_represents (run : Run perform Intended Fresh history k) :
    Represents k.disk (replay Files.next (fun _ => none) history) := by
  apply Run.refines (fun k m => Represents k.disk m) (fun _ fresh => fresh.represents) regular_inductive _ run
  intro _ _ _ _ _ regular represents intended answer
  exact perform_represents regular represents intended answer

/-! ## Reading back -/

theorem read_holds (regular : k.disk.Regular) (holds : Holds k.disk request.key data)
    (enough : data.length ≤ request.bufferSize.toNat) :
    (read k request).1 = 0 ∧ (List.range data.length).map (read k request).2.2 = data := by
  obtain ⟨i, l, target, chain, rfl⟩ := holds
  rw [fileBytes_length] at enough ⊢
  have found : findNameExt (k.disk.table request.key.1) request.name request.ext = some i :=
    target.found regular.volume
  have range : ∀ c ∈ l, c < 512 :=
    fun c member => (regular.volume.range target.toSlot chain member).2
  have length : l.length = totalCluster (k.disk.table request.key.1 i).filesize := by
    rw [regular.volume.length target.toSlot chain, clusters_eq_needed, needed, if_neg target.file]
    rfl
  obtain ⟨code, copied⟩ :=
    read_found rfl (regular.volume.directory_range target.directory).2 found chain range length
    (UInt32.le_iff_toNat_le.mpr enough) (regular.volume.plain target.toSlot)
  refine ⟨code, ?_⟩
  apply List.map_congr_left
  intro a inside
  have bound := List.mem_range.mp inside
  have within : a < 2048 * l.length := by
    rw [length, totalCluster_eq]
    omega
  rw [copied a, if_pos within]

/-- A file stays in the map until it is deleted: a second write to its name is refused. -/
theorem next_kept {request : Request} {code : Int8} (regular : k.disk.Regular)
    (represents : Represents k.disk m)
    (intended : Intended k request) (answer : perform k request = some (code, k'))
    (stored : m key = some data)
    (notDeleted : ∀ r, (request, code) = (.delete r, 0) → r.bufferSize = 0 ∨ r.key ≠ key) :
    Files.next m request code key = some data := by
  cases request with
  | read r => exact stored
  | readDirectory r => exact stored
  | write r =>
    by_cases accepted : code = 0 ∧ r.bufferSize ≠ 0
    · have different : key ≠ r.key := by
        rintro rfl
        obtain ⟨i, l, target, _⟩ := (represents r.key data).mp stored
        have taken : Taken (k.disk.table r.parentClusterNumber.toNat) r :=
          ⟨i, target.name, fun _ => target.ext⟩
        have refused := write_refused regular.sound intended.parent rfl (intended.write r rfl) taken
        obtain ⟨failed, _⟩ := Prod.mk.inj (Option.some.inj (answer.symm.trans refused))
        rw [accepted.1] at failed
        exact absurd failed (by decide)
      rw [Files.next, if_pos accepted, Function.update_of_ne different]
      exact stored
    · rw [Files.next, if_neg accepted]
      exact stored
  | delete r =>
    by_cases accepted : code = 0 ∧ r.bufferSize ≠ 0
    · rcases notDeleted r (by rw [accepted.1]) with folder | different
      · exact absurd folder accepted.2
      · rw [Files.next, if_pos accepted, Function.update_of_ne (Ne.symm different)]
        exact stored
    · rw [Files.next, if_neg accepted]
      exact stored

/-- Induction on the run: behind the write that stored a file, every request keeps it. -/
theorem replay_written (run : Run perform Intended Fresh history k)
    {before after : List (Request × Int8)}
    (split : history = before ++ (.write request, 0) :: after) (file : request.bufferSize ≠ 0)
    (notDeleted : ∀ r, (.delete r, 0) ∈ after → r.bufferSize = 0 ∨ r.key ≠ request.key) :
    replay Files.next (fun _ => none) history request.key = some request.contents := by
  induction run generalizing after with
  | start => simp at split
  | @step history k k' last code earlier intended answer ih =>
    rw [replay, List.foldl_append]
    change Files.next (replay Files.next (fun _ => none) history) last code request.key = _
    -- the last request is the write itself, or one behind it
    rcases List.eq_nil_or_concat after with rfl | ⟨after, event, rfl⟩
    · obtain ⟨rfl, events⟩ := List.append_inj' split rfl
      obtain ⟨rfl, rfl⟩ := Prod.mk.inj (List.cons.inj events).1
      rw [Files.next, if_pos ⟨rfl, file⟩, Function.update_self]
    · have regroup : history ++ [(last, code)] = (before ++ (.write request, 0) :: after) ++ [event] := by
        rw [split]
        simp
      obtain ⟨rfl, events⟩ := List.append_inj' regroup rfl
      obtain rfl := (List.cons.inj events).1
      have stored := ih rfl fun r member => notDeleted r (by simp [member])
      apply next_kept (run_regular earlier) (run_represents earlier) intended answer stored
      intro r same
      exact notDeleted r (by simp [same])

/-- In every run of intended requests the disk holds exactly the files of the map, and a
    file that was written and not deleted since is read back as it was written. -/
theorem run_refines_files (run : Run perform Intended Fresh history k) :
    Represents k.disk (replay Files.next (fun _ => none) history) ∧
    ∀ before after written, history = before ++ (.write written, 0) :: after →
    written.bufferSize ≠ 0 →
      (∀ r, (.delete r, 0) ∈ after → r.bufferSize = 0 ∨ r.key ≠ written.key) →
      ∀ request : FAT32DriverRequest, request.key = written.key → written.bufferSize ≤ request.bufferSize →
        (read k request).1 = 0 ∧ ∀ a, a < written.bufferSize.toNat → (read k request).2.2 a = written.buf a := by
  refine ⟨run_represents run, ?_⟩
  intro before after written split file notDeleted request sameKey enough
  have stored := replay_written run split file notDeleted
  have holds := (run_represents run written.key written.contents).mp stored
  have length : written.contents.length = written.bufferSize.toNat := by
    simp [FAT32DriverRequest.contents]
  rw [← sameKey] at holds
  obtain ⟨code, bytes⟩ := read_holds (run_regular run) holds
    (length ▸ UInt32.le_iff_toNat_le.mp enough)
  refine ⟨code, ?_⟩
  intro a inside
  rw [length] at bytes
  exact List.map_inj_left.mp bytes a (List.mem_range.mpr inside)

/-- A file of 3000 bytes on two clusters is read back after a folder was created behind it. -/
theorem run_refines_files_two_clusters :
    let file : FAT32DriverRequest := ⟨fun a => UInt8.ofNat a, text ['a'], text ['t'], 2, 3000⟩
    let folder : FAT32DriverRequest := ⟨fun _ => 0, text ['d'], fun _ => 0, 2, 0⟩
    ∃ k, Run perform Intended Fresh [(.write file, 0), (.write folder, 0)] k ∧
      ∀ a, a < 3000 → (read k ⟨fun _ => 0, text ['a'], text ['t'], 2, 4096⟩).2.2 a = UInt8.ofNat a := by
  intro file folder
  obtain ⟨k₁, run₁, written⟩ :=
    run_first file (l := [4]) (by decide) (by decide) rfl rfl (by decide)
  obtain ⟨k, run, _⟩ := run_second folder run₁ written (t := []) (by decide) (by decide)
    (fun same => absurd same (by decide)) rfl rfl rfl
  refine ⟨k, run, ?_⟩
  have readable := (run_refines_files run).2 [] [(.write folder, 0)] file rfl (by decide) (by simp)
    ⟨fun _ => 0, text ['a'], text ['t'], 2, 4096⟩ rfl (by decide)
  exact readable.2

end Brother420.Fat32
