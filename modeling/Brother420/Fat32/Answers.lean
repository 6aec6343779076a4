import Brother420.Fat32.Erasing
import Brother420.Fat32.Indices

/-! # What a read answers and what it stores

`read` and `read_directory` answer 0 when their search finds nothing, and they
tell a folder from a file by an attribute that the writers never set.  `read`
stores whole clusters, up to the end of the last one of the file.
-/

namespace Brother420.Fat32

open Packed (Bytes Layout)
open Linked (Chain)
open Kernel Volume

variable {k : Kernel} {request : FAT32DriverRequest} {p : Nat} {i m : Fin 64} {l : List Nat}

/-! ## Answers -/

section Found

variable (parent : request.parentClusterNumber.toNat = p) (inside : p < 512)
include parent inside

theorem read_absent (absent : findNameExt (k.disk.table p) request.name request.ext = none) :
    read k request = (0, k.load p, request.buf) := by
  unfold read
  simp only [parent]
  rw [load_eq (show p < 2 ^ 26 by omega)]
  simp only [absent]

/-- Past the search, `read` compares the sizes first and tests the attribute then. -/
theorem read_at (found : findNameExt (k.disk.table p) request.name request.ext = some i) :
    read k request =
      if request.bufferSize < (k.disk.table p i).filesize then (2, k.load p, request.buf)
      else if (k.disk.table p i).attributeByte = 1 then (1, k.load p, request.buf)
      else (0, (k.load p).storeDirTable p, readLoop (k.load p) (totalCluster (k.disk.table p i).filesize) 0
        (k.disk.table p i).cluster request.buf) := by
  unfold read
  simp only [parent]
  rw [load_eq (show p < 2 ^ 26 by omega)]
  simp only [found]

/-- The answer alone. -/
theorem read_answer (found : findNameExt (k.disk.table p) request.name request.ext = some i) :
    (read k request).1 = if request.bufferSize < (k.disk.table p i).filesize then 2
      else if (k.disk.table p i).attributeByte = 1 then 1 else 0 := by
  rw [read_at parent inside found]
  split
  · rfl
  · split <;> rfl

theorem readDirectory_absent (absent : findName (k.disk.table p) request.name = none) :
    readDirectory k request = (0, k.loadDirTable p, request.buf) := by
  have table : (k.loadDirTable p).driverState.dirTableBuf = k.disk.table p :=
    load_dirTableBuf (show p < 2 ^ 26 by omega)
  unfold readDirectory
  simp only [parent, table, absent]

theorem readDirectory_at (found : findName (k.disk.table p) request.name = some i)
    (bound : (k.disk.table p i).cluster < 512) :
    ∃ k', readDirectory k request =
      if request.bufferSize < (k.disk.table p i).filesize then (2, k.loadDirTable p, request.buf)
      else if (k.disk.table p i).attributeByte = 1 then (1, k.loadDirTable p, request.buf)
      else (0, k', request.buf.store 0 (k.disk.cluster (k.disk.table p i).cluster)) := by
  have table : (k.loadDirTable p).driverState.dirTableBuf = k.disk.table p :=
    load_dirTableBuf (show p < 2 ^ 26 by omega)
  -- the table is stored back unchanged in front of the copy
  have stored : ((k.loadDirTable p).storeDirTable p).disk = k.disk := storeDirTable_load.1
  refine ⟨(k.loadDirTable p).storeDirTable p, ?_⟩
  unfold readDirectory
  simp only [parent, table, found, readClusters_eq (show (k.disk.table p i).cluster < 2 ^ 26 by omega), stored]

end Found

/-! ## Answers that tell the truth -/

/-- The entry in slot `i` is a folder; the self entry is one, whatever its size. -/
def IsFolder (table : FAT32DirectoryTable) (i : Fin 64) : Prop := i = 0 ∨ (table i).filesize = 0

instance (table : FAT32DirectoryTable) (i : Fin 64) : Decidable (IsFolder table i) :=
  inferInstanceAs (Decidable (_ ∨ _))

/-- The answer and the buffer of `read` say what the directory holds. -/
structure ReadTruthful (k : Kernel) (request : FAT32DriverRequest) (p : Nat) : Prop where
  copied : (read k request).1 = 0 → ∃ i l, FileAt k.disk.volume p i request.name request.ext ∧
    k.disk.volume.SlotChain p i l ∧
    ∀ a, a < (k.disk.table p i).filesize.toNat → (read k request).2.2 a = fileByte k.disk l a
  folder : (read k request).1 = 1 ↔
    ∃ i, (k.disk.table p i).Named request.name request.ext ∧ IsFolder (k.disk.table p) i
  small : (read k request).1 = 2 ↔ ∃ i, FileAt k.disk.volume p i request.name request.ext ∧
    request.bufferSize < (k.disk.table p i).filesize
  missing : (read k request).1 = 3 ↔ ∀ i, ¬ (k.disk.table p i).Named request.name request.ext

/-- The answer and the buffer of `read_directory` do; its match is the first slot in use with the name. -/
structure ReadDirectoryTruthful (k : Kernel) (request : FAT32DriverRequest) (p : Nat) : Prop where
  copied : (readDirectory k request).1 = 0 → ∃ i, (k.disk.table p i).Live ∧ (k.disk.table p i).name = request.name ∧
    IsFolder (k.disk.table p) i ∧
    (readDirectory k request).2.2.bytes 0 2048 = k.disk.cluster (k.disk.table p i).cluster
  file : (readDirectory k request).1 = 1 ↔ ∃ i, (k.disk.table p i).Live ∧ (k.disk.table p i).name = request.name ∧
    (∀ j, j < i → (k.disk.table p j).Live → (k.disk.table p j).name ≠ request.name) ∧ ¬ IsFolder (k.disk.table p) i
  missing : (readDirectory k request).1 = 2 ↔
    ∀ i, (k.disk.table p i).Live → (k.disk.table p i).name ≠ request.name

/-- A directory's table is no copy of the boot sector, which is text. -/
theorem boot_ne_directory (boot : k.disk.bootSector = fsSignature) {c : Nat} (live : (k.disk.table c 0).Live) :
    k.disk.cluster 0 ≠ k.disk.cluster c := by
  intro same
  have byte : k.disk (2048 * c + 12) = uattrNotEmpty := live
  have there : k.disk 12 = k.disk (2048 * c + 12) := by
    have at12 := congrFun same ⟨12, by decide⟩
    simpa [Disk.cluster, Memory.bytes] using at12
  have signature : k.disk 12 = fsSignature ⟨12, by decide⟩ := by
    rw [← boot]
    simp [Disk.bootSector, Memory.bytes]
  exact fsSignature_ascii _ (signature.symm.trans (there.trans byte))

section Truthful

variable (wellFormed : k.disk.WellFormed) (directory : k.disk.volume.Directory p)
  (parent : request.parentClusterNumber.toNat = p)
include wellFormed directory

/-- The entry with a name and extension is the only one in use. -/
theorem named_unique {name : Bytes 8} {ext : Bytes 3} (named : (k.disk.table p i).Named name ext)
    (other : (k.disk.table p m).Named name ext) : m = i :=
  wellFormed.volume.unique directory other.live named.live (other.name.trans named.name.symm)
    (other.ext.trans named.ext.symm)

/-- The answer 1 is true of a folder. -/
theorem readTruthful_of_folder (named : (k.disk.table p i).Named request.name request.ext)
    (folder : IsFolder (k.disk.table p) i) (answer : (read k request).1 = 1) : ReadTruthful k request p := by
  refine ⟨?_, ?_, ?_, ?_⟩ <;> rw [answer]
  · exact fun impossible => absurd impossible (by decide)
  · exact iff_of_true rfl ⟨i, named, folder⟩
  · refine iff_of_false (by decide) ?_
    rintro ⟨j, target, _⟩
    obtain rfl := named_unique wellFormed directory named ⟨target.live, target.name, target.ext⟩
    exact folder.elim target.entry target.file
  · exact iff_of_false (by decide) fun none => none i named

include parent

/-- A free slot is found for a request of zeros, and is read as a file of no bytes. -/
theorem not_truthful_of_vacant (found : findNameExt (k.disk.table p) request.name request.ext = some i)
    (vacant : ¬ (k.disk.table p i).Live)
    (truthful : ∀ buf, ReadTruthful k { request with buf := buf } p) : False := by
  have inside := (wellFormed.sound.volume.directory_range directory).2
  have empty : k.disk.table p i = .zero := wellFormed.sound.volume.free directory vacant
  have answer (buf : Memory) : (read k { request with buf := buf }).1 = 0 ∧
      (read k { request with buf := buf }).2.2 = buf := by
    rw [@read_at k { request with buf := buf } p i parent inside found, empty]
    exact ⟨rfl, rfl⟩
  -- two buffers that differ in byte 0 would both hold the first byte of the file
  obtain ⟨m, l, target, chain, copied⟩ := (truthful fun _ => 0).copied (answer _).1
  obtain ⟨m', l', target', chain', copied'⟩ := (truthful fun _ => 1).copied (answer _).1
  obtain rfl := named_unique wellFormed directory ⟨target.live, target.name, target.ext⟩
    ⟨target'.live, target'.name, target'.ext⟩
  obtain rfl := chain.unique chain'
  have positive : 0 < (k.disk.table p m').filesize.toNat := by
    rw [Nat.pos_iff_ne_zero]
    exact fun zero => target.file (UInt32.toNat_inj.mp zero)
  have first := copied 0 positive
  have second := copied' 0 positive
  rw [(answer _).2] at first second
  exact absurd (first.trans second.symm) (by decide)

/-- Of a file the answers are true: 2 for a smaller buffer, or 0 with the bytes of its chain. -/
theorem readTruthful_of_file (target : FileAt k.disk.volume p i request.name request.ext)
    (found : findNameExt (k.disk.table p) request.name request.ext = some i)
    (kind : (k.disk.table p i).attributeByte ≠ 1 ∨ request.bufferSize < (k.disk.table p i).filesize) :
    ReadTruthful k request p := by
  have sound := wellFormed.sound
  have inside := (sound.volume.directory_range directory).2
  have named : (k.disk.table p i).Named request.name request.ext := ⟨target.live, target.name, target.ext⟩
  have answer := read_answer parent inside found
  have only {j : Fin 64} (other : (k.disk.table p j).Named request.name request.ext) : j = i :=
    named_unique wellFormed directory named other
  have missing : ¬ ∀ j, ¬ (k.disk.table p j).Named request.name request.ext := fun none => none i named
  have notFolder : ¬ ∃ j, (k.disk.table p j).Named request.name request.ext ∧ IsFolder (k.disk.table p) j := by
    rintro ⟨j, other, isFolder⟩
    obtain rfl := only other
    exact isFolder.elim target.entry target.file
  by_cases small : request.bufferSize < (k.disk.table p i).filesize
  · rw [if_pos small] at answer
    refine ⟨?_, ?_, ?_, ?_⟩ <;> rw [answer]
    · exact fun impossible => absurd impossible (by decide)
    · exact iff_of_false (by decide) notFolder
    · exact iff_of_true rfl ⟨i, target, small⟩
    · exact iff_of_false (by decide) missing
  · have plain := kind.resolve_right small
    rw [if_neg small, if_neg plain] at answer
    refine ⟨fun _ => ?_, ?_, ?_, ?_⟩
    · obtain ⟨l, chain, length, range⟩ := sound.volume.chain target.toSlot
      rw [clusters_eq_needed, needed, if_neg target.file] at length
      obtain ⟨_, copied⟩ := read_found parent inside found chain (fun c member => (range c member).2) length
        (UInt32.not_lt.mp small) plain
      refine ⟨i, l, target, chain, fun a bound => ?_⟩
      rw [copied, if_pos]
      rw [length, Disk.volume_table, totalCluster_eq]
      omega
    · rw [answer]
      exact iff_of_false (by decide) notFolder
    · rw [answer]
      refine iff_of_false (by decide) ?_
      rintro ⟨j, other, less⟩
      exact small (only ⟨other.live, other.name, other.ext⟩ ▸ less)
    · rw [answer]
      exact iff_of_false (by decide) missing

/-- What the entry in use makes true of the other answers. -/
theorem readTruthful_of_found (named : (k.disk.table p i).Named request.name request.ext)
    (found : findNameExt (k.disk.table p) request.name request.ext = some i)
    (kind : if IsFolder (k.disk.table p) i then
        (k.disk.table p i).attributeByte = 1 ∧ (k.disk.table p i).filesize ≤ request.bufferSize
      else (k.disk.table p i).attributeByte ≠ 1 ∨ request.bufferSize < (k.disk.table p i).filesize) :
    ReadTruthful k request p := by
  by_cases folder : IsFolder (k.disk.table p) i
  · rw [if_pos folder] at kind
    have inside := (wellFormed.sound.volume.directory_range directory).2
    have answer := read_answer parent inside found
    rw [if_neg (UInt32.not_lt.mpr kind.2), if_pos kind.1] at answer
    exact readTruthful_of_folder wellFormed directory named folder answer
  · rw [if_neg folder] at kind
    obtain ⟨entry, file⟩ := not_or.mp folder
    have target : FileAt k.disk.volume p i request.name request.ext :=
      ⟨⟨directory, entry, named.live⟩, file, named.name, named.ext⟩
    exact readTruthful_of_file wellFormed directory parent target found kind

/-- The answers of `read` are true exactly if the entry is a folder with attribute 1 that is not larger than
    the buffer, or a file with another attribute or larger than the buffer, and no free slot is found first. -/
theorem read_truthful_iff :
    (∀ buf, ReadTruthful k { request with buf := buf } p) ↔
      ∃ i, (k.disk.table p i).Named request.name request.ext ∧
        Unshadowed (k.disk.table p) request.name request.ext ∧
        if IsFolder (k.disk.table p) i then
          (k.disk.table p i).attributeByte = 1 ∧ (k.disk.table p i).filesize ≤ request.bufferSize
        else (k.disk.table p i).attributeByte ≠ 1 ∨ request.bufferSize < (k.disk.table p i).filesize := by
  have inside := (wellFormed.sound.volume.directory_range directory).2
  constructor
  · intro truthful
    have here : ReadTruthful k request p := truthful request.buf
    cases found : findNameExt (k.disk.table p) request.name request.ext with
    | none =>
      obtain ⟨i, _, target, _⟩ := here.copied (by rw [read_absent parent inside found])
      exact absurd target.ext (findNameExt_none.mp found i target.name)
    | some i =>
      have live : (k.disk.table p i).Live := by
        by_contra vacant
        exact not_truthful_of_vacant wellFormed directory parent found vacant truthful
      obtain ⟨name, ext⟩ := (findNameExt_some.mp found).1
      have named : (k.disk.table p i).Named request.name request.ext := ⟨live, name, ext⟩
      refine ⟨i, named, (findNameExt_named_iff wellFormed directory named).mp found, ?_⟩
      have answer := read_answer parent inside found
      by_cases folder : IsFolder (k.disk.table p) i
      · rw [if_pos folder]
        rw [here.folder.mpr ⟨i, named, folder⟩] at answer
        split at answer
        · exact absurd answer (by decide)
        · rename_i enough
          split at answer
          · rename_i marked
            exact ⟨marked, UInt32.not_lt.mp enough⟩
          · exact absurd answer (by decide)
      · rw [if_neg folder]
        by_contra both
        obtain ⟨marked, enough⟩ := not_or.mp both
        rw [if_neg enough, if_pos (not_not.mp marked)] at answer
        obtain ⟨j, other, isFolder⟩ := here.folder.mp answer
        exact folder (named_unique wellFormed directory named other ▸ isFolder)
  · rintro ⟨i, named, unshadowed, kind⟩ buf
    exact readTruthful_of_found wellFormed directory parent named
      ((findNameExt_named_iff wellFormed directory named).mpr unshadowed) kind

omit parent in
/-- Slots in use name clusters inside the allocation table, and so do free slots. -/
theorem slot_cluster_lt (i : Fin 64) : (k.disk.table p i).cluster < 512 := by
  by_cases live : (k.disk.table p i).Live
  · obtain ⟨l, chain, allocated⟩ := wellFormed.sound.volume.live_chain directory live
    exact (allocated _ chain.head_mem).1.2
  · have empty : k.disk.table p i = .zero := wellFormed.sound.volume.free directory live
    rw [empty]
    decide

omit parent in
/-- A folder of the directory holds a table. -/
theorem folder_table_live (live : (k.disk.table p i).Live) (folder : IsFolder (k.disk.table p) i) :
    (k.disk.table (k.disk.table p i).cluster 0).Live := by
  have sound := wellFormed.sound.volume
  by_cases self : i = 0
  · have own : (k.disk.table p 0).cluster = p := (sound.self directory).2
    rw [self, own]
    exact (sound.self directory).1
  · exact (sound.self (.child directory self live (folder.resolve_left self))).1

omit wellFormed directory parent in
/-- The first slot with the name, when it is in use, is the first slot in use with the name. -/
theorem first_named_unique {table : FAT32DirectoryTable} {name : Bytes 8} {i j : Fin 64} (live : (table i).Live)
    (named : (table i).name = name) (first : ∀ x, x < i → (table x).name ≠ name) (named' : (table j).name = name)
    (first' : ∀ x, x < j → (table x).Live → (table x).name ≠ name) : j = i := by
  rcases lt_trichotomy i j with before | same | behind
  · exact absurd named (first' i before live)
  · exact same.symm
  · exact absurd named' (first j behind)

/-- What the first slot with the name makes true of the other answers. -/
theorem readDirectoryTruthful_of_found (live : (k.disk.table p i).Live) (name : (k.disk.table p i).name = request.name)
    (first : ∀ j, j < i → (k.disk.table p j).name ≠ request.name)
    (enough : (k.disk.table p i).filesize ≤ request.bufferSize)
    (kind : (k.disk.table p i).attributeByte = 1 ↔ ¬ IsFolder (k.disk.table p) i) :
    ReadDirectoryTruthful k request p := by
  have inside := (wellFormed.sound.volume.directory_range directory).2
  have found : findName (k.disk.table p) request.name = some i := findName_some.mpr ⟨name, first⟩
  obtain ⟨k', answer⟩ := readDirectory_at parent inside found (slot_cluster_lt wellFormed directory i)
  rw [if_neg (UInt32.not_lt.mpr enough)] at answer
  have missing : ¬ ∀ j, (k.disk.table p j).Live → (k.disk.table p j).name ≠ request.name :=
    fun none => none i live name
  by_cases marked : (k.disk.table p i).attributeByte = 1
  · rw [if_pos marked] at answer
    have code : (readDirectory k request).1 = 1 := congrArg (·.1) answer
    refine ⟨?_, ?_, ?_⟩ <;> rw [code]
    · exact fun impossible => absurd impossible (by decide)
    · exact iff_of_true rfl ⟨i, live, name, fun j before _ => first j before, kind.mp marked⟩
    · exact iff_of_false (by decide) missing
  · rw [if_neg marked] at answer
    have folder : IsFolder (k.disk.table p) i := not_not.mp (mt kind.mpr marked)
    have code : (readDirectory k request).1 = 0 := congrArg (·.1) answer
    refine ⟨fun _ => ⟨i, live, name, folder, ?_⟩, ?_, ?_⟩
    · rw [answer]
      exact Memory.bytes_store _
    · rw [code]
      refine iff_of_false (by decide) ?_
      rintro ⟨j, _, name', first', file⟩
      exact file (first_named_unique live name first name' first' ▸ folder)
    · rw [code]
      exact iff_of_false (by decide) missing

/-- The answers of `read_directory` are true exactly if the first slot with the name is in use and not larger
    than the buffer, and has attribute 1 if it is a file and only then. -/
theorem read_directory_truthful_iff :
    (∀ buf, ReadDirectoryTruthful k { request with buf := buf } p) ↔
      ∃ i, (k.disk.table p i).Live ∧ (k.disk.table p i).name = request.name ∧
        (∀ j, j < i → (k.disk.table p j).name ≠ request.name) ∧
        (k.disk.table p i).filesize ≤ request.bufferSize ∧
        ((k.disk.table p i).attributeByte = 1 ↔ ¬ IsFolder (k.disk.table p) i) := by
  have inside := (wellFormed.sound.volume.directory_range directory).2
  constructor
  · intro truthful
    have here : ReadDirectoryTruthful k request p := truthful request.buf
    cases found : findName (k.disk.table p) request.name with
    | none =>
      obtain ⟨i, _, name, _⟩ := here.copied (by rw [readDirectory_absent parent inside found])
      exact absurd name (findName_none.mp found i)
    | some i =>
      obtain ⟨name, first⟩ := findName_some.mp found
      obtain ⟨k', answer⟩ := readDirectory_at parent inside found (slot_cluster_lt wellFormed directory i)
      have live : (k.disk.table p i).Live := by
        by_contra vacant
        -- a free slot has cluster 0, so the boot sector is copied
        have empty : k.disk.table p i = .zero := wellFormed.sound.volume.free directory vacant
        have plain : readDirectory k request = (0, k', request.buf.store 0 (k.disk.cluster 0)) := by
          rw [answer, empty]
          rfl
        obtain ⟨j, live, _, folder, copied⟩ := here.copied (congrArg (·.1) plain)
        rw [plain] at copied
        exact boot_ne_directory wellFormed.boot (folder_table_live wellFormed directory live folder)
          (Memory.bytes_store (k.disk.cluster 0) ▸ copied)
      have enough : ¬ request.bufferSize < (k.disk.table p i).filesize := by
        intro small
        rw [if_pos small] at answer
        exact here.missing.mp (congrArg (·.1) answer) i live name
      rw [if_neg enough] at answer
      refine ⟨i, live, name, first, UInt32.not_lt.mp enough, ?_, ?_⟩
      · intro marked
        rw [if_pos marked] at answer
        obtain ⟨j, _, name', first', file⟩ := here.file.mp (congrArg (·.1) answer)
        exact first_named_unique live name first name' first' ▸ file
      · intro file
        have code := here.file.mpr ⟨i, live, name, fun j before _ => first j before, file⟩
        by_contra plain
        rw [if_neg plain] at answer
        exact absurd ((congrArg (·.1) answer).symm.trans code) (show ¬ (0 : Int8) = 1 by decide)
  · rintro ⟨i, live, name, first, enough, kind⟩ buf
    exact readDirectoryTruthful_of_found wellFormed directory parent live name first enough kind

/-- When the answers of `read` and of `read_directory` are true. -/
theorem answers_truthful_iff :
    ((∀ buf, ReadTruthful k { request with buf := buf } p) ↔
      ∃ i, (k.disk.table p i).Named request.name request.ext ∧
        Unshadowed (k.disk.table p) request.name request.ext ∧
        if IsFolder (k.disk.table p) i then
          (k.disk.table p i).attributeByte = 1 ∧ (k.disk.table p i).filesize ≤ request.bufferSize
        else (k.disk.table p i).attributeByte ≠ 1 ∨ request.bufferSize < (k.disk.table p i).filesize) ∧
    ((∀ buf, ReadDirectoryTruthful k { request with buf := buf } p) ↔
      ∃ i, (k.disk.table p i).Live ∧ (k.disk.table p i).name = request.name ∧
        (∀ j, j < i → (k.disk.table p j).name ≠ request.name) ∧
        (k.disk.table p i).filesize ≤ request.bufferSize ∧
        ((k.disk.table p i).attributeByte = 1 ↔ ¬ IsFolder (k.disk.table p) i)) :=
  ⟨read_truthful_iff wellFormed directory parent, read_directory_truthful_iff wellFormed directory parent⟩

end Truthful

/-- The file `x.t`: `read` tells the truth about it, and `read_directory` does not. -/
theorem answers_truthful_iff_file :
    ∃ k : Kernel, k.disk.WellFormed ∧ (∀ buf, ReadTruthful k { fileX with buf := buf } rootClusterNumber) ∧
      ¬ ∀ buf, ReadDirectoryTruthful k { fileX with buf := buf } rootClusterNumber := by
  obtain ⟨k, run, written⟩ := run_first fileX (l := []) (by decide) (by decide) rfl rfl (by decide)
  have regular := run_regular run
  obtain ⟨target, _, _⟩ := first_file written (by decide) rfl
  have plain : (k.disk.table rootClusterNumber 1).attributeByte ≠ 1 := regular.volume.plain target.toSlot
  have file : ¬ IsFolder (k.disk.table rootClusterNumber) 1 := not_or.mpr ⟨target.entry, target.file⟩
  have truthful := @answers_truthful_iff k fileX _ regular.wellFormed .root rfl
  refine ⟨k, regular.wellFormed, truthful.1.mpr ⟨1, ⟨target.live, target.name, target.ext⟩, ?_, ?_⟩, ?_⟩
  · exact fun zero => absurd (congrFun zero 0) (by decide)
  · rw [if_neg file]
    exact .inl plain
  · intro all
    obtain ⟨i, live, name, _, _, kind⟩ := truthful.2.mp all
    have table := first_table written
    -- no other slot has the name
    obtain rfl : i = 1 := by
      by_contra other
      rw [table, Function.update_of_ne other] at name
      have absent : ¬ Taken freshRoot ⟨fun _ => 0, text ['x'], fun _ => 0, 2, 0⟩ :=
        not_taken_freshRoot (by decide) (by decide)
      exact absent ⟨i, name, fun size => absurd rfl size⟩
    exact plain (kind.mpr file)

/-- On a new file system both answer 0 for `x.t`, which is not there. -/
theorem missing_entry_read :
    zeroKernel.disk.WellFormed ∧ (∀ i, (zeroKernel.disk.table rootClusterNumber i).Live →
      (zeroKernel.disk.table rootClusterNumber i).name ≠ fileX.name) ∧
      (read zeroKernel fileX).1 = 0 ∧ ¬ (∀ buf, ReadTruthful zeroKernel { fileX with buf := buf } rootClusterNumber) ∧
      (readDirectory zeroKernel fileX).1 = 0 ∧
      ¬ ∀ buf, ReadDirectoryTruthful zeroKernel { fileX with buf := buf } rootClusterNumber := by
  have parent : fileX.parentClusterNumber.toNat = rootClusterNumber := rfl
  have unnamed (i : Fin 64) : (zeroKernel.disk.table rootClusterNumber i).name ≠ fileX.name := by
    intro name
    have absent : ¬ Taken freshRoot ⟨fun _ => 0, text ['x'], fun _ => 0, 2, 0⟩ :=
      not_taken_freshRoot (by decide) (by decide)
    exact absent ⟨i, fresh_zeroKernel.root ▸ name, fun size => absurd rfl size⟩
  have code : (read zeroKernel fileX).1 = 0 := by
    rw [read_absent parent (by decide) (findNameExt_none.mpr fun i name => absurd name (unnamed i))]
  have code' : (readDirectory zeroKernel fileX).1 = 0 := by
    rw [readDirectory_absent parent (by decide) (findName_none.mpr unnamed)]
  refine ⟨fresh_zeroKernel.regular.wellFormed, fun i _ => unnamed i, code, ?_, code', ?_⟩
  · intro truthful
    obtain ⟨i, _, target, _⟩ := (truthful fileX.buf).copied code
    exact unnamed i target.name
  · intro truthful
    obtain ⟨i, _, name, _⟩ := (truthful fileX.buf).copied code'
    exact unnamed i name

/-! ## How much a read stores -/

/-- Nothing is stored at or behind the size of the buffer, and nothing at all when the answer is 2. -/
structure ReadBounded (k : Kernel) (request : FAT32DriverRequest) : Prop where
  beyond : ∀ a, request.bufferSize.toNat ≤ a → (read k request).2.2 a = request.buf a
  refused : (read k request).1 = 2 → (read k request).2.2 = request.buf

/-- A read that stores nothing is bounded. -/
theorem readBounded_of_unchanged (unchanged : (read k request).2.2 = request.buf) : ReadBounded k request :=
  ⟨fun _ _ => by rw [unchanged], fun _ => unchanged⟩

/-- A read that copies bytes into every buffer is bounded exactly if the buffer holds all of them. -/
theorem readBounded_iff_of_copied {n : Nat} {bytes : Memory}
    (copied : ∀ buf, (read k { request with buf := buf }).1 = 0 ∧
      ∀ a, (read k { request with buf := buf }).2.2 a = if a < n then bytes a else buf a) :
    (∀ buf, ReadBounded k { request with buf := buf }) ↔ n ≤ request.bufferSize.toNat := by
  constructor
  · intro bounded
    by_contra larger
    -- a buffer that differs from the bytes right behind its size
    have kept := (bounded fun _ => bytes request.bufferSize.toNat + 1).beyond request.bufferSize.toNat (Nat.le_refl _)
    rw [(copied _).2, if_pos (by omega)] at kept
    exact absurd kept (by simp)
  · intro whole buf
    refine ⟨?_, ?_⟩
    · intro a beyond
      rw [(copied buf).2, if_neg]
      have size : request.bufferSize.toNat ≤ a := beyond
      omega
    · intro refused
      rw [(copied buf).1] at refused
      exact absurd refused (by decide)

/-- Where a free slot is found instead of the file, it is read as a file of no bytes. -/
theorem readBounded_of_shadowed (sound : k.disk.Sound) (parent : request.parentClusterNumber.toNat = p)
    (directory : k.disk.volume.Directory p)
    (shadowed : ¬ Unshadowed (k.disk.table p) request.name request.ext) : ReadBounded k request := by
  apply readBounded_of_unchanged
  rw [unshadowed_disk_iff sound directory] at shadowed
  obtain ⟨j, found⟩ := not_forall.mp shadowed
  obtain ⟨found, vacant⟩ := Classical.not_imp.mp found
  have empty : k.disk.table p j = .zero := sound.volume.free directory vacant
  rw [read_at parent (sound.volume.directory_range directory).2 found, empty]
  rfl

/-- On a well-formed disk the size of the buffer bounds what the read of a file stores exactly if the read
    stores nothing, or the buffer holds all clusters of the file. -/
theorem read_bounded_iff (wellFormed : k.disk.WellFormed) (parent : request.parentClusterNumber.toNat = p)
    (target : FileAt k.disk.volume p m request.name request.ext) :
    (∀ buf, ReadBounded k { request with buf := buf }) ↔
      request.bufferSize < (k.disk.table p m).filesize ∨ (k.disk.table p m).attributeByte = 1 ∨
      (request.name = (fun _ => 0) ∧ request.ext = (fun _ => 0) ∧ ∃ j, j < m ∧ ¬ (k.disk.table p j).Live) ∨
      clusterSize * totalCluster (k.disk.table p m).filesize ≤ request.bufferSize.toNat := by
  have sound := wellFormed.sound
  have inside := (sound.volume.directory_range target.directory).2
  have named : (k.disk.table p m).Named request.name request.ext := ⟨target.live, target.name, target.ext⟩
  have shadowed : (request.name = (fun _ => 0) ∧ request.ext = (fun _ => 0) ∧ ∃ j, j < m ∧ ¬ (k.disk.table p j).Live) ↔
      ¬ Unshadowed (k.disk.table p) request.name request.ext := by
    rw [unshadowed_named_iff wellFormed target.directory named]
    simp only [Classical.not_imp, not_forall]
  rw [shadowed]
  by_cases unshadowed : Unshadowed (k.disk.table p) request.name request.ext
  · have found := (findNameExt_named_iff wellFormed target.directory named).mpr unshadowed
    have answer (buf : Memory) := @read_at k { request with buf := buf } p m parent inside found
    by_cases small : request.bufferSize < (k.disk.table p m).filesize
    · refine iff_of_true (fun buf => readBounded_of_unchanged ?_) (.inl small)
      rw [answer, if_pos small]
    · by_cases marked : (k.disk.table p m).attributeByte = 1
      · refine iff_of_true (fun buf => readBounded_of_unchanged ?_) (.inr (.inl marked))
        rw [answer, if_neg small, if_pos marked]
      · obtain ⟨l, chain, length, range⟩ := sound.volume.chain target.toSlot
        rw [clusters_eq_needed, needed, if_neg target.file, Disk.volume_table] at length
        -- the copy covers the clusters of the chain
        have copied (buf : Memory) := (@read_found m k { request with buf := buf } p l parent inside found chain
          (fun c member => (range c member).2) length (UInt32.not_lt.mp small) marked)
        simp only [small, marked, unshadowed, not_true_eq_false, false_or, ← length, clusterSize]
        exact readBounded_iff_of_copied copied
  · refine iff_of_true (fun buf => ?_) (.inr (.inr (.inl unshadowed)))
    exact readBounded_of_shadowed sound parent target.directory unshadowed

/-- The request for `x.t` with a buffer of ones. -/
def readX (size : UInt32) : FAT32DriverRequest := ⟨fun _ => 1, text ['x'], text ['t'], 2, size⟩

/-- A buffer of one cluster holds what is stored for a file of one byte. -/
theorem read_bounded_iff_cluster :
    ∃ k : Kernel, k.disk.WellFormed ∧ FileAt k.disk.volume rootClusterNumber 1 (readX 2048).name (readX 2048).ext ∧
      ∀ buf, ReadBounded k { readX 2048 with buf := buf } := by
  obtain ⟨k, run, written⟩ := run_first fileX (l := []) (by decide) (by decide) rfl rfl (by decide)
  obtain ⟨target, _, _⟩ := first_file written (by decide) rfl
  have wellFormed := (run_regular run).wellFormed
  have entry := (first_entry written).2
  have bounded := @read_bounded_iff k (readX 2048) rootClusterNumber 1 wellFormed rfl target
  refine ⟨k, wellFormed, target, bounded.mpr (.inr (.inr (.inr ?_)))⟩
  rw [entry, filesize_newEntry]
  decide

/-- With a buffer of one byte, the next byte is overwritten too. -/
theorem read_stores_whole_cluster :
    ∃ k : Kernel, k.disk.WellFormed ∧ FileAt k.disk.volume rootClusterNumber 1 (readX 1).name (readX 1).ext ∧
      (readX 1).parentClusterNumber.toNat = rootClusterNumber ∧
      ¬ (∀ buf, ReadBounded k { readX 1 with buf := buf }) ∧
      (read k (readX 1)).1 = 0 ∧ (readX 1).buf 1 = 1 ∧ (read k (readX 1)).2.2 1 = 0 := by
  obtain ⟨k, run, written⟩ := run_first fileX (l := []) (by decide) (by decide) rfl rfl (by decide)
  obtain ⟨target, chain, _⟩ := first_file written (by decide) rfl
  have regular := run_regular run
  have entry := (first_entry written).2
  have found : findNameExt (k.disk.table rootClusterNumber) (readX 1).name (readX 1).ext = some 1 :=
    target.found regular.volume
  have length : [3].length = totalCluster (k.disk.table rootClusterNumber 1).filesize := by
    rw [entry, filesize_newEntry]
    decide
  have enough : (k.disk.table rootClusterNumber 1).filesize ≤ (readX 1).bufferSize := by
    rw [entry, filesize_newEntry]
    decide
  have parent : (readX 1).parentClusterNumber.toNat = rootClusterNumber := rfl
  obtain ⟨code, copied⟩ := read_found parent (by decide) found chain (by decide) length enough
    (regular.volume.plain target.toSlot)
  have byte : (read k (readX 1)).2.2 1 = 0 := by
    have content : k.disk.cluster 3 = lastCluster fileX 0 := written.content (by decide) 0 3 rfl
    rw [copied, if_pos (by decide), fileByte_head (by decide), content]
    rfl
  refine ⟨k, regular.wellFormed, target, parent, ?_, code, rfl, byte⟩
  intro bounded
  have kept := (bounded (readX 1).buf).beyond 1 (Nat.le_refl _)
  have changed : (0 : UInt8) = 1 := byte.symm.trans kept
  exact absurd changed (by decide)

end Brother420.Fat32
