import Brother420.Shell.Lines
import Brother420.Shell.Navigation

/-! # Copying a file

`cp` reads the source into a buffer of four clusters on its stack and writes the
buffer back under the new name.  It asks neither whether the file fits the
buffer nor whether the read was refused.
-/

namespace Brother420.Shell

open Packed (Bytes Layout)
open Linked (Chain)
open Runs (Run)
open Fat32 Kernel Volume

variable {k k' : Kernel} {s : ShellState} {p : Nat} {m : Fin 64} {old new : ShortName} {l : List Nat}
  {cbuf buf : Memory}

/-! ## What a copy is -/

/-- A read of the name in directory `p` returns 0 and these bytes. -/
def ReadsAs (k : Kernel) (p : Nat) (x : ShortName) (size : UInt32) (byte : Nat → UInt8) : Prop :=
  ∀ request : FAT32DriverRequest, request.parentClusterNumber.toNat = p → request.name = x.name →
    request.ext = x.extension → size ≤ request.bufferSize →
    (read k request).1 = 0 ∧ ∀ a, a < size.toNat → (read k request).2.2 a = byte a

/-- Directory `p` holds a copy under the new name of the file in slot `m`, whose clusters are those
    of `l`; the file is as it was, and of the memory `cbuf` only the buffer itself was stored to. -/
structure Copies (k k' : Kernel) (p : Nat) (m : Fin 64) (new : ShortName) (l : List Nat) (cbuf buf : Memory) :
    Prop where
  copy : ∃ i, FileAt k'.disk.volume p i new.name new.extension ∧
    (k'.disk.table p i).filesize = (k.disk.table p m).filesize
  reads : ReadsAs k' p new (k.disk.table p m).filesize (fileByte k.disk l)
  entry : k'.disk.table p m = k.disk.table p m
  chain : k'.disk.volume.SlotChain p m l
  clusters : ∀ c ∈ l, k'.disk.cluster c = k.disk.cluster c
  inside : ∀ a, 4 * clusterSize ≤ a → buf a = cbuf a

/-! ## What the write leaves -/

section Written

variable {k₁ : Kernel} {request : FAT32DriverRequest} {i : Fin 64} {e : FAT32DirectoryEntry} {l' : List Nat}
  (sound : k.disk.Sound) (same : k₁.disk = k.disk) (written : Written request p i e l' k₁ k')
include sound same written

/-- The new file reads as the bytes that the write was handed. -/
theorem written_reads (name : request.name = new.name) (ext : request.ext = new.extension)
    (file : request.bufferSize ≠ 0) : ReadsAs k' p new request.bufferSize request.buf := by
  intro r parent isName isExt enough
  have added := written.added
  have soundVolume : k₁.disk.volume.Sound := same ▸ sound.volume
  have inside := (soundVolume.directory_range added.parent).2
  have new_ : k'.disk.table p i = e := added.table_new
  have size : (k'.disk.table p i).filesize = request.bufferSize := by rw [new_, written.filesize]
  have plain : (k'.disk.table p i).attributeByte ≠ 1 := by
    rw [new_, written.plain]
    decide
  -- no slot in front of the new one has its name, or the write had been refused
  have found : findNameExt (k'.disk.table p) r.name r.ext = some i := by
    have table : k'.disk.table p = Function.update (k₁.disk.table p) i e := added.tableParent
    rw [isName, isExt, ← name, ← ext, table]
    refine findNameExt_some.mpr ⟨?_, ?_⟩
    · rw [Function.update_self, written.name, written.ext, if_neg file]
      exact ⟨rfl, rfl⟩
    · intro j before hit hit'
      rw [Function.update_of_ne (Fin.ne_of_lt before)] at hit hit'
      exact written.newName ⟨j, hit, fun _ => hit'⟩
  have length : l'.length = totalCluster (k'.disk.table p i).filesize := by
    rw [size, added.length, clusters_eq_needed, written.filesize, needed, if_neg file]
  have chain : Chain (fun c => fatTarget (k'.disk.fat c)) (k'.disk.table p i).cluster l' := by
    rw [new_]
    exact added.chain
  obtain ⟨code, bytes⟩ :=
    read_found parent inside found chain added.inside length (size ▸ enough) plain
  refine ⟨code, fun a within => ?_⟩
  rw [totalCluster_eq, size] at length
  rw [bytes, if_pos (by omega)]
  exact List.map_inj_left.mp (written.fileBytes_new file) a (List.mem_range.mpr within)

/-- A write leaves a copy exactly if the buffer held the file and nothing behind it was stored to. -/
theorem copies_iff (cbuf : Memory) (file : FileAt k.disk.volume p m old.name old.extension)
    (chain : k.disk.volume.SlotChain p m l)
    (name : request.name = new.name) (ext : request.ext = new.extension)
    (size : request.bufferSize = (k.disk.table p m).filesize) (handed : request.buf = buf) :
    Copies k k' p m new l cbuf buf ↔
      (∀ a, a < (k.disk.table p m).filesize.toNat → buf a = fileByte k.disk l a) ∧
        ∀ a, 4 * clusterSize ≤ a → buf a = cbuf a := by
  have notFolder : request.bufferSize ≠ 0 := by
    rw [size]
    exact file.file
  have reads := written_reads sound same written name ext notFolder
  rw [size, handed] at reads
  constructor
  · intro copies
    refine ⟨fun a within => ?_, copies.inside⟩
    -- one request shows what both readings of the new file return
    have range := sound.volume.directory_range file.directory
    have parent : (UInt32.ofNat p).toNat = p :=
      UInt32.toNat_ofNat_of_lt' (Nat.lt_trans range.2 (by decide))
    have first := (reads ⟨fun _ => 0, new.name, new.extension, UInt32.ofNat p, _⟩ parent rfl rfl
      (UInt32.le_refl _)).2 a within
    have second := (copies.reads ⟨fun _ => 0, new.name, new.extension, UInt32.ofNat p, _⟩ parent rfl rfl
      (UInt32.le_refl _)).2 a within
    exact first.symm.trans second
  · rintro ⟨bytes, inside⟩
    have added := written.added
    rw [same] at added
    have frame := written.frame
    have entry : k'.disk.table p m = k.disk.table p m := added.table_eq file.directory file.live
    refine ⟨⟨i, ⟨(added.slot_iff sound.volume).mpr (.inr ⟨rfl, rfl⟩), ?_, ?_, ?_⟩, ?_⟩, ?_, entry,
      added.chain_kept sound.volume file.toSlot chain, ?_, inside⟩
    · rw [added.table_new, written.filesize]
      exact notFolder
    · rw [added.table_new, written.name, name]
    · rw [added.table_new, written.ext, if_neg notFolder, ext]
    · rw [← Disk.volume_table, added.table_new, written.filesize, size]
    · intro r parent isName isExt enough
      obtain ⟨code, read_⟩ := reads r parent isName isExt enough
      exact ⟨code, fun a within => (read_ a within).trans (bytes a within)⟩
    · intro c member
      have range := sound.volume.range file.toSlot chain member
      rw [frame c (by omega), same]
      · rintro rfl
        exact sound.volume.file_not_directory file.toSlot file.file chain member added.parent
      · intro fresh
        exact sound.volume.fat_ne_zero file.toSlot chain member (added.fresh c fresh)

end Written

/-! ## What the line does -/

/-- The read that `cp` makes for the file in slot `m`. -/
def copyRead (s : ShellState) (m : Fin 64) (old : ShortName) (cbuf : Memory) : FAT32DriverRequest :=
  ⟨cbuf, old.name, old.extension, UInt32.ofNat s.currentDirectoryCluster,
    (s.kernel.disk.table s.currentDirectoryCluster m).filesize⟩

/-- The write that follows it. -/
def copyWrite (s : ShellState) (m : Fin 64) (old new : ShortName) (cbuf : Memory) :
    FAT32DriverRequest :=
  ⟨(read s.kernel (copyRead s m old cbuf)).2.2, new.name, new.extension, UInt32.ofNat s.currentDirectoryCluster,
    (s.kernel.disk.table s.currentDirectoryCluster m).filesize⟩

theorem byte_succ_ne (b : UInt8) : b ≠ b + 1 := by
  intro same
  have value := congrArg UInt8.toNat same
  have bound := b.toNat_lt
  simp [UInt8.toNat_add] at value
  omega

section Line

variable (wellFormed : s.kernel.disk.WellFormed)
  (file : FileAt s.kernel.disk.volume s.currentDirectoryCluster m old.name old.extension)
include wellFormed file

/-- What `read` leaves in the buffer and behind it. -/
theorem copyWrite_buf (chain : s.kernel.disk.volume.SlotChain s.currentDirectoryCluster m l)
    (a : Nat) :
    (copyWrite s m old new cbuf).buf a =
      if (s.kernel.disk.table s.currentDirectoryCluster m).attributeByte = 1 then cbuf a
      else if a < 2048 * l.length then fileByte s.kernel.disk l a else cbuf a := by
  have range := wellFormed.volume.directory_range file.directory
  have parent : (UInt32.ofNat s.currentDirectoryCluster).toNat = s.currentDirectoryCluster :=
    UInt32.toNat_ofNat_of_lt' (Nat.lt_trans range.2 (by decide))
  exact (read_slot wellFormed file.toSlot file.file chain old.name_ne file.name file.ext (copyRead s m old cbuf) parent
    rfl rfl (UInt32.le_refl _)).2 a

theorem copy_length (chain : s.kernel.disk.volume.SlotChain s.currentDirectoryCluster m l) :
    0 < (s.kernel.disk.table s.currentDirectoryCluster m).filesize.toNat ∧
      l.length = ((s.kernel.disk.table s.currentDirectoryCluster m).filesize.toNat + 2047) / 2048 := by
  have notFolder : (s.kernel.disk.table s.currentDirectoryCluster m).filesize ≠ 0 := file.file
  refine ⟨Nat.pos_of_ne_zero fun zero => notFolder (UInt32.toNat_inj.mp zero), ?_⟩
  rw [wellFormed.volume.length file.toSlot chain, FAT32DirectoryEntry.clusters, Disk.volume_table, if_neg notFolder]

variable (dotted : old.ext ≠ []) (dotted' : new.ext ≠ [])
  (fresh : ∀ i, (s.kernel.disk.table s.currentDirectoryCluster i).Live →
    (s.kernel.disk.table s.currentDirectoryCluster i).name = new.name →
    (s.kernel.disk.table s.currentDirectoryCluster i).ext ≠ new.extension)
  (room : Room s.kernel.disk s.currentDirectoryCluster (s.kernel.disk.table s.currentDirectoryCluster m).filesize)
include dotted dotted' fresh room

theorem copy_line (cbuf : Memory) :
    ∃ k₁ k' i e l', k₁.disk = s.kernel.disk ∧
      commandCallCp s (lineOf (cpText old new)) cbuf =
        some (some (copyWrite s m old new cbuf).buf, { s with kernel := k' }) ∧
      Written (copyWrite s m old new cbuf) s.currentDirectoryCluster i e l' k₁ k' := by
  have range := wellFormed.volume.directory_range file.directory
  have parent : (UInt32.ofNat s.currentDirectoryCluster).toNat = s.currentDirectoryCluster :=
    UInt32.toNat_ofNat_of_lt' (Nat.lt_trans range.2 (by decide))
  have found : findLive (s.kernel.disk.table s.currentDirectoryCluster) old.name old.extension = some m := by
    have lookup := findLive_slot wellFormed.volume file.toSlot
    rwa [file.name, file.ext] at lookup
  obtain ⟨source, target, behind⟩ := spells_cpText new dotted
  have same : (read s.kernel (copyRead s m old cbuf)).2.1.disk = s.kernel.disk := read_disk _ _
  -- nothing in the directory is in the way of the write
  have free : ¬ Taken ((read s.kernel (copyRead s m old cbuf)).2.1.disk.table s.currentDirectoryCluster)
      (copyWrite s m old new cbuf) := by
    rw [same]
    rintro ⟨i, name, ext⟩
    exact fresh i (live_of_name wellFormed.volume.toSound file.directory new.name_ne name) name (ext file.file)
  have parent' : (copyWrite s m old new cbuf).parentClusterNumber.toNat = s.currentDirectoryCluster := parent
  obtain ⟨k', i, e, l', wrote, written⟩ :=
    write_accepted (same ▸ wellFormed.sound) (same ▸ file.directory) parent' (same ▸ room) free
  refine ⟨_, k', i, e, l', same, ?_, written⟩
  unfold commandCallCp
  simp only [readTable_eq (show s.currentDirectoryCluster < 2 ^ 26 by omega), parseCpSource_typed source dotted]
  simp only [found, parseCpTarget_typed target behind dotted']
  change (write (read s.kernel (copyRead s m old cbuf)).2.1 (copyWrite s m old new cbuf)).bind
    (fun answer => some (some (copyWrite s m old new cbuf).buf, { s with kernel := answer.2 })) = _
  rw [wrote]
  rfl

variable (chain : s.kernel.disk.volume.SlotChain s.currentDirectoryCluster m l)
include chain

/-- The line is answered, and its answer is a copy exactly if the buffer is right. -/
theorem copy_line_result (cbuf : Memory) :
    (∃ buf s', commandCallCp s (lineOf (cpText old new)) cbuf = some (some buf, s') ∧
        Copies s.kernel s'.kernel s.currentDirectoryCluster m new l cbuf buf) ↔
      (∀ a, a < (s.kernel.disk.table s.currentDirectoryCluster m).filesize.toNat →
          (copyWrite s m old new cbuf).buf a = fileByte s.kernel.disk l a) ∧
        ∀ a, 4 * clusterSize ≤ a → (copyWrite s m old new cbuf).buf a = cbuf a := by
  obtain ⟨k₁, k', i, e, l', same, answer, written⟩ :=
    copy_line wellFormed file dotted dotted' fresh room cbuf
  rw [← copies_iff wellFormed.sound same written cbuf file chain rfl rfl rfl rfl]
  constructor
  · rintro ⟨buf, s', answer', made⟩
    rw [answer] at answer'
    obtain ⟨stored, rfl⟩ := Prod.mk.inj (Option.some.inj answer')
    obtain rfl := Option.some.inj stored
    exact made
  · exact fun made => ⟨_, _, answer, made⟩

/-- A buffer that differs from the file everywhere shows what is not copied and what is overrun. -/
theorem fits_of_copies (all : ∀ cbuf, ∃ buf s', commandCallCp s (lineOf (cpText old new)) cbuf = some (some buf, s') ∧
      Copies s.kernel s'.kernel s.currentDirectoryCluster m new l cbuf buf) :
    (s.kernel.disk.table s.currentDirectoryCluster m).filesize.toNat ≤ 4 * clusterSize ∧
      (s.kernel.disk.table s.currentDirectoryCluster m).attributeByte ≠ 1 := by
  obtain ⟨positive, length⟩ := copy_length wellFormed file chain
  obtain ⟨equal, inside⟩ := (copy_line_result wellFormed file dotted dotted' fresh room chain
    fun a => fileByte s.kernel.disk l a + 1).mp (all _)
  -- a refused read leaves the buffer as it was, and that is nowhere the file
  have visible : (s.kernel.disk.table s.currentDirectoryCluster m).attributeByte ≠ 1 := by
    intro hidden
    have first := equal 0 positive
    rw [copyWrite_buf wellFormed file chain, if_pos hidden] at first
    exact byte_succ_ne _ first.symm
  refine ⟨?_, visible⟩
  by_contra large
  -- the fifth cluster of the file would be read to the bytes behind the buffer
  have behind := inside (4 * clusterSize) (Nat.le_refl _)
  rw [copyWrite_buf wellFormed file chain, if_neg visible,
    if_pos (by simp only [clusterSize] at large ⊢; omega)] at behind
  exact byte_succ_ne _ behind

theorem copies_of_fits
    (fits : (s.kernel.disk.table s.currentDirectoryCluster m).filesize.toNat ≤ 4 * clusterSize)
    (visible : (s.kernel.disk.table s.currentDirectoryCluster m).attributeByte ≠ 1)
    (cbuf : Memory) :
    ∃ buf s', commandCallCp s (lineOf (cpText old new)) cbuf = some (some buf, s') ∧
      Copies s.kernel s'.kernel s.currentDirectoryCluster m new l cbuf buf := by
  obtain ⟨positive, length⟩ := copy_length wellFormed file chain
  apply (copy_line_result wellFormed file dotted dotted' fresh room chain cbuf).mpr
  simp only [clusterSize] at fits ⊢
  refine ⟨fun a within => ?_, fun a outside => ?_⟩
  · rw [copyWrite_buf wellFormed file chain, if_neg visible, if_pos (by omega)]
  · rw [copyWrite_buf wellFormed file chain, if_neg visible, if_neg (by omega)]

end Line

/-- The file `a.t` of zeros in a new root. -/
theorem run_zeroFile (size : UInt32) {rest : List Nat} (split : List.range' 3 509 = 3 :: l ++ rest)
    (file : size ≠ 0) (count : (3 :: l).length = needed size) (enough : needed size ≤ rest.length) :
    ∃ k, Run perform Intended Fresh [(.write (zeroFile size), 0)] k ∧
      FileAt k.disk.volume rootClusterNumber 1 nameAT.name nameAT.extension ∧
      k.disk.volume.SlotChain rootClusterNumber 1 (3 :: l) ∧
      (∀ i, (k.disk.table rootClusterNumber i).name ≠ nameBT.name) ∧
      Room k.disk rootClusterNumber (k.disk.table rootClusterNumber 1).filesize ∧
      (k.disk.table rootClusterNumber 1).filesize = size ∧ (k.disk.table rootClusterNumber 1).attributeByte ≠ 1 := by
  have notRoot : (zeroFile size).name ≠ rootName := show text ['a'] ≠ rootName by decide
  have named : (zeroFile size).name ≠ fun _ => 0 := show text ['a'] ≠ fun _ => 0 by decide
  obtain ⟨k, run, written⟩ := run_first (zeroFile size) notRoot named rfl split count
  obtain ⟨_, entry⟩ := first_entry written
  obtain ⟨fileAt, chain, free, vacant⟩ := first_file written file split
  have filesize : (k.disk.table rootClusterNumber 1).filesize = size := by
    rw [entry, filesize_newEntry]
    rfl
  have other : nameBT.name ≠ (zeroFile size).name := show nameBT.name ≠ text ['a'] by decide
  refine ⟨k, run, fileAt, chain, ?_, ⟨⟨2, vacant⟩, ?_⟩, filesize, ?_⟩
  · exact first_names written nameBT.name_ne (by decide) other
  · rw [filesize, free]
    exact enough
  · rw [entry, written.plain]
    decide

/-! ## cp old new -/

/-- With room, `cp` makes a faithful copy, whatever its buffer holds before, if and only if the
    file fits the four clusters of the buffer and is not hidden from `read`. -/
theorem copy_line_iff (wellFormed : s.kernel.disk.WellFormed)
    (file : FileAt s.kernel.disk.volume s.currentDirectoryCluster m old.name old.extension)
    (chain : s.kernel.disk.volume.SlotChain s.currentDirectoryCluster m l) (dotted : old.ext ≠ [])
    (dotted' : new.ext ≠ [])
    (fresh : ∀ i, (s.kernel.disk.table s.currentDirectoryCluster i).Live →
      (s.kernel.disk.table s.currentDirectoryCluster i).name = new.name →
      (s.kernel.disk.table s.currentDirectoryCluster i).ext ≠ new.extension)
    (room : Room s.kernel.disk s.currentDirectoryCluster
      (s.kernel.disk.table s.currentDirectoryCluster m).filesize) :
    (∀ cbuf, ∃ buf s', commandCallCp s (lineOf (cpText old new)) cbuf = some (some buf, s') ∧
        Copies s.kernel s'.kernel s.currentDirectoryCluster m new l cbuf buf) ↔
      (s.kernel.disk.table s.currentDirectoryCluster m).filesize.toNat ≤ 4 * clusterSize ∧
        (s.kernel.disk.table s.currentDirectoryCluster m).attributeByte ≠ 1 := by
  constructor
  · exact fits_of_copies wellFormed file dotted dotted' fresh room chain
  · rintro ⟨fits, visible⟩
    exact copies_of_fits wellFormed file dotted dotted' fresh room chain fits visible

/-- The file `a.t` of one byte is copied to `b.t`. -/
theorem copy_line_iff_one_byte :
    ∃ k, Run perform Intended Fresh [(.write (zeroFile 1), 0)] k ∧
      ∀ cbuf, ∃ buf s', commandCallCp (startShell k) (lineOf (cpText nameAT nameBT)) cbuf = some (some buf, s') ∧
        Copies k s'.kernel rootClusterNumber 1 nameBT [3] cbuf buf := by
  have split : List.range' 3 509 = 3 :: [] ++ List.range' 4 508 := rfl
  obtain ⟨k, run, file, chain, unused, room, size, visible⟩ :=
    run_zeroFile 1 split (by decide) (by decide) (by rw [List.length_range']; decide)
  have wellFormed : (startShell k).kernel.disk.WellFormed := (run_regular run).wellFormed
  have fits : (k.disk.table rootClusterNumber 1).filesize.toNat ≤ 4 * clusterSize := by
    rw [size]
    decide
  exact ⟨k, run, (copy_line_iff wellFormed file chain (by decide) (by decide)
    (fun i _ name => absurd name (unused i)) room).mpr ⟨fits, visible⟩⟩

/-- A copy of the file `a.t` of 8193 bytes overruns the buffer. -/
theorem copy_line_overruns :
    ∃ k, Run perform Intended Fresh [(.write (zeroFile 8193), 0)] k ∧
      FileAt k.disk.volume rootClusterNumber 1 nameAT.name nameAT.extension ∧
      k.disk.volume.SlotChain rootClusterNumber 1 [3, 4, 5, 6, 7] ∧
      (∀ i, (k.disk.table rootClusterNumber i).name ≠ nameBT.name) ∧
      Room k.disk rootClusterNumber (k.disk.table rootClusterNumber 1).filesize ∧
      ¬ ∀ cbuf, ∃ buf s', commandCallCp (startShell k) (lineOf (cpText nameAT nameBT)) cbuf = some (some buf, s') ∧
        Copies k s'.kernel rootClusterNumber 1 nameBT [3, 4, 5, 6, 7] cbuf buf := by
  have split : List.range' 3 509 = 3 :: [4, 5, 6, 7] ++ List.range' 8 504 := rfl
  obtain ⟨k, run, file, chain, unused, room, size, visible⟩ :=
    run_zeroFile 8193 split (by decide) (by decide) (by rw [List.length_range']; decide)
  have wellFormed : (startShell k).kernel.disk.WellFormed := (run_regular run).wellFormed
  refine ⟨k, run, file, chain, unused, room, fun all => ?_⟩
  have fits : (k.disk.table rootClusterNumber 1).filesize.toNat ≤ 4 * clusterSize :=
    (fits_of_copies wellFormed file (by decide) (by decide) (fun i _ name => absurd name (unused i)) room chain all).1
  rw [size] at fits
  exact absurd fits (by decide)

end Brother420.Shell
