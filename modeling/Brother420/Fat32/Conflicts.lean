import Brother420.Fat32.FolderRemoval
import Brother420.Fat32.Indices

/-! # Name conflicts between two writes

A write of a folder is turned away when a slot has its name, a write of a file
only when a slot has its name and its extension.  A folder and a file of one name
can therefore be created in one order and not in the other.
-/

namespace Brother420.Fat32

open Packed (Bytes Layout)
open Kernel Volume

variable {k k' : Kernel} {a b request : FAT32DriverRequest} {table : FAT32DirectoryTable} {p : Nat} {s : Fin 64}
  {e : FAT32DirectoryEntry} {l : List Nat}

/-- Both writes are answered with 0 when `a` comes first. -/
def BothSucceed (k : Kernel) (a b : FAT32DriverRequest) : Prop :=
  ∃ k₁ k₂, write k a = some (0, k₁) ∧ write k₁ b = some (0, k₂)

/-- Two slots of the table are free, and there are clusters for both writes and one more. -/
structure RoomForBoth (d : Disk) (p : Nat) (a b : FAT32DriverRequest) : Prop where
  slots : ∃ i j, i ≠ j ∧ ¬ (d.table p i).Live ∧ ¬ (d.table p j).Live
  clusters : needed a.bufferSize + needed b.bufferSize < (freeList d.fatTable).length

/-- The write of `b` takes the entry that `a` creates for one of its own name. -/
def Clashes (a b : FAT32DriverRequest) : Prop :=
  a.name = b.name ∧ (b.bufferSize ≠ 0 → (if a.bufferSize = 0 then fun _ => 0 else a.ext) = b.ext)

theorem RoomForBoth.symm {d : Disk} (room : RoomForBoth d p a b) : RoomForBoth d p b a :=
  ⟨room.slots, Nat.add_comm _ _ ▸ room.clusters⟩

/-- With room, a write succeeds exactly if its name is not taken. -/
theorem write_succeeds_iff (sound : k.disk.Sound) (directory : k.disk.volume.Directory p)
    (parent : request.parentClusterNumber.toNat = p) (room : Room k.disk p request.bufferSize) :
    (∃ k', write k request = some (0, k')) ↔ ¬ Taken (k.disk.table p) request := by
  constructor
  · rintro ⟨k', answer⟩ taken
    rw [write_refused sound directory parent room taken] at answer
    exact absurd (Prod.mk.inj (Option.some.inj answer)).1 (by decide)
  · intro new
    obtain ⟨k', _, _, _, wrote, _⟩ := write_accepted sound directory parent room new
    exact ⟨k', wrote⟩

section First

variable (sound : k.disk.Sound) (room : RoomForBoth k.disk p a b) (written : Written a p s e l k k')
include sound room written

/-- The first write leaves a free slot. -/
theorem Written.other_vacant : ∃ j, j ≠ s ∧ k.disk.table p j = .zero ∧ ¬ (k'.disk.table p j).Live := by
  have table : k'.disk.table p = Function.update (k.disk.table p) s e := written.added.tableParent
  have kept (j : Fin 64) (other : j ≠ s) (vacant : ¬ (k.disk.table p j).Live) :
      ∃ j, j ≠ s ∧ k.disk.table p j = .zero ∧ ¬ (k'.disk.table p j).Live := by
    refine ⟨j, other, sound.volume.free written.added.parent vacant, ?_⟩
    rw [table, Function.update_of_ne other]
    exact vacant
  obtain ⟨i, j, different, vacant, vacant'⟩ := room.slots
  by_cases here : i = s
  · exact kept j (fun same => different (here.trans same.symm)) vacant'
  · exact kept i here vacant

theorem Written.room_left : Room k'.disk p b.bufferSize where
  slot := by
    obtain ⟨j, _, _, vacant⟩ := written.other_vacant sound room
    exact ⟨j, vacant⟩
  clusters := by
    obtain ⟨rest, free⟩ := written.free
    have enough := room.clusters
    have length : l.length = needed a.bufferSize := by
      rw [written.added.length, clusters_eq_needed, written.filesize]
    rw [free, List.length_append, length] at enough
    rw [written.freeList sound free]
    omega

/-- Then a name is taken if it was before, or by the entry that was created. -/
theorem Written.taken_iff : Taken (k'.disk.table p) b ↔ Taken (k.disk.table p) b ∨ Clashes a b := by
  have table : k'.disk.table p = Function.update (k.disk.table p) s e := written.added.tableParent
  rw [table]
  constructor
  · rintro ⟨i, name, ext⟩
    by_cases here : i = s
    · rw [here, Function.update_self] at name ext
      rw [written.name] at name
      rw [written.ext] at ext
      exact .inr ⟨name, ext⟩
    · rw [Function.update_of_ne here] at name ext
      exact .inl ⟨i, name, ext⟩
  · rintro (⟨i, name, ext⟩ | ⟨name, ext⟩)
    · by_cases here : i = s
      -- a free slot has the name, and another slot is still free
      · obtain ⟨j, other, empty, _⟩ := written.other_vacant sound room
        have vacant : k.disk.table p s = .zero := sound.volume.free written.added.parent written.added.vacant
        rw [here, vacant] at name ext
        refine ⟨j, ?_, fun file => ?_⟩ <;> rw [Function.update_of_ne other, empty]
        · exact name
        · exact ext file
      · refine ⟨i, ?_, fun file => ?_⟩ <;> rw [Function.update_of_ne here]
        · exact name
        · exact ext file
    · refine ⟨s, ?_, fun file => ?_⟩ <;> rw [Function.update_self]
      · rw [written.name, name]
      · rw [written.ext]
        exact ext file

end First

theorem both_succeed_iff (sound : k.disk.Sound) (directory : k.disk.volume.Directory p)
    (parentA : a.parentClusterNumber.toNat = p) (parentB : b.parentClusterNumber.toNat = p)
    (room : RoomForBoth k.disk p a b) :
    BothSucceed k a b ↔ ¬ Taken (k.disk.table p) a ∧ ¬ Taken (k.disk.table p) b ∧ ¬ Clashes a b := by
  have roomA : Room k.disk p a.bufferSize := by
    obtain ⟨i, _, _, vacant, _⟩ := room.slots
    have enough := room.clusters
    exact ⟨⟨i, vacant⟩, by omega⟩
  by_cases taken : Taken (k.disk.table p) a
  · refine iff_of_false ?_ fun all => all.1 taken
    rintro ⟨k₁, _, wrote, _⟩
    exact (write_succeeds_iff sound directory parentA roomA).mp ⟨k₁, wrote⟩ taken
  · obtain ⟨k₁, s, e, l, wrote, written⟩ := write_accepted sound directory parentA roomA taken
    have directory₁ := (written.added.directory_iff sound.volume).mpr (.inl directory)
    have second := write_succeeds_iff (written.sound sound) directory₁ parentB (written.room_left sound room)
    rw [written.taken_iff sound room, not_or] at second
    rw [← second]
    constructor
    · rintro ⟨k', k₂, wrote', wrote₂⟩
      obtain ⟨_, rfl⟩ := Prod.mk.inj (Option.some.inj (wrote.symm.trans wrote'))
      exact ⟨taken, k₂, wrote₂⟩
    · rintro ⟨_, k₂, wrote₂⟩
      exact ⟨k₁, k₂, wrote, wrote₂⟩

/-- A folder and a file with an extension have the same name, which no slot has. -/
structure FolderAndFile (table : FAT32DirectoryTable) (a b : FAT32DriverRequest) : Prop where
  folder : a.bufferSize = 0
  file : b.bufferSize ≠ 0
  name : a.name = b.name
  ext : b.ext ≠ fun _ => 0
  new : ∀ i, (table i).name ≠ a.name

/-- The file clashes with no folder of its name, the folder with the file. -/
theorem clashes_folder_file (folder : a.bufferSize = 0) (file : b.bufferSize ≠ 0) (newA : ¬ Taken table a) :
    (Clashes a b ↔ Clashes b a) ↔ ¬ FolderAndFile table a b := by
  simp only [Clashes, folder, file, ne_eq, not_true_eq_false, not_false_eq_true, ↓reduceIte, false_imp_iff,
    forall_true_left, and_true]
  constructor
  · rintro symmetric ⟨_, _, name, ext, _⟩
    exact ext (symmetric.mpr name.symm).2.symm
  · intro none
    constructor
    · rintro ⟨name, _⟩
      exact name.symm
    · intro name
      refine ⟨name.symm, ?_⟩
      by_contra ext
      refine none ⟨folder, file, name.symm, fun zero => ext zero.symm, fun i same => newA ⟨i, same, ?_⟩⟩
      exact fun sized => absurd folder sized

/-- On a well-formed disk with room for both, the order of two writes does not matter unless one of them
    creates a folder and the other a file with an extension under the same new name. -/
theorem order_independent_iff (wellFormed : k.disk.WellFormed) (directory : k.disk.volume.Directory p)
    (parentA : a.parentClusterNumber.toNat = p) (parentB : b.parentClusterNumber.toNat = p)
    (room : RoomForBoth k.disk p a b) :
    (BothSucceed k a b ↔ BothSucceed k b a) ↔
      ¬ FolderAndFile (k.disk.table p) a b ∧ ¬ FolderAndFile (k.disk.table p) b a := by
  have sound := wellFormed.sound
  rw [both_succeed_iff sound directory parentA parentB room, both_succeed_iff sound directory parentB parentA room.symm]
  -- a taken name turns its write away in both orders, and it is no new name
  have notNew {a b : FAT32DriverRequest} (taken : Taken (k.disk.table p) a ∨ Taken (k.disk.table p) b) :
      ¬ FolderAndFile (k.disk.table p) a b := by
    rintro ⟨_, _, name, _, new⟩
    rcases taken with ⟨i, same, _⟩ | ⟨i, same, _⟩
    · exact new i same
    · exact new i (same.trans name.symm)
  by_cases takenA : Taken (k.disk.table p) a
  · exact iff_of_true (iff_of_false (fun all => all.1 takenA) fun all => all.2.1 takenA)
      ⟨notNew (.inl takenA), notNew (.inr takenA)⟩
  · by_cases takenB : Taken (k.disk.table p) b
    · exact iff_of_true (iff_of_false (fun all => all.2.1 takenB) fun all => all.1 takenB)
        ⟨notNew (.inr takenB), notNew (.inl takenB)⟩
    · simp only [takenA, takenB, not_false_eq_true, true_and, not_iff_not]
      by_cases folderA : a.bufferSize = 0 <;> by_cases folderB : b.bufferSize = 0
      · refine iff_of_true ?_ ⟨fun both => both.file folderB, fun both => both.file folderA⟩
        simp only [Clashes, folderA, folderB, ne_eq, not_true_eq_false, false_imp_iff, and_true, eq_comm]
      · rw [clashes_folder_file folderA folderB takenA]
        exact ⟨fun none => ⟨none, fun both => folderB both.folder⟩, fun none => none.1⟩
      · rw [@Iff.comm (Clashes a b), clashes_folder_file folderB folderA takenB]
        exact ⟨fun none => ⟨fun both => folderA both.folder, none⟩, fun none => none.2⟩
      · refine iff_of_true ?_ ⟨fun both => folderA both.folder, fun both => folderB both.folder⟩
        simp only [Clashes, folderA, folderB, ne_eq, not_false_eq_true, ↓reduceIte, forall_true_left, eq_comm]

theorem roomForBoth_zeroKernel (few : needed a.bufferSize + needed b.bufferSize < 509) :
    RoomForBoth zeroKernel.disk rootClusterNumber a b where
  slots := by
    refine ⟨1, 2, by decide, ?_, ?_⟩ <;> rw [fresh_zeroKernel.root, freshRoot_other (by decide)] <;>
      exact FAT32DirectoryEntry.not_live_zero
  clusters := by rwa [length_freeList_zeroKernel]

/-- The folder `a` and the file `x.t` can be created in both orders. -/
theorem order_independent_iff_names : BothSucceed zeroKernel folderA fileX ↔ BothSucceed zeroKernel fileX folderA := by
  refine (order_independent_iff fresh_zeroKernel.regular.wellFormed .root rfl rfl
    (roomForBoth_zeroKernel (by decide))).mpr ⟨fun both => ?_, fun both => ?_⟩
  · exact absurd both.name (by decide)
  · exact absurd both.name (by decide)

/-- The folder `a` and the file `a.t` can be created in this order, and not in the other. -/
theorem order_dependent :
    zeroKernel.disk.WellFormed ∧ folderA.parentClusterNumber.toNat = rootClusterNumber ∧
      fileA.parentClusterNumber.toNat = rootClusterNumber ∧
      RoomForBoth zeroKernel.disk rootClusterNumber folderA fileA ∧
      BothSucceed zeroKernel folderA fileA ∧ ¬ BothSucceed zeroKernel fileA folderA := by
  have regular := fresh_zeroKernel.regular
  have parentA : folderA.parentClusterNumber.toNat = rootClusterNumber := rfl
  have parentB : fileA.parentClusterNumber.toNat = rootClusterNumber := rfl
  have room : RoomForBoth zeroKernel.disk rootClusterNumber folderA fileA := roomForBoth_zeroKernel (by decide)
  have new {request : FAT32DriverRequest} (notRoot : request.name ≠ rootName) (named : request.name ≠ fun _ => 0) :
      ¬ Taken (zeroKernel.disk.table rootClusterNumber) request :=
    fresh_zeroKernel.root ▸ not_taken_freshRoot notRoot named
  refine ⟨regular.wellFormed, parentA, parentB, room, ?_, ?_⟩
  · refine (both_succeed_iff regular.sound .root parentA parentB room).mpr
      ⟨new (by decide) (by decide), new (by decide) (by decide), ?_⟩
    rintro ⟨_, ext⟩
    exact absurd (ext (by decide)) (by decide)
  · intro both
    refine ((both_succeed_iff regular.sound .root parentB parentA room.symm).mp both).2.2 ⟨rfl, ?_⟩
    exact fun file => absurd rfl file

end Brother420.Fat32
