import Brother420.Fat32.Erasing
import Brother420.Fat32.Indices

/-! # Undoing a write

A write enters its entry in a slot that held zeros and on clusters whose
allocation entries were zeros.  The delete of that entry clears the slot and the
allocation entries, which restores both tables byte for byte.
-/

namespace Brother420

open Packed (Bytes Layout)
open Fat32

namespace Disk

variable {d d' : Disk} {c : Nat}

/-- The bytes of a cluster are determined by the table that they hold. -/
theorem cluster_of_table (same : d'.table c = d.table c) : d'.cluster c = d.cluster c :=
  FAT32DirectoryTable.layout.symm.injective same

theorem cluster_of_fat (same : d'.fat = d.fat) : d'.cluster fatClusterNumber = d.cluster fatClusterNumber := by
  apply FAT32FileAllocationTable.layout.symm.injective
  funext i
  have entry : d'.fat i.val = d.fat i.val := congrFun same i.val
  simpa [fat, FAT32FileAllocationTable.at, fatTable] using entry

end Disk

namespace Fat32

open Kernel Volume

variable {k k₁ k₂ : Kernel} {request back : FAT32DriverRequest} {p : Nat} {s : Fin 64} {e : FAT32DirectoryEntry}
  {l : List Nat}

/-- The delete request for what a write request creates. -/
structure Undoes (back request : FAT32DriverRequest) : Prop where
  parent : back.parentClusterNumber = request.parentClusterNumber
  name : back.name = request.name
  ext : back.ext = request.ext
  folder : back.bufferSize = 0 ↔ request.bufferSize = 0

/-- The allocation table and the table of directory `p` hold the same bytes again. -/
structure Restored (p : Nat) (d d' : Disk) : Prop where
  fat : d'.cluster fatClusterNumber = d.cluster fatClusterNumber
  table : d'.cluster p = d.cluster p

/-- Removing the entry that a write added, with all of its clusters. -/
theorem Written.restored (written : Written request p s e l k k₁) (sound : k.disk.Sound)
    (deleted : Deleted p s l k₁ k₂) (freed : ∀ c ∈ l, k₂.disk.fat c = 0) : Restored p k.disk k₂.disk where
  fat := by
    apply Disk.cluster_of_fat
    funext c
    by_cases member : c ∈ l
    · exact (freed c member).trans (written.added.fresh c member).symm
    · exact (deleted.removed.fatFrame c member).trans (written.added.fatFrame c member)
  table := by
    apply Disk.cluster_of_table
    have entered : k₁.disk.table p = Function.update (k.disk.table p) s e := written.added.tableParent
    have cleared : k₂.disk.table p = Function.update (k₁.disk.table p) s .zero := deleted.removed.tableParent
    have empty : k.disk.table p s = .zero := sound.volume.free written.added.parent written.added.vacant
    rw [cleared, entered, Function.update_idem, ← empty, Function.update_eq_self]

section Written

variable (written : Written request p s e l k k₁) (sound : k.disk.Sound)
include written sound

theorem Written.slot : k₁.disk.volume.Slot p s ∧ k₁.disk.volume.SlotChain p s l := by
  refine ⟨(written.added.slot_iff sound.volume).mpr (.inr ⟨rfl, rfl⟩), ?_⟩
  unfold Volume.SlotChain
  rw [written.added.table_new]
  exact written.added.chain

omit sound in
/-- The new entry is the first with its name: the write made sure that no other slot has it. -/
theorem Written.other_names {j : Fin 64} (other : j ≠ s) (name : (k₁.disk.table p j).name = request.name) :
    request.bufferSize ≠ 0 ∧ (k₁.disk.table p j).ext ≠ request.ext := by
  have entered : k₁.disk.table p = Function.update (k.disk.table p) s e := written.added.tableParent
  rw [entered, Function.update_of_ne other] at name ⊢
  constructor
  · intro folder
    exact written.newName ⟨j, name, fun file => absurd folder file⟩
  · intro ext
    exact written.newName ⟨j, name, fun _ => ext⟩

/-- The folder path removes the new folder, which holds no entry yet. -/
theorem undo_folder (parent : request.parentClusterNumber.toNat = p) (undoes : Undoes back request)
    (folder : request.bufferSize = 0) (notRoot : request.name ≠ rootName) :
    ∃ k₂, delete k₁ back = some (0, k₂) ∧ Restored p k.disk k₂.disk := by
  obtain ⟨slot, chain⟩ := written.slot sound
  have entry : k₁.disk.table p s = e := written.added.table_new
  have found : findName (k₁.disk.table p) back.name = some s := by
    rw [undoes.name]
    refine findName_some.mpr ⟨entry ▸ written.name, ?_⟩
    intro j before name
    exact (written.other_names (Fin.ne_of_lt before) name).1 folder
  have isFolder : e.filesize = 0 := written.filesize.trans folder
  rcases delete_folder_spec (written.sound sound) (undoes.parent ▸ parent) (undoes.folder.mpr folder) found slot
    chain with ⟨_, _, _, busy | root⟩ | ⟨k₂, answer, deleted, _, fat⟩
  · obtain ⟨i, other, live⟩ := occupied_iff.mp busy
    rw [entry] at live
    rw [← Disk.volume_table, (written.added.folder isFolder).2.2 i other] at live
    exact absurd live FAT32DirectoryEntry.not_live_zero
  · exact absurd (undoes.name.symm.trans root) notRoot
  · refine ⟨k₂, answer, written.restored sound deleted ?_⟩
    have edge : k₁.disk.volume.Edge p s (k₁.disk.table p s).cluster :=
      ⟨slot, (congrArg (·.filesize) entry).trans isFolder, rfl⟩
    obtain rfl := chain.unique ((written.sound sound).volume.folder_chain edge).1
    intro c member
    rw [fat, List.mem_singleton.mp member, Function.update_self]

/-- The file path removes the new file with its whole chain. -/
theorem undo_file (parent : request.parentClusterNumber.toNat = p) (undoes : Undoes back request)
    (file : request.bufferSize ≠ 0) : ∃ k₂, delete k₁ back = some (0, k₂) ∧ Restored p k.disk k₂.disk := by
  obtain ⟨slot, chain⟩ := written.slot sound
  have entry : k₁.disk.table p s = e := written.added.table_new
  have ext : e.ext = request.ext := by
    rw [written.ext, if_neg file]
  have found : findNameExt (k₁.disk.table p) back.name back.ext = some s := by
    rw [undoes.name, undoes.ext]
    refine findNameExt_some.mpr ⟨⟨entry ▸ written.name, entry ▸ ext⟩, ?_⟩
    intro j before name
    exact (written.other_names (Fin.ne_of_lt before) name).2
  obtain ⟨k₂, answer, deleted, freed⟩ := delete_file_spec (written.sound sound) (undoes.parent ▸ parent)
    (mt undoes.folder.mp file) found slot chain
  exact ⟨k₂, answer, written.restored sound deleted freed⟩

end Written

/-- On a well-formed disk the delete of what a write created restores the allocation table and the table of
    the parent. -/
theorem delete_undoes_write (wellFormed : k.disk.WellFormed) (directory : k.disk.volume.Directory p)
    (parent : request.parentClusterNumber.toNat = p) (room : Room k.disk p request.bufferSize)
    (notRoot : request.bufferSize = 0 → request.name ≠ rootName) (wrote : write k request = some (0, k₁))
    (undoes : Undoes back request) : ∃ k₂, delete k₁ back = some (0, k₂) ∧ Restored p k.disk k₂.disk := by
  have sound := wellFormed.sound
  have new : ¬ Taken (k.disk.table p) request := by
    intro taken
    have refused := write_refused sound directory parent room taken
    rw [wrote] at refused
    exact absurd (Prod.mk.inj (Option.some.inj refused)).1 (by decide)
  obtain ⟨k', s, e, l, answer, written⟩ := write_accepted sound directory parent room new
  obtain ⟨_, rfl⟩ := Prod.mk.inj (Option.some.inj (wrote.symm.trans answer))
  by_cases folder : request.bufferSize = 0
  · exact undo_folder written sound parent undoes folder (notRoot folder)
  · exact undo_file written sound parent undoes folder

/-- The file `x.t` is created on a new volume and deleted. -/
theorem delete_undoes_write_file :
    ∃ k₁ k₂, write zeroKernel fileX = some (0, k₁) ∧ delete k₁ fileX = some (0, k₂) ∧
      Restored rootClusterNumber zeroKernel.disk k₂.disk := by
  have regular := fresh_zeroKernel.regular
  have room : Room zeroKernel.disk rootClusterNumber fileX.bufferSize := room_zeroKernel (by decide)
  have new : ¬ Taken (zeroKernel.disk.table rootClusterNumber) fileX :=
    fresh_zeroKernel.root ▸ not_taken_freshRoot (by decide) (by decide)
  have undoes : Undoes fileX fileX := ⟨rfl, rfl, rfl, Iff.rfl⟩
  obtain ⟨k₁, _, _, _, wrote, _⟩ := write_accepted regular.sound .root rfl room new
  obtain ⟨k₂, answer, restored⟩ := delete_undoes_write regular.wellFormed .root rfl room
    (fun folder => absurd folder (by decide)) wrote undoes
  exact ⟨k₁, k₂, wrote, answer, restored⟩

end Fat32

end Brother420
