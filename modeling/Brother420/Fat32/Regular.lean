import Brother420.Fat32.Effects

/-! # Regular volumes

The lookups of the driver do not test whether a slot is in use, and `read` turns
away entries whose attribute is 1.  A regular volume is well formed and has no
entry that a free slot would shadow or that `read` would turn away.
-/

namespace Brother420

open Packed (Bytes Layout)

namespace Fat32

open Kernel Volume

namespace Volume

structure Regular (v : Volume) : Prop extends v.WellFormed where
  named : ∀ {p i}, v.Slot p i →
    (v.table p i).name ≠ (fun _ => 0) ∨ ((v.table p i).filesize ≠ 0 ∧ (v.table p i).ext ≠ fun _ => 0)
  plain : ∀ {p i}, v.Slot p i → (v.table p i).attributeByte ≠ 1

variable {v v' : Volume} {p : Nat} {i s : Fin 64} {e : FAT32DirectoryEntry} {l : List Nat}

/-! ## Lookups find the entry they are meant for -/

theorem Regular.findNameExt_slot (regular : v.Regular) (slot : v.Slot p i) :
    findNameExt (v.table p) (v.table p i).name (v.table p i).ext = some i := by
  refine findNameExt_some.mpr ⟨⟨rfl, rfl⟩, ?_⟩
  intro j before name ext
  by_cases live : (v.table p j).Live
  · have same := regular.unique slot.directory live slot.live name ext
    omega
  · rw [regular.free slot.directory live] at name ext
    -- a free slot is all zeros, so it would match only an entry without a name
    rcases regular.named slot with named | ⟨_, extended⟩
    · exact named name.symm
    · exact extended ext.symm

theorem Regular.findName_folder (regular : v.Regular) (slot : v.Slot p i)
    (folder : (v.table p i).filesize = 0)
    (only : ∀ j, (v.table p j).Live → (v.table p j).name = (v.table p i).name → j = i) :
    findName (v.table p) (v.table p i).name = some i := by
  refine findName_some.mpr ⟨rfl, ?_⟩
  intro j before name
  by_cases live : (v.table p j).Live
  · have same := only j live name
    omega
  · rw [regular.free slot.directory live] at name
    rcases regular.named slot with named | ⟨file, _⟩
    · exact named name.symm
    · exact file folder

/-! ## Adding and removing entries -/

theorem Added.regular (added : Added v v' p s e l) (regular : v.Regular)
    (newName : ∀ i, (v.table p i).Live → (v.table p i).name = e.name → (v.table p i).ext ≠ e.ext)
    (named : e.name ≠ (fun _ => 0) ∨ (e.filesize ≠ 0 ∧ e.ext ≠ fun _ => 0))
    (plain : e.attributeByte ≠ 1) :
    v'.Regular where
  toWellFormed := added.wellFormed regular.toWellFormed newName
  named := by
    intro q i slot
    rcases (added.slot_iff regular.toSound).mp slot with old | ⟨rfl, rfl⟩
    · rw [added.table_eq old.directory old.live]
      exact regular.named old
    · rw [added.table_new]
      exact named
  plain := by
    intro q i slot
    rcases (added.slot_iff regular.toSound).mp slot with old | ⟨rfl, rfl⟩
    · rw [added.table_eq old.directory old.live]
      exact regular.plain old
    · rw [added.table_new]
      exact plain

theorem Removed.regular (removed : Removed v v' p s l) (regular : v.Regular)
    (freed : ∀ c ∈ l, v'.fat c = 0)
    (empty : (v.table p s).filesize = 0 → ∀ i, i ≠ 0 → ¬ (v.table (v.table p s).cluster i).Live) :
    v'.Regular where
  toWellFormed := removed.wellFormed regular.toWellFormed freed empty
  named := by
    intro q i slot
    obtain ⟨old, other⟩ := removed.slot_old slot
    rw [removed.table_eq old.directory other]
    exact regular.named old
  plain := by
    intro q i slot
    obtain ⟨old, other⟩ := removed.slot_old slot
    rw [removed.table_eq old.directory other]
    exact regular.plain old

end Volume

end Fat32

namespace Disk

open Fat32

/-- The disk holds a regular file system. -/
structure Regular (d : Disk) : Prop where
  boot : d.bootSector = fsSignature
  volume : d.volume.Regular

theorem Regular.wellFormed {d : Disk} (regular : d.Regular) : d.WellFormed :=
  ⟨regular.boot, regular.volume.toWellFormed⟩

theorem Regular.sound {d : Disk} (regular : d.Regular) : d.Sound := regular.wellFormed.sound

end Disk

namespace Fat32

variable {k k' : Kernel} {request : FAT32DriverRequest} {p : Nat} {s : Fin 64} {e : FAT32DirectoryEntry} {l : List Nat}

/-- A write that was not refused used a name that no slot, free or not, has. -/
theorem Written.regular (written : Written request p s e l k k') (regular : k.disk.Regular) :
    k'.disk.Regular where
  boot := written.boot.trans regular.boot
  volume := by
    apply written.added.regular regular.volume
    · intro i _ name ext
      refine written.newName ⟨i, name.trans written.name, fun file => ?_⟩
      rw [written.ext, if_neg file] at ext
      exact ext
    · rw [written.name, written.filesize, written.ext]
      have vacant := regular.volume.free written.added.parent written.added.vacant
      -- an entry without a name would have been taken for the free slot it goes to
      by_contra unnamed
      obtain ⟨name, rest⟩ := not_or.mp unnamed
      refine written.newName ⟨s, (congrArg (·.name) vacant).trans (not_not.mp name).symm, fun file => ?_⟩
      have ext := not_not.mp fun extended => rest ⟨file, extended⟩
      rw [if_neg file] at ext
      exact (congrArg (·.ext) vacant).trans ext.symm
    · rw [written.plain]
      decide

/-- A delete that freed the whole chain of a file, or of an empty folder. -/
theorem Deleted.regular (deleted : Deleted p s l k k') (regular : k.disk.Regular)
    (freed : ∀ c ∈ l, k'.disk.fat c = 0)
    (empty : (k.disk.table p s).filesize = 0 → occupied (k.disk.table (k.disk.table p s).cluster) = false) :
    k'.disk.Regular where
  boot := deleted.boot.trans regular.boot
  volume := by
    apply deleted.removed.regular regular.volume freed
    intro folder i entry live
    have busy := occupied_iff.mpr ⟨i, entry, live⟩
    rw [Disk.volume_table] at busy
    rw [empty folder] at busy
    cases busy

end Fat32

end Brother420
