import Brother420.Fat32.Files
import Brother420.Fat32.Interrupted

/-! # Lost clusters

Behind an interrupted write some clusters are allocated and belong to no entry.
Such a volume is a regular one but for them, and the driver serves it as well:
it only has less room.
-/

namespace Brother420

open Packed (Bytes)
open Linked (Chain)
open Fat32

namespace Fat32

open Kernel Volume

namespace Volume

variable {u v v' : Volume} {p q c : Nat} {i j s : Fin 64} {e : FAT32DirectoryEntry} {l : List Nat}

/-- A sound volume with unique names. -/
structure Distinct (v : Volume) : Prop extends v.Sound where
  unique : ∀ {p i j}, v.Directory p → (v.table p i).Live → (v.table p j).Live →
    (v.table p i).name = (v.table p j).name → (v.table p i).ext = (v.table p j).ext → i = j

theorem WellFormed.distinct (wellFormed : v.WellFormed) : v.Distinct := ⟨wellFormed.toSound, wellFormed.unique⟩

namespace Leaked

protected theorem refl : Leaked v v := ⟨fun _ _ => rfl, fun _ _ => rfl⟩

variable (leaked : Leaked v v')
include leaked

theorem slot_iff : v'.Slot q j ↔ v.Slot q j := by
  constructor
  · exact leaked.slot_old
  · intro slot
    refine ⟨leaked.directory_iff.mpr slot.directory, slot.entry, ?_⟩
    rw [leaked.tables q slot.directory]
    exact slot.live

theorem trans {v'' : Volume} (later : Leaked v' v'') : Leaked v v'' where
  tables q directory := (later.tables q (leaked.directory_iff.mpr directory)).trans (leaked.tables q directory)
  fat c used := by
    have same := leaked.fat c used
    rw [later.fat c (same ▸ used), same]

theorem chain_kept (sound : v.Sound) (slot : v.Slot q j) (chain : v.SlotChain q j l) : v'.SlotChain q j l :=
  leaked.preserves.chain sound slot.directory slot.live chain

/-- What is free is free without the lost clusters too. -/
theorem free_old (free : v'.fat c = 0) : v.fat c = 0 := by
  by_contra used
  exact used ((leaked.fat c used).symm.trans free)

end Leaked

/-- The volume is regular but for lost clusters. -/
def Lossy (v : Volume) : Prop := ∃ u : Volume, u.Regular ∧ Leaked u v

theorem Regular.lossy (regular : v.Regular) : v.Lossy := ⟨v, regular, .refl⟩

namespace Lossy

variable (lossy : v.Lossy)
include lossy

theorem leaked (leaked : Leaked v v') : v'.Lossy := by
  obtain ⟨u, regular, before⟩ := lossy
  exact ⟨u, regular, before.trans leaked⟩

theorem distinct : v.Distinct := by
  obtain ⟨u, regular, leaked⟩ := lossy
  refine ⟨leaked.sound regular.toSound, fun {p i j} directory live live' name ext => ?_⟩
  have old := leaked.directory_iff.mp directory
  rw [leaked.tables p old] at live live' name ext
  exact regular.unique old live live' name ext

protected theorem sound : v.Sound := lossy.distinct.toSound

theorem findNameExt_slot (slot : v.Slot p i) :
    findNameExt (v.table p) (v.table p i).name (v.table p i).ext = some i := by
  obtain ⟨u, regular, leaked⟩ := lossy
  have old := leaked.slot_iff.mp slot
  rw [leaked.tables p old.directory]
  exact regular.findNameExt_slot old

theorem findName_folder (slot : v.Slot p i) (folder : (v.table p i).filesize = 0)
    (only : ∀ j, (v.table p j).Live → (v.table p j).name = (v.table p i).name → j = i) :
    findName (v.table p) (v.table p i).name = some i := by
  obtain ⟨u, regular, leaked⟩ := lossy
  have old := leaked.slot_iff.mp slot
  rw [leaked.tables p old.directory] at folder only ⊢
  exact regular.findName_folder old folder only

theorem plain (slot : v.Slot p i) : (v.table p i).attributeByte ≠ 1 := by
  obtain ⟨u, regular, leaked⟩ := lossy
  have old := leaked.slot_iff.mp slot
  rw [leaked.tables p old.directory]
  exact regular.plain old

end Lossy

/-! ## Adding and removing entries -/

/-- The volume without the allocation entries of clusters that are free in `u`, but for those of `l`. -/
def without (v u : Volume) (l : List Nat) : Volume :=
  ⟨fun c => if u.fat c = 0 ∧ c ∉ l then 0 else v.fat c, v.table⟩

theorem leaked_without : Leaked (v.without u l) v where
  tables _ _ := rfl
  fat c used := by
    simp only [without] at used ⊢
    split at used
    · exact absurd rfl used
    · rename_i kept
      rw [if_neg kept]

theorem Added.without (added : Added v v' p s e l) (leaked : Leaked u v) : Added u (v'.without u l) p s e l where
  parent := leaked.directory_iff.mp added.parent
  vacant := by
    rw [← leaked.tables p (leaked.directory_iff.mp added.parent)]
    exact added.vacant
  live := added.live
  tableParent := by
    rw [← leaked.tables p (leaked.directory_iff.mp added.parent)]
    exact added.tableParent
  tableFrame q directory other :=
    (added.tableFrame q (leaked.directory_iff.mpr directory) other).trans (leaked.tables q directory)
  fresh c member := leaked.free_old (added.fresh c member)
  inside := added.inside
  fatFrame c outside := by
    simp only [Volume.without]
    by_cases free : u.fat c = 0
    · rw [if_pos ⟨free, outside⟩, free]
    · rw [if_neg fun both => free both.1, added.fatFrame c outside, leaked.fat c free]
  chain := added.chain.congr fun c member => next_congr (if_neg fun both => both.2 member)
  length := added.length
  folder := added.folder

theorem Removed.without (removed : Removed v v' p s l) (sound : u.Sound) (leaked : Leaked u v) :
    Removed u (v'.without u []) p s l where
  slot := leaked.slot_iff.mp removed.slot
  chain := leaked.chain_back sound (leaked.slot_iff.mp removed.slot) removed.chain
  tableParent := by
    rw [← leaked.tables p (leaked.directory_iff.mp removed.slot.directory)]
    exact removed.tableParent
  tableFrame q directory other :=
    (removed.tableFrame q (leaked.directory_iff.mpr directory) other).trans (leaked.tables q directory)
  fatFrame c outside := by
    simp only [Volume.without]
    by_cases free : u.fat c = 0
    · rw [if_pos ⟨free, List.not_mem_nil⟩, free]
    · rw [if_neg fun both => free both.1, removed.fatFrame c outside, leaked.fat c free]

theorem Added.lossy (added : Added v v' p s e l) (lossy : v.Lossy)
    (newName : ∀ i, (v.table p i).Live → (v.table p i).name = e.name → (v.table p i).ext ≠ e.ext)
    (named : e.name ≠ (fun _ => 0) ∨ (e.filesize ≠ 0 ∧ e.ext ≠ fun _ => 0)) (plain : e.attributeByte ≠ 1) :
    v'.Lossy := by
  obtain ⟨u, regular, leaked⟩ := lossy
  rw [leaked.tables p (leaked.directory_iff.mp added.parent)] at newName
  exact ⟨_, (added.without leaked).regular regular newName named plain, leaked_without⟩

theorem Removed.lossy (removed : Removed v v' p s l) (lossy : v.Lossy) (freed : ∀ c ∈ l, v'.fat c = 0)
    (empty : (v.table p s).filesize = 0 → ∀ i, i ≠ 0 → ¬ (v.table (v.table p s).cluster i).Live) : v'.Lossy := by
  obtain ⟨u, regular, leaked⟩ := lossy
  have old := leaked.slot_iff.mp removed.slot
  refine ⟨_, (removed.without regular.toSound leaked).regular regular (fun c member => ?_) ?_, leaked_without⟩
  · simp [Volume.without, freed c member]
  · rw [← leaked.tables p old.directory]
    intro folder
    rw [leaked.tables p old.directory] at folder ⊢
    have inner : u.Directory (u.table p s).cluster := .child old.directory old.entry old.live folder
    have none := empty (by rw [leaked.tables p old.directory]; exact folder)
    rw [leaked.tables p old.directory, leaked.tables _ inner] at none
    exact none

end Volume

end Fat32

namespace Disk

open Fat32

/-- The disk holds a file system that is regular but for lost clusters. -/
structure Lossy (d : Disk) : Prop where
  boot : d.bootSector = fsSignature
  volume : d.volume.Lossy

variable {d : Disk}

theorem Regular.lossy (regular : d.Regular) : d.Lossy := ⟨regular.boot, regular.volume.lossy⟩

protected theorem Lossy.sound (lossy : d.Lossy) : d.Sound := ⟨lossy.boot, lossy.volume.sound⟩

end Disk

namespace Fat32

open Kernel Volume

variable {k k' : Kernel} {request : FAT32DriverRequest} {d d' : Disk} {p : Nat} {s : Fin 64} {e : FAT32DirectoryEntry}
  {l : List Nat}

/-! ## Requests -/

theorem Differs.lossy (differs : Differs l d d') (lossy : d.Lossy) (inside : ∀ c ∈ l, 3 ≤ c ∧ c < 512)
    (free : ∀ c ∈ l, d.fat c = 0) : d'.Lossy where
  boot := by
    rw [← lossy.boot]
    refine Disk.bootSector_congr (differs.frame 0 (by decide) fun member => ?_)
    have bounds := inside 0 member
    omega
  volume := lossy.volume.leaked (differs.leaked lossy.sound free)

theorem Written.lossy (written : Written request p s e l k k') (lossy : k.disk.Lossy) : k'.disk.Lossy where
  boot := written.boot.trans lossy.boot
  volume := by
    apply written.added.lossy lossy.volume
    · intro i _ name ext
      refine written.newName ⟨i, name.trans written.name, fun file => ?_⟩
      rw [written.ext, if_neg file] at ext
      exact ext
    · rw [written.name, written.filesize, written.ext]
      have vacant := lossy.volume.sound.free written.added.parent written.added.vacant
      by_contra unnamed
      obtain ⟨name, rest⟩ := not_or.mp unnamed
      refine written.newName ⟨s, (congrArg (·.name) vacant).trans (not_not.mp name).symm, fun file => ?_⟩
      have ext := not_not.mp fun extended => rest ⟨file, extended⟩
      rw [if_neg file] at ext
      exact (congrArg (·.ext) vacant).trans ext.symm
    · rw [written.plain]
      decide

/-- An erased folder was empty. -/
theorem Erased.inside (erased : Erased request p s l k k') (folder : (k.disk.table p s).filesize = 0) :
    ∀ i, i ≠ 0 → ¬ (k.disk.table (k.disk.table p s).cluster i).Live := by
  intro i entry live
  have busy := occupied_iff.mpr ⟨i, entry, live⟩
  rw [erased.empty folder] at busy
  cases busy

theorem Erased.lossy (erased : Erased request p s l k k') (lossy : k.disk.Lossy) : k'.disk.Lossy where
  boot := erased.boot.trans lossy.boot
  volume := by
    have inside := erased.inside
    exact erased.removed.lossy lossy.volume erased.freed inside

/-- An aimed delete does nothing, or removes a whole entry. -/
theorem delete_lossy (lossy : k.disk.Lossy) (directory : k.disk.volume.Directory p)
    (parent : request.parentClusterNumber.toNat = p) (aimed : Aimed k.disk p request) :
    (∃ code, code ≠ 0 ∧ delete k request = some (code, k.load p)) ∨
      ∃ k' s l, delete k request = some (0, k') ∧ Erased request p s l k k' := by
  have sound := lossy.sound
  have inside := (sound.volume.directory_range directory).2
  unfold Aimed at aimed
  by_cases folder : request.bufferSize = 0
  · rw [if_pos folder] at aimed
    obtain ⟨s, target⟩ := aimed
    have found := lossy.volume.findName_folder target.toSlot target.folder (by rw [target.name]; exact target.only)
    rw [target.name] at found
    have chain := (sound.volume.folder_chain ⟨target.toSlot, target.folder, rfl⟩).1
    rcases delete_folder_spec sound parent folder found target.toSlot chain with
      ⟨code, failed, answer, _⟩ | ⟨k', answer, deleted, empty, fat⟩
    · exact .inl ⟨code, failed, answer⟩
    · refine .inr ⟨k', s, _, answer, deleted, fun c member => ?_, fun _ => empty, target.name,
        fun file => absurd folder file, iff_of_true target.folder folder⟩
      obtain rfl := List.mem_singleton.mp member
      exact (congrFun fat _).trans (Function.update_self _ _ _)
  · rw [if_neg folder] at aimed
    rcases aimed with ⟨s, target⟩ | absent
    · have found := lossy.volume.findNameExt_slot target.toSlot
      rw [target.name, target.ext] at found
      obtain ⟨l, chain, _⟩ := sound.volume.chain target.toSlot
      obtain ⟨k', answer, deleted, freed⟩ := delete_file_spec sound parent folder found target.toSlot chain
      exact .inr ⟨k', s, l, answer, deleted, freed, fun size => absurd size target.file, target.name,
        fun _ => target.ext, iff_of_false target.file folder⟩
    · exact .inl ⟨1, by decide, delete_absent parent inside folder (findNameExt_none.mpr absent)⟩

/-- A file is read into the first clusters of the buffer, and the rest of the buffer is kept. -/
theorem read_lossy {data : List UInt8} (lossy : k.disk.Lossy) (holds : Holds k.disk request.key data)
    (enough : data.length ≤ request.bufferSize.toNat) :
    (read k request).1 = 0 ∧ (List.range data.length).map (read k request).2.2 = data ∧
      ∀ a, 2048 * ((data.length + 2047) / 2048) ≤ a → (read k request).2.2 a = request.buf a := by
  have sound := lossy.volume.sound
  obtain ⟨i, l, target, chain, rfl⟩ := holds
  rw [fileBytes_length] at enough ⊢
  have found := lossy.volume.findNameExt_slot target.toSlot
  rw [target.name, target.ext] at found
  have range : ∀ c ∈ l, c < 512 := fun c member => (sound.range target.toSlot chain member).2
  have length : l.length = totalCluster (k.disk.table request.key.1 i).filesize := by
    rw [sound.length target.toSlot chain, clusters_eq_needed, needed, if_neg target.file]
    rfl
  obtain ⟨code, copied⟩ := read_found rfl (sound.directory_range target.directory).2 found chain range length
    (UInt32.le_iff_toNat_le.mpr enough) (lossy.volume.plain target.toSlot)
  rw [length, totalCluster_eq] at copied
  refine ⟨code, List.map_congr_left fun a inside => ?_, fun a behind => ?_⟩
  · have bound := List.mem_range.mp inside
    rw [copied a, if_pos (by omega)]
  · rw [copied a, if_neg (by omega)]

end Fat32

end Brother420
