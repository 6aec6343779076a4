import Brother420.Fat32.Names
import Brother420.Shell.Moving

/-! # What is still reached by its name

A file is reached by `read` and a folder by `cd`.  Both look up the first slot of
the name, so an entry that another one joins under the same name may be out of
reach although nothing happened to it.
-/

namespace Brother420.Shell

open Packed (Bytes)
open Fat32 Kernel Volume

variable {k k' : Kernel} {d : Disk} {p q t u c : Nat} {m i j o : Fin 64} {name : Bytes 8} {ext : Bytes 3}
  {size : UInt32}

/-- The entry in slot `i` of directory `t` is still reached under its name, with its content: `read`
    gives a file that it gave before, and `cd` finds a folder, with the entries that it had. -/
structure Reached (k k' : Kernel) (t : Nat) (i : Fin 64) : Prop where
  directory : k'.disk.volume.Directory t
  file : (k.disk.table t i).filesize ≠ 0 → ∀ request : FAT32DriverRequest,
    request.parentClusterNumber.toNat = t → request.name = (k.disk.table t i).name →
    request.ext = (k.disk.table t i).ext → (k.disk.table t i).filesize ≤ request.bufferSize →
    (read k request).1 = 0 → (read k' request).1 = 0 ∧
      ∀ a, a < (k.disk.table t i).filesize.toNat → (read k' request).2.2 a = (read k request).2.2 a
  folder : (k.disk.table t i).filesize = 0 → ∃ j,
    findLive (k'.disk.table t) (k.disk.table t i).name (k.disk.table t i).ext = some j ∧
      (k'.disk.table t j).cluster = (k.disk.table t i).cluster ∧
      ∀ o, o ≠ 0 → k'.disk.table (k.disk.table t i).cluster o = k.disk.table (k.disk.table t i).cluster o

/-- Entry `e'` stands for what entry `e` stood for, and is not hidden from `read` unless `e` was. -/
structure Continues (e e' : FAT32DirectoryEntry) : Prop extends e'.Named e.name e.ext where
  filesize : e'.filesize = e.filesize
  cluster : e'.cluster = e.cluster
  plain : e.attributeByte ≠ 1 → e'.attributeByte ≠ 1

theorem Continues.refl {e : FAT32DirectoryEntry} (live : e.Live) : Continues e e :=
  ⟨⟨live, rfl, rfl⟩, rfl, rfl, id⟩

/-- Free slots have no name. -/
def Tidy (table : FAT32DirectoryTable) : Prop := ∀ x, (table x).name ≠ (fun _ => 0) → (table x).Live

theorem tidy_of_wellFormed (wellFormed : d.WellFormed) (directory : d.volume.Directory t) :
    Tidy (d.table t) :=
  fun _ named => live_of_name wellFormed.volume.toSound directory named rfl

/-! ## Lookups in a table with unique names -/

section Lookup

variable {table : FAT32DirectoryTable} (unique : UniqueIn table) (named : (table j).Named name ext)
include unique named

theorem findLive_unique (entry : j ≠ 0) : findLive table name ext = some j := by
  refine findLive_some.mpr ⟨⟨entry, named.live, named.name, named.ext⟩, ?_⟩
  intro x before _ live sameName sameExt
  exact Fin.ne_of_lt before (unique x j name ext ⟨live, sameName, sameExt⟩ named)

theorem findNameExt_unique (tidy : Tidy table) (nonempty : name ≠ fun _ => 0) :
    findNameExt table name ext = some j := by
  refine findNameExt_some.mpr ⟨⟨named.name, named.ext⟩, ?_⟩
  intro x before sameName sameExt
  -- `read` does not look at the flag, but a free slot has no name to be found by
  have live := tidy x (sameName ▸ nonempty)
  exact Fin.ne_of_lt before (unique x j name ext ⟨live, sameName, sameExt⟩ named)

end Lookup

/-- With unique names an entry is reached that has a slot, as long as its content stays. -/
theorem reached_of_continues (wellFormed : k.disk.WellFormed) (slot : k.disk.volume.Slot t i)
    (named : (k.disk.table t i).name ≠ fun _ => 0) (directory : k'.disk.volume.Directory t)
    (fat : k'.disk.fat = k.disk.fat) (unique : UniqueIn (k'.disk.table t))
    (tidy : Tidy (k'.disk.table t))
    (entry : j ≠ 0) (continues : Continues (k.disk.table t i) (k'.disk.table t j))
    (clusters : (k.disk.table t i).filesize ≠ 0 → ∀ l, k.disk.volume.SlotChain t i l →
      ∀ x ∈ l, k'.disk.cluster x = k.disk.cluster x)
    (table : (k.disk.table t i).filesize = 0 →
      ∀ o, o ≠ 0 → k'.disk.table (k.disk.table t i).cluster o = k.disk.table (k.disk.table t i).cluster o) :
    Reached k k' t i where
  directory := directory
  folder := fun folder => ⟨j, findLive_unique unique continues.toNamed entry, continues.cluster, table folder⟩
  file := by
    intro file request parent isName isExt enough answered
    obtain ⟨l, chain, length, _⟩ := wellFormed.volume.chain slot
    have found : findNameExt (k'.disk.table t) request.name request.ext = some j := by
      rw [isName, isExt]
      exact findNameExt_unique unique continues.toNamed tidy named
    have before := read_slot wellFormed slot file chain named rfl rfl request parent isName isExt enough
    have after := read_elsewhere wellFormed slot file chain fat continues.filesize continues.cluster request parent
      found enough
    -- a file that `read` gave was not hidden, and is not hidden now
    have plain : (k.disk.table t i).attributeByte ≠ 1 := by
      intro hidden
      rw [before.1, if_pos hidden] at answered
      exact absurd answered (by decide)
    have plain' := continues.plain plain
    rw [if_neg plain'] at after
    refine ⟨after.1, fun a within => ?_⟩
    rw [after.2 a, before.2 a, if_neg plain, if_neg plain', fileByte_congr (clusters file l chain)]

theorem reached_of_same (wellFormed : k.disk.WellFormed) (slot : k.disk.volume.Slot t i)
    (named : (k.disk.table t i).name ≠ fun _ => 0) (same : k'.disk = k.disk) :
    Reached k k' t i := by
  have unique : UniqueIn (k.disk.table t) := wellFormed.volume.uniqueNames t slot.directory
  have tidy := tidy_of_wellFormed wellFormed slot.directory
  have continues : Continues (k.disk.table t i) (k.disk.table t i) := .refl slot.live
  refine reached_of_continues (j := i) wellFormed slot named ?_ ?_ ?_ ?_ slot.entry ?_ ?_ ?_ <;> rw [same]
  · exact slot.directory
  · exact unique
  · exact tidy
  · exact continues
  · exact fun _ _ _ _ _ => rfl
  · exact fun _ _ _ => rfl

/-! ## Free slots after a move -/

theorem Tidy.cleared (tidy : Tidy (d.table q)) : Tidy ((clearedDisk d p m).table q) := by
  intro x named
  by_cases here : q = p ∧ x = m
  · obtain ⟨rfl, rfl⟩ := here
    rw [clearedDisk_table, Function.update_self] at named
    exact absurd rfl named
  · rw [clearedDisk_slot (not_and_or.mp here)] at named ⊢
    exact tidy x named

theorem Tidy.inserted (tidy : Tidy (d.table q)) :
    Tidy ((insertedDisk d t name ext size c).table q) := by
  intro x named
  by_cases here : q = t ∧ findFree (d.table t) = some x
  · obtain ⟨rfl, free⟩ := here
    rw [insertedDisk_new free]
    rfl
  · have same : (insertedDisk d t name ext size c).table q x = d.table q x := by
      apply insertedDisk_slot
      intro o free
      by_contra there
      obtain ⟨rfl, rfl⟩ : q = t ∧ x = o := by simpa using there
      exact here ⟨rfl, free⟩
    rw [same] at named ⊢
    exact tidy x named

theorem Tidy.moved (tidy : Tidy (d.table q)) : Tidy ((movedDisk d p m t).table q) :=
  tidy.cleared.inserted

/-! ## Names after a move -/

section Names

variable (wellFormed : d.WellFormed) (slot : d.volume.Slot p m) (directory : d.volume.Directory u)
  (apart : u ≠ (d.table p m).cluster → Apart d.volume p m u)
include wellFormed slot directory apart

/-- A move keeps names unique unless another table with room for the entry has its name. -/
theorem movedDisk_uniqueNames_iff :
    (movedDisk d p m u).volume.UniqueNames ↔
      (u ≠ (d.table p m).cluster → u ≠ p → HasFree (d.table u) →
        Lacks (d.table u) (d.table p m).name (d.table p m).ext) := by
  have unique := wellFormed.volume.uniqueNames
  rcases moved_or_dropped wellFormed slot directory apart with ⟨⟨notOwn, room⟩, o, moved, far⟩ | ⟨full, dropped⟩
  · rw [moved.uniqueNames_iff unique far]
    constructor
    · intro alone _ other _ j named
      exact other (alone j named).1
    · intro lacks j named
      by_cases here : u = p
      · subst here
        exact ⟨rfl, wellFormed.volume.unique slot.directory named.live slot.live named.name named.ext⟩
      · exact absurd named (lacks notOwn here (room.resolve_left here) j)
  · refine iff_of_true (dropped.uniqueNames wellFormed.volume.toSound unique) ?_
    intro notOwn _ free
    exact absurd ⟨notOwn, .inr free⟩ full

/-- Directories that are reached without the entry are still there. -/
theorem movedDisk_directory (far : Apart d.volume p m t) :
    (movedDisk d p m u).volume.Directory t := by
  obtain ⟨l, route, outside⟩ := far
  rcases moved_or_dropped wellFormed slot directory apart with ⟨_, o, moved, _⟩ | ⟨_, dropped⟩
  · exact moved.route_kept route outside
  · exact dropped.route_kept route outside

/-- Other entries in use are as they were. -/
theorem movedDisk_live (entry : d.volume.Slot t i) (other : t ≠ p ∨ i ≠ m)
    (far : Apart d.volume p m t) :
    (movedDisk d p m u).table t i = d.table t i := by
  rcases moved_or_dropped wellFormed slot directory apart with ⟨_, o, moved, _⟩ | ⟨_, dropped⟩
  · exact moved.kept entry.live other
  · exact dropped.others t i entry.directory far.ne other

end Names

section Reached

variable (wellFormed : k.disk.WellFormed) (slot : k.disk.volume.Slot p m)
  (directory : k.disk.volume.Directory u) (kernel : k'.disk = movedDisk k.disk p m u)
  (unique : k'.disk.volume.UniqueNames)
include wellFormed slot directory kernel unique

/-- Another entry is still reached after a move that keeps names unique, unless it is one of the two directories. -/
theorem reached_of_moved (apart : u ≠ (k.disk.table p m).cluster → Apart k.disk.volume p m u)
    (entry : k.disk.volume.Slot t i) (named : (k.disk.table t i).name ≠ fun _ => 0)
    (other : t ≠ p ∨ i ≠ m)
    (far : Apart k.disk.volume p m t)
    (folder : (k.disk.table t i).filesize = 0 → (k.disk.table t i).cluster ≠ p ∧ (k.disk.table t i).cluster ≠ u) :
    Reached k k' t i := by
  have sound := wellFormed.volume.toSound
  have here := movedDisk_directory wellFormed slot directory apart far
  have same := movedDisk_live wellFormed slot directory apart entry other far
  have source := (sound.directory_range slot.directory).1
  have target := (sound.directory_range directory).1
  have tidy : Tidy (k'.disk.table t) := by
    rw [kernel]
    exact (tidy_of_wellFormed wellFormed entry.directory).moved
  have continues : Continues (k.disk.table t i) (k'.disk.table t i) := by
    rw [kernel, same]
    exact .refl entry.live
  refine reached_of_continues (j := i) wellFormed entry named (kernel ▸ here) ?_ (unique t (kernel ▸ here)) tidy
    entry.entry continues ?_ ?_
  · rw [kernel, movedDisk_fat (by omega) (by omega)]
  · intro file l chain x member
    -- the move only stores the two tables, and a file's clusters hold neither
    have notDirectory := sound.file_not_directory entry file chain member
    rw [kernel]
    apply movedDisk_cluster
    · rintro rfl
      exact notDirectory slot.directory
    · rintro rfl
      exact notDirectory directory
  · intro isFolder o _
    obtain ⟨notSource, notTarget⟩ := folder isFolder
    rw [kernel, Disk.table_congr (movedDisk_cluster notSource notTarget)]

end Reached

/-- An entry that is moved within its directory is still reached there. -/
theorem reached_of_moved_within (wellFormed : k.disk.WellFormed) (slot : k.disk.volume.Slot p m)
    (named : (k.disk.table p m).name ≠ fun _ => 0) (kernel : k'.disk = movedDisk k.disk p m p)
    (unique : k'.disk.volume.UniqueNames) : Reached k k' p m := by
  have sound := wellFormed.volume.toSound
  have source := (sound.directory_range slot.directory).1
  have apart := sound.apart_self slot
  have here := movedDisk_directory wellFormed slot slot.directory (fun _ => apart) apart
  have tidy : Tidy (k'.disk.table p) := by
    rw [kernel]
    exact (tidy_of_wellFormed wellFormed slot.directory).moved
  have room : ∃ o, findFree ((clearedDisk k.disk p m).table p) = some o := by
    apply hasFree_iff.mp
    -- the slot that was cleared is free
    refine ⟨m, slot.entry, ?_⟩
    rw [clearedDisk_table, Function.update_self]
    exact cleared_not_live _
  obtain ⟨o, free⟩ := room
  have moved := moved_of_free wellFormed slot slot.directory free
  have continues : Continues (k.disk.table p m) (k'.disk.table p o) := by
    rw [kernel]
    refine ⟨⟨moved.live, moved.name, moved.ext⟩, moved.filesize, moved.cluster, fun _ => ?_⟩
    rw [movedDisk, insertedDisk_new free]
    exact show (0 : UInt8) ≠ 1 by decide
  refine reached_of_continues (j := o) wellFormed slot named (kernel ▸ here) ?_ (unique p (kernel ▸ here)) tidy
    moved.entry continues ?_ ?_
  · rw [kernel, movedDisk_fat (by omega) (by omega)]
  · intro file l chain x member
    have notSource : x ≠ p := by
      rintro rfl
      exact sound.file_not_directory slot file chain member slot.directory
    rw [kernel, movedDisk_cluster notSource notSource]
  · intro _ o _
    have notSource : (k.disk.table p m).cluster ≠ p := sound.slot_cluster_ne slot
    rw [kernel, Disk.table_congr (movedDisk_cluster notSource notSource)]

/-! ## Names after an entry that nothing was moved for -/

/-- Without an entry to move, `mv` puts a folder of its name at the cluster that a variable happens to hold. -/
theorem entered_of_free (directory : d.volume.Directory t) (free : findFree (d.table t) = some o) :
    Entered d.volume (insertedDisk d t name ext 0 c).volume t o name ext (c % 2 ^ 16) := by
  obtain ⟨⟨entry, vacant⟩, _⟩ := findFree_some.mp free
  have new : (insertedDisk d t name ext 0 c).table t o = filled (d.table t o) name ext 0 c :=
    insertedDisk_new free
  refine ⟨directory, entry, vacant, ⟨?_, ?_, ?_⟩, ?_, ?_, fun q j other => ?_⟩
  rotate_right
  · apply insertedDisk_slot
    intro o' free'
    rwa [← Option.some.inj (free.symm.trans free')]
  all_goals rw [Disk.volume_table, new]
  · rfl
  · rfl
  · rfl
  · rfl
  · exact FAT32DirectoryEntry.cluster_of_low rfl rfl

theorem insertedDisk_uniqueNames_iff (wellFormed : d.WellFormed)
    (directory : d.volume.Directory t) :
    (insertedDisk d t name ext 0 c).volume.UniqueNames ↔
      (HasFree (d.table t) →
        Lacks (d.table t) name ext ∧ ∀ q, d.volume.Under (c % 2 ^ 16) q → UniqueIn (d.table q)) := by
  cases free : findFree (d.table t) with
  | some o =>
    have room : HasFree (d.table t) := hasFree_iff.mpr ⟨o, free⟩
    rw [(entered_of_free directory free).uniqueNames_iff wellFormed.volume.uniqueNames]
    exact ⟨fun holds _ => holds, fun holds => holds room⟩
  | none =>
    rw [insertedDisk_none free]
    exact iff_of_true wellFormed.volume.uniqueNames fun room => absurd room (not_hasFree_iff.mpr free)

theorem reached_of_inserted (wellFormed : k.disk.WellFormed) (directory : k.disk.volume.Directory u)
    (kernel : k'.disk = insertedDisk k.disk u name ext 0 c) (unique : k'.disk.volume.UniqueNames)
    (entry : k.disk.volume.Slot t i) (named : (k.disk.table t i).name ≠ fun _ => 0)
    (folder : (k.disk.table t i).filesize = 0 → (k.disk.table t i).cluster ≠ u) :
    Reached k k' t i := by
  have sound := wellFormed.volume.toSound
  have target := (sound.directory_range directory).1
  have here : k'.disk.volume.Directory t := by
    rw [kernel]
    cases free : findFree (k.disk.table u) with
    | some o => exact (entered_of_free directory free).directory_kept entry.directory
    | none => exact (insertedDisk_none free).symm ▸ entry.directory
  have tidy : Tidy (k'.disk.table t) := by
    rw [kernel]
    exact (tidy_of_wellFormed wellFormed entry.directory).inserted
  have continues : Continues (k.disk.table t i) (k'.disk.table t i) := by
    -- slot `i` is in use, so it is not the free slot that was filled
    have same : k'.disk.table t i = k.disk.table t i := by
      rw [kernel]
      apply insertedDisk_slot
      intro o free
      by_contra there
      obtain ⟨rfl, rfl⟩ : t = u ∧ i = o := by simpa using there
      exact (findFree_some.mp free).1.2 entry.live
    rw [same]
    exact .refl entry.live
  refine reached_of_continues (j := i) wellFormed entry named here ?_ (unique t here) tidy entry.entry continues ?_ ?_
  · rw [kernel, insertedDisk_fat (by omega)]
  · intro file l chain x member
    have notDirectory := sound.file_not_directory entry file chain member
    rw [kernel]
    apply insertedDisk_cluster
    rintro rfl
    exact notDirectory directory
  · intro isFolder o _
    rw [kernel, Disk.table_congr (insertedDisk_cluster (folder isFolder))]

end Brother420.Shell
