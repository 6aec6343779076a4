import Brother420.Fat32.Trees
import Brother420.Shell.UniqueNames

/-! # Orderly volumes

The driver leaves the members of an entry that it does not use at zero, gives no
folder an extension, and names the self entry of a folder as the folder.  `mv`
relies on all three: it clears an entry member by member, and finds its way back
from the directory above by the name in the self entry.  The commands keep an
orderly volume orderly, when names stay unique.
-/

namespace Brother420

open Packed (Bytes)
open Linked (Chain)

namespace Shell

open Fat32 Kernel Volume

variable {v v' : Volume} {d d' : Disk} {p q t c x : Nat} {i j m o : Fin 64} {l : List Nat} {name : Bytes 8}
  {ext : Bytes 3}

/-! ## Entries at other places -/

/-- The entry under another name; a cleared one is as empty as before. -/
structure Kept (e e' : FAT32DirectoryEntry) : Prop where
  filesize : e'.filesize = e.filesize
  cluster : e'.cluster = e.cluster
  plain : e.attributeByte ≠ 1 → e'.attributeByte ≠ 1
  clean : cleared e = .zero → cleared e' = .zero

theorem Kept.refl (e : FAT32DirectoryEntry) : Kept e e := ⟨rfl, rfl, id, id⟩

/-- The same entries in the same directories, at other places or under other names. -/
structure Rearranged (v v' : Volume) : Prop where
  fat : v'.fat = v.fat
  directory : ∀ q, v'.Directory q ↔ v.Directory q
  back : ∀ {q i}, v'.Slot q i → ∃ p j, v.Slot p j ∧ Kept (v.table p j) (v'.table q i)
  forth : ∀ {p j}, v.Slot p j → ∃ q i, v'.Slot q i ∧ Kept (v.table p j) (v'.table q i)
  single : ∀ {q i r j}, v'.Slot q i → v'.Slot r j → (v'.table q i).cluster = (v'.table r j).cluster → q = r ∧ i = j
  self : ∀ {q}, v.Directory q → (v'.table q 0).Live ∧ (v'.table q 0).cluster = q
  free : ∀ {q i}, v.Directory q → ¬ (v'.table q i).Live → v'.table q i = .zero

namespace Rearranged

variable (rearranged : Rearranged v v')
include rearranged

theorem chain_iff {e e' : FAT32DirectoryEntry} (kept : Kept e e') :
    Chain v'.next e'.cluster l ↔ Chain v.next e.cluster l := by
  have next : v'.next = v.next := by
    funext x
    exact next_congr (congrFun rearranged.fat x)
  rw [next, kept.cluster]

protected theorem sound (sound : v.Sound) : v'.Sound where
  reserved0 := rearranged.fat ▸ sound.reserved0
  reserved1 := rearranged.fat ▸ sound.reserved1
  root := rearranged.fat ▸ sound.root
  self := fun directory => rearranged.self ((rearranged.directory _).mp directory)
  free := fun directory => rearranged.free ((rearranged.directory _).mp directory)
  chain := by
    intro q i slot
    obtain ⟨p, j, old, kept⟩ := rearranged.back slot
    obtain ⟨l, chain, length, range⟩ := sound.chain old
    refine ⟨l, (rearranged.chain_iff kept).mpr chain, ?_, range⟩
    rw [length, FAT32DirectoryEntry.clusters, FAT32DirectoryEntry.clusters, kept.filesize]
  disjoint := by
    intro q i r j l l' c slot slot' chain chain' member member'
    obtain ⟨p, m, old, kept⟩ := rearranged.back slot
    obtain ⟨p', m', old', kept'⟩ := rearranged.back slot'
    -- entries that share a cluster were one entry, which has one place now
    obtain ⟨rfl, rfl⟩ := sound.disjoint old old' ((rearranged.chain_iff kept).mp chain)
      ((rearranged.chain_iff kept').mp chain') member member'
    exact rearranged.single slot slot' (kept.cluster.trans kept'.cluster.symm)

protected theorem wellFormed (wellFormed : v.WellFormed) (unique : v'.UniqueNames) : v'.WellFormed where
  toSound := rearranged.sound wellFormed.toSound
  rootless := (rearranged.sound wellFormed.toSound).edge_ne_root
  tree := (rearranged.sound wellFormed.toSound).edge_unique
  unique := fun directory live live' name ext => unique _ directory _ _ _ _ ⟨live, name, ext⟩ ⟨live', rfl, rfl⟩
  noLeak := by
    intro c lower upper used
    rw [rearranged.fat] at used
    rcases wellFormed.noLeak lower upper used with root | ⟨p, j, l, slot, chain, member⟩
    · exact .inl root
    · obtain ⟨q, i, new, kept⟩ := rearranged.forth slot
      exact .inr ⟨q, i, l, new, (rearranged.chain_iff kept).mpr chain, member⟩

end Rearranged

/-- The clusters of files are the same. -/
def SameFiles (d d' : Disk) : Prop :=
  ∀ {p i l}, d.volume.Slot p i → (d.table p i).filesize ≠ 0 → d.volume.SlotChain p i l →
    ∀ c ∈ l, d'.cluster c = d.cluster c

/-- What the entries hold is not touched when they are rearranged. -/
theorem Rearranged.content_iff {node : Node} (rearranged : Rearranged d.volume d'.volume) (same : SameFiles d d') :
    Content d' x node ↔ Content d x node := by
  constructor
  · intro content
    cases content with
    | folder directory => exact .folder ((rearranged.directory x).mp directory)
    | @file q i l slot file chain =>
      obtain ⟨p, j, old, kept⟩ := rearranged.back slot
      have size : (d'.table q i).filesize = (d.table p j).filesize := kept.filesize
      have start : (d'.table q i).cluster = (d.table p j).cluster := kept.cluster
      have chainOld : d.volume.SlotChain p j l := (rearranged.chain_iff kept).mp chain
      rw [size] at file ⊢
      rw [start, fileBytes_congr (same old file chainOld)]
      exact .file old file chainOld
  · intro content
    cases content with
    | folder directory => exact .folder ((rearranged.directory x).mpr directory)
    | @file p j l slot file chain =>
      obtain ⟨q, i, new, kept⟩ := rearranged.forth slot
      have size : (d'.table q i).filesize = (d.table p j).filesize := kept.filesize
      have start : (d'.table q i).cluster = (d.table p j).cluster := kept.cluster
      rw [← fileBytes_congr (same slot file chain), ← start, ← size]
      exact .file new (size ▸ file) ((rearranged.chain_iff kept).mpr chain)

/-! ## The invariant -/

structure Orderly (d : Disk) : Prop where
  regular : d.Regular
  bare : BareFolders d
  clean : ∀ {p i}, d.volume.Slot p i → cleared (d.table p i) = .zero
  own : ∀ {p i c}, d.volume.Edge p i c → (d.table c 0).entryName = (d.table p i).entryName
  root : (d.table rootClusterNumber 0).entryName = (rootName, noExt)

/-- The name has a byte, or it is a file that has one in its extension. -/
def Sayable (e : FAT32DirectoryEntry) : Prop :=
  e.name ≠ (fun _ => 0) ∨ (e.filesize ≠ 0 ∧ e.ext ≠ fun _ => 0)

theorem Orderly.of_rearranged (rearranged : Rearranged d.volume d'.volume) (orderly : Orderly d)
    (boot : d'.bootSector = d.bootSector) (unique : d'.volume.UniqueNames)
    (sayable : ∀ q i, d'.volume.Slot q i → Sayable (d'.table q i)) (bare : BareFolders d')
    (own : ∀ {q i c}, d'.volume.Edge q i c → (d'.table c 0).entryName = (d'.table q i).entryName)
    (root : (d'.table rootClusterNumber 0).entryName = (rootName, noExt)) : Orderly d' where
  regular := {
    boot := boot.trans orderly.regular.boot
    volume := {
      toWellFormed := rearranged.wellFormed orderly.regular.volume.toWellFormed unique
      named := fun slot => sayable _ _ slot
      plain := fun slot => by
        obtain ⟨p, j, old, kept⟩ := rearranged.back slot
        exact kept.plain (orderly.regular.volume.plain old) } }
  bare := bare
  clean := fun slot => by
    obtain ⟨p, j, old, kept⟩ := rearranged.back slot
    exact kept.clean (orderly.clean old)
  own := own
  root := root

/-! ## The driver -/

section Driver

variable {k k' : Kernel} {request : FAT32DriverRequest} {s : Fin 64}

theorem cleared_newEntry : cleared (newEntry request c) = .zero := by
  unfold newEntry
  split <;> rfl

/-- An accepted write enters a new entry, and a folder of that name where it is one. -/
theorem write_enters (sound : k.disk.Sound) (directory : k.disk.volume.Directory p)
    (parent : request.parentClusterNumber.toNat = p) (room : Room k.disk p request.bufferSize)
    (new : ¬ Taken (k.disk.table p) request) :
    ∃ k' s c l, write k request = some (0, k') ∧ Written request p s (newEntry request c) (c :: l) k k' ∧ c < 512 ∧
      (request.bufferSize = 0 → k'.disk.table c = initDirectoryTable (fun _ => .zero) request.name c) := by
  obtain ⟨k₁, s, e, l, wrote, written⟩ := write_accepted sound directory parent room new
  obtain ⟨rest, free⟩ := written.free
  obtain ⟨t, rfl⟩ := written.added.chain.head_eq
  have inside := written.added.inside _ List.mem_cons_self
  generalize e.cluster = c at free inside written
  have count : (c :: t).length = needed request.bufferSize := by
    rw [written.added.length, clusters_eq_needed, written.filesize]
  obtain ⟨k', wrote', written'⟩ := write_adds sound directory parent new free count written.first
  exact ⟨k', s, c, t, wrote', written', inside, fun folder =>
    write_newTable sound directory parent folder new free written.first wrote'⟩

theorem Orderly.write {l : List Nat} (orderly : Orderly k.disk)
    (written : Written request p s (newEntry request c) (c :: l) k k') (inside : c < 512)
    (newTable : request.bufferSize = 0 → k'.disk.table c = initDirectoryTable (fun _ => .zero) request.name c) :
    Orderly k'.disk := by
  have added := written.added
  have sound := orderly.regular.sound.volume
  have cases_ {q : Nat} {i : Fin 64} (slot : k'.disk.volume.Slot q i) :
      (k.disk.volume.Slot q i ∧ k'.disk.table q i = k.disk.table q i) ∨
        (q = p ∧ i = s ∧ k'.disk.table q i = newEntry request c) := by
    rcases (added.slot_iff sound).mp slot with old | ⟨rfl, rfl⟩
    · exact .inl ⟨old, added.table_eq old.directory old.live⟩
    · exact .inr ⟨rfl, rfl, added.table_new⟩
  constructor
  case regular => exact written.regular orderly.regular
  case bare =>
    intro q i slot folder
    rcases cases_ slot with ⟨old, same⟩ | ⟨_, _, new⟩
    · rw [same] at folder ⊢
      exact orderly.bare q i old folder
    · rw [new, written.filesize] at folder
      rw [new, written.ext, if_pos folder]
  case clean =>
    intro q i slot
    rcases cases_ slot with ⟨old, same⟩ | ⟨_, _, new⟩
    · exact same ▸ orderly.clean old
    · exact new ▸ cleared_newEntry
  case own =>
    intro q i x edge
    have cluster : (k'.disk.table q i).cluster = x := edge.cluster
    have folder : (k'.disk.table q i).filesize = 0 := edge.folder
    rcases cases_ edge.toSlot with ⟨old, same⟩ | ⟨_, _, new⟩
    · rw [same] at cluster folder ⊢
      have edge' : k.disk.volume.Edge q i x := ⟨old, folder, cluster⟩
      have self := added.table_eq edge'.directory_child (sound.self edge'.directory_child).1
      rw [Disk.volume_table, Disk.volume_table] at self
      rw [self]
      exact orderly.own edge'
    · rw [new] at cluster folder ⊢
      rw [cluster_newEntry inside] at cluster
      rw [filesize_newEntry] at folder
      rw [← cluster, newTable folder, newEntry, if_pos folder]
  case root =>
    have self : k'.disk.table rootClusterNumber 0 = k.disk.table rootClusterNumber 0 :=
      added.table_eq .root (sound.self .root).1
    rw [self]
    exact orderly.root

theorem Orderly.delete {l : List Nat} (orderly : Orderly k.disk) (erased : Erased request p s l k k') :
    Orderly k'.disk := by
  have removed := erased.removed
  have sound := orderly.regular.sound.volume
  have old {q : Nat} {i : Fin 64} (slot : k'.disk.volume.Slot q i) :
      k.disk.volume.Slot q i ∧ k'.disk.table q i = k.disk.table q i := by
    obtain ⟨old, other⟩ := removed.slot_old slot
    exact ⟨old, removed.table_eq old.directory other⟩
  have self {q : Nat} (directory : k.disk.volume.Directory q) : k'.disk.table q 0 = k.disk.table q 0 :=
    removed.table_eq directory (.inr (Ne.symm removed.slot.entry))
  constructor
  case regular => exact erased.regular orderly.regular erased.freed erased.empty
  case bare =>
    intro q i slot folder
    obtain ⟨before, same⟩ := old slot
    rw [same] at folder ⊢
    exact orderly.bare q i before folder
  case clean =>
    intro q i slot
    obtain ⟨before, same⟩ := old slot
    exact same ▸ orderly.clean before
  case own =>
    intro q i x edge
    have cluster : (k'.disk.table q i).cluster = x := edge.cluster
    have folder : (k'.disk.table q i).filesize = 0 := edge.folder
    obtain ⟨before, same⟩ := old edge.toSlot
    rw [same] at cluster folder ⊢
    have edge' : k.disk.volume.Edge q i x := ⟨before, folder, cluster⟩
    rw [self edge'.directory_child]
    exact orderly.own edge'
  case root =>
    rw [self .root]
    exact orderly.root

end Driver

/-! ## A new name -/

section Rename

variable (wellFormed : d.WellFormed) (slot : d.volume.Slot p m)
include wellFormed slot

variable (name ext) in
/-- The two slots that are renamed, and all the others. -/
theorem renamedDisk_cases (q : Nat) (i : Fin 64) :
    (q = p ∧ i = m ∧ (renamedDisk d p m name ext).table q i = renamed (d.table q i) name ext) ∨
      (q = (d.table p m).cluster ∧ i = 0 ∧ (renamedDisk d p m name ext).table q i = renamed (d.table q i) name ext) ∨
      ((q ≠ p ∨ i ≠ m) ∧ (q ≠ (d.table p m).cluster ∨ i ≠ 0) ∧
        (renamedDisk d p m name ext).table q i = d.table q i) := by
  have apart : (d.table p m).cluster ≠ p := wellFormed.volume.slot_cluster_ne slot
  by_cases source : q = p ∧ i = m
  · obtain ⟨rfl, rfl⟩ := source
    exact .inl ⟨rfl, rfl, renamedDisk_source apart⟩
  · by_cases self : q = (d.table p m).cluster ∧ i = 0
    · obtain ⟨rfl, rfl⟩ := self
      refine .inr (.inl ⟨rfl, rfl, ?_⟩)
      rw [renamedDisk_self, Function.update_self]
    · have source := not_and_or.mp source
      have self := not_and_or.mp self
      exact .inr (.inr ⟨source, self, renamedDisk_slot apart source self⟩)

variable (name ext) in
theorem renamedDisk_kept (q : Nat) (i : Fin 64) :
    Kept (d.table q i) ((renamedDisk d p m name ext).table q i) ∧
      (((renamedDisk d p m name ext).table q i).Live ↔ (d.table q i).Live) := by
  rcases renamedDisk_cases name ext wellFormed slot q i with ⟨_, _, new⟩ | ⟨_, _, new⟩ | ⟨_, _, same⟩
  · rw [new]
    exact ⟨⟨rfl, rfl, id, id⟩, Iff.rfl⟩
  · rw [new]
    exact ⟨⟨rfl, rfl, id, id⟩, Iff.rfl⟩
  · rw [same]
    exact ⟨.refl _, Iff.rfl⟩

theorem renamedDisk_slot_iff : (renamedDisk d p m name ext).volume.Slot q i ↔ d.volume.Slot q i := by
  have live := (renamedDisk_kept name ext wellFormed slot q i).2
  constructor
  · rintro ⟨directory, entry, used⟩
    exact ⟨(renamedDisk_directory wellFormed slot).mp directory, entry, live.mp used⟩
  · rintro ⟨directory, entry, used⟩
    exact ⟨(renamedDisk_directory wellFormed slot).mpr directory, entry, live.mpr used⟩

variable (name ext) in
theorem rearranged_renamed : Rearranged d.volume (renamedDisk d p m name ext).volume where
  fat := by
    have parent := (wellFormed.volume.directory_range slot.directory).1
    have first := (wellFormed.volume.slot_range slot).1
    rw [Disk.volume_table] at first
    exact renamedDisk_fat (by omega) (by omega)
  directory := fun q => renamedDisk_directory wellFormed slot
  back := fun new =>
    ⟨_, _, (renamedDisk_slot_iff wellFormed slot).mp new, (renamedDisk_kept _ _ wellFormed slot _ _).1⟩
  forth := fun old =>
    ⟨_, _, (renamedDisk_slot_iff wellFormed slot).mpr old, (renamedDisk_kept _ _ wellFormed slot _ _).1⟩
  single := by
    intro q i r j first second same
    rw [Disk.volume_table, (renamedDisk_kept _ _ wellFormed slot q i).1.cluster,
      (renamedDisk_kept _ _ wellFormed slot r j).1.cluster] at same
    exact wellFormed.volume.slot_unique ((renamedDisk_slot_iff wellFormed slot).mp second)
      ((renamedDisk_slot_iff wellFormed slot).mp first) same
  self := by
    intro q directory
    obtain ⟨live, cluster⟩ := wellFormed.volume.self directory
    have kept := renamedDisk_kept name ext wellFormed slot q 0
    exact ⟨kept.2.mpr live, kept.1.cluster.trans cluster⟩
  free := by
    intro q i directory vacant
    rw [Disk.volume_table, (renamedDisk_kept _ _ wellFormed slot q i).2] at vacant
    have zero := wellFormed.volume.free directory vacant
    rcases renamedDisk_cases name ext wellFormed slot q i with
      ⟨rfl, rfl, _⟩ | ⟨_, rfl, _⟩ | ⟨_, _, same⟩
    · exact absurd slot.live vacant
    · exact absurd (wellFormed.volume.self directory).1 vacant
    · exact same.trans zero

end Rename

/-- A rename to a name that is free in the directory, and in the folder, keeps the volume orderly. -/
theorem Orderly.rename (orderly : Orderly d) (slot : d.volume.Slot p m)
    (alone : ∀ i, i ≠ m → ¬ (d.table p i).Named name ext)
    (inside : (d.table p m).filesize = 0 → ∀ i, i ≠ 0 → ¬ (d.table (d.table p m).cluster i).Named name ext)
    (bare : (d.table p m).filesize = 0 → ext = noExt) (sayable : Sayable (renamed (d.table p m) name ext)) :
    Orderly (renamedDisk d p m name ext) := by
  have wellFormed := orderly.regular.wellFormed
  have sound := wellFormed.volume.toSound
  have slots {q : Nat} {i : Fin 64} (new : (renamedDisk d p m name ext).volume.Slot q i) :
      d.volume.Slot q i ∧ ((q = p ∧ i = m ∧ (renamedDisk d p m name ext).table q i = renamed (d.table q i) name ext) ∨
        ((q ≠ p ∨ i ≠ m) ∧ (renamedDisk d p m name ext).table q i = d.table q i)) := by
    refine ⟨(renamedDisk_slot_iff wellFormed slot).mp new, ?_⟩
    rcases renamedDisk_cases name ext wellFormed slot q i with here | ⟨_, self, _⟩ | ⟨other, _, same⟩
    · exact .inl here
    · exact absurd self new.entry
    · exact .inr ⟨other, same⟩
  apply Orderly.of_rearranged (rearranged_renamed name ext wellFormed slot) orderly
  case boot =>
    apply Disk.bootSector_congr
    have parent := (sound.directory_range slot.directory).1
    have first := (sound.slot_range slot).1
    rw [Disk.volume_table] at first
    exact renamedDisk_others (by omega) (by omega)
  case unique => exact (renamedDisk_uniqueNames_iff name ext wellFormed slot).mpr ⟨alone, inside⟩
  case sayable =>
    intro q i new
    obtain ⟨old, ⟨rfl, rfl, here⟩ | ⟨_, same⟩⟩ := slots new
    · rw [here]
      exact sayable
    · rw [same]
      exact orderly.regular.volume.named old
  case bare =>
    intro q i new folder
    obtain ⟨old, ⟨rfl, rfl, here⟩ | ⟨_, same⟩⟩ := slots new
    · rw [here] at folder ⊢
      exact bare folder
    · rw [same] at folder ⊢
      exact orderly.bare q i old folder
  case own =>
    intro q i c edge
    have folder : ((renamedDisk d p m name ext).table q i).filesize = 0 := edge.folder
    have cluster : ((renamedDisk d p m name ext).table q i).cluster = c := edge.cluster
    have apart : (d.table p m).cluster ≠ p := sound.slot_cluster_ne slot
    obtain ⟨old, ⟨rfl, rfl, here⟩ | ⟨other, same⟩⟩ := slots edge.toSlot
    · rw [here] at cluster ⊢
      change (d.table q i).cluster = c at cluster
      rw [← cluster, renamedDisk_self, Function.update_self]
      rfl
    · rw [same] at folder cluster ⊢
      have edge' : d.volume.Edge q i c := ⟨old, folder, cluster⟩
      -- another folder has another cluster
      have notSelf : c ≠ (d.table p m).cluster := by
        intro shared
        obtain ⟨rfl, rfl⟩ := sound.slot_unique slot old (cluster.trans shared)
        simp at other
      rw [renamedDisk_slot apart (.inr (Ne.symm slot.entry)) (.inl notSelf)]
      exact orderly.own edge'
  case root =>
    have notSelf : rootClusterNumber ≠ (d.table p m).cluster := by
      intro shared
      have range := sound.slot_range slot
      rw [Disk.volume_table, ← shared] at range
      simp [rootClusterNumber] at range
    rw [renamedDisk_slot (sound.slot_cluster_ne slot) (.inr (Ne.symm slot.entry)) (.inl notSelf)]
    exact orderly.root

/-! ## A new place -/

/-- The entry in slot `m` of directory `p` as it is entered elsewhere. -/
def carried (d : Disk) (p : Nat) (m : Fin 64) : FAT32DirectoryEntry :=
  filled .zero (d.table p m).name (d.table p m).ext (d.table p m).filesize (d.table p m).cluster

section Move

variable (orderly : Orderly d) (slot : d.volume.Slot p m) (target : d.volume.Directory t)
  (free : findFree ((clearedDisk d p m).table t) = some o)
include orderly slot target free

/-- The slot that is filled, the one that is cleared, and all the others. -/
theorem movedDisk_cases (q : Nat) (i : Fin 64) :
    (q = t ∧ i = o ∧ (movedDisk d p m t).table q i = carried d p m) ∨
      (q = p ∧ i = m ∧ (q ≠ t ∨ i ≠ o) ∧ (movedDisk d p m t).table q i = .zero) ∨
      ((q ≠ p ∨ i ≠ m) ∧ (q ≠ t ∨ i ≠ o) ∧ (movedDisk d p m t).table q i = d.table q i) := by
  have moved := moved_of_free orderly.regular.wellFormed slot target free
  have gone : (clearedDisk d p m).table p m = .zero := by
    rw [clearedDisk_table, Function.update_self, orderly.clean slot]
  by_cases there : q = t ∧ i = o
  · obtain ⟨rfl, rfl⟩ := there
    refine .inl ⟨rfl, rfl, ?_⟩
    have vacant : (clearedDisk d p m).table q i = .zero := by
      by_cases source : q = p ∧ i = m
      · obtain ⟨rfl, rfl⟩ := source
        exact gone
      · rw [clearedDisk_slot (not_and_or.mp source)]
        refine orderly.regular.volume.free target fun live => ?_
        exact source (moved.vacant live)
    rw [movedDisk, insertedDisk_new free, vacant]
    rfl
  · have notThere := not_and_or.mp there
    by_cases source : q = p ∧ i = m
    · obtain ⟨rfl, rfl⟩ := source
      refine .inr (.inl ⟨rfl, rfl, notThere, ?_⟩)
      rw [movedDisk, insertedDisk_slot, gone]
      intro o' free'
      obtain rfl := Option.some.inj (free.symm.trans free')
      exact notThere
    · exact .inr (.inr ⟨not_and_or.mp source, notThere, moved.others q i (not_and_or.mp source) notThere⟩)

omit target free in
theorem carried_kept : Kept (d.table p m) (carried d p m) where
  filesize := rfl
  cluster := cluster_filled _ (orderly.regular.volume.slot_range slot).2
  plain := fun _ => show (0 : UInt8) ≠ 1 by decide
  clean := fun _ => rfl

variable (apart : Apart d.volume p m t)
include apart

theorem movedDisk_slots {q : Nat} {i : Fin 64} (new : (movedDisk d p m t).volume.Slot q i) :
    (q = t ∧ i = o ∧ (movedDisk d p m t).table q i = carried d p m) ∨
      (d.volume.Slot q i ∧ (q ≠ p ∨ i ≠ m) ∧ (movedDisk d p m t).table q i = d.table q i) := by
  have moved := moved_of_free orderly.regular.wellFormed slot target free
  obtain ⟨l, route, outside⟩ := apart
  rcases movedDisk_cases orderly slot target free q i with here | ⟨_, _, _, zero⟩ | ⟨other, notThere, same⟩
  · exact .inl here
  · have live : ((movedDisk d p m t).table q i).Live := new.live
    rw [zero] at live
    exact absurd live FAT32DirectoryEntry.not_live_zero
  · rcases (moved.slot_iff route outside).mp new with ⟨old, _⟩ | ⟨rfl, rfl⟩
    · exact .inr ⟨old, other, same⟩
    · simp at notThere

theorem rearranged_moved : Rearranged d.volume (movedDisk d p m t).volume := by
  have moved := moved_of_free orderly.regular.wellFormed slot target free
  have sound := orderly.regular.sound.volume
  have slots {q : Nat} {i : Fin 64} (new : (movedDisk d p m t).volume.Slot q i) :=
    movedDisk_slots orderly slot target free apart new
  have cases_ := movedDisk_cases orderly slot target free
  obtain ⟨l, route, outside⟩ := apart
  have first := carried_kept orderly slot
  constructor
  case fat =>
    have source := (sound.directory_range slot.directory).1
    have above := (sound.directory_range target).1
    exact movedDisk_fat (by omega) (by omega)
  case directory => exact fun q => moved.directory_iff route outside
  case back =>
    intro q i new
    rcases slots new with ⟨rfl, rfl, here⟩ | ⟨old, _, same⟩
    · exact ⟨p, m, slot, by rw [Disk.volume_table, Disk.volume_table, here]; exact first⟩
    · exact ⟨q, i, old, by rw [Disk.volume_table, Disk.volume_table, same]; exact .refl _⟩
  case forth =>
    intro q i old
    by_cases source : q = p ∧ i = m
    · obtain ⟨rfl, rfl⟩ := source
      have new := (moved.slot_iff route outside).mpr (.inr ⟨rfl, rfl⟩)
      rcases slots new with ⟨_, _, here⟩ | ⟨old', other, same⟩
      · exact ⟨t, o, new, by rw [Disk.volume_table, Disk.volume_table, here]; exact first⟩
      · exact absurd (moved.vacant old'.live) (not_and_or.mpr other)
    · have other := not_and_or.mp source
      refine ⟨q, i, (moved.slot_iff route outside).mpr (.inl ⟨old, other⟩), ?_⟩
      rw [moved.kept old.live other]
      exact .refl _
  case single =>
    intro q i r j first second same
    -- the new slot is the only one with its cluster, and two old ones have different ones
    rcases slots first with ⟨rfl, rfl, here⟩ | ⟨old, other, kept⟩
    · have start : ((movedDisk d p m q).volume.table r j).cluster = (d.volume.table p m).cluster :=
        same.symm.trans moved.cluster
      obtain ⟨rfl, rfl⟩ := moved.only route outside sound second start
      exact ⟨rfl, rfl⟩
    · rcases slots second with ⟨rfl, rfl, here⟩ | ⟨old', other', kept'⟩
      · exact moved.only route outside sound first (same.trans moved.cluster)
      · rw [Disk.volume_table, kept, kept'] at same
        exact sound.slot_unique old' old same
  case self =>
    intro q directory
    rcases cases_ q 0 with ⟨_, self, _⟩ | ⟨_, self, _, _⟩ | ⟨_, _, same⟩
    · exact absurd self.symm moved.entry
    · exact absurd self.symm slot.entry
    · rw [Disk.volume_table, same]
      exact sound.self directory
  case free =>
    intro q i directory vacant
    rcases cases_ q i with ⟨_, _, here⟩ | ⟨_, _, _, zero⟩ | ⟨_, _, same⟩
    · rw [Disk.volume_table, here] at vacant
      exact absurd rfl vacant
    · exact zero
    · rw [Disk.volume_table, same] at vacant ⊢
      exact sound.free directory vacant

omit apart in
theorem movedDisk_self (q : Nat) : (movedDisk d p m t).table q 0 = d.table q 0 := by
  have moved := moved_of_free orderly.regular.wellFormed slot target free
  rcases movedDisk_cases orderly slot target free q 0 with ⟨_, self, _⟩ | ⟨_, self, _, _⟩ | ⟨_, _, same⟩
  · exact absurd self.symm moved.entry
  · exact absurd self.symm slot.entry
  · exact same

/-- A move into a directory that lacks the name keeps the volume orderly. -/
theorem Orderly.move (lacks : t ≠ p → Lacks (d.table t) (d.table p m).name (d.table p m).ext) :
    Orderly (movedDisk d p m t) := by
  have wellFormed := orderly.regular.wellFormed
  have sound := wellFormed.volume.toSound
  have self := movedDisk_self orderly slot target free
  have slots {q : Nat} {i : Fin 64} (new : (movedDisk d p m t).volume.Slot q i) :=
    movedDisk_slots orderly slot target free apart new
  have source := (sound.directory_range slot.directory).1
  have above := (sound.directory_range target).1
  apply Orderly.of_rearranged (rearranged_moved orderly slot target free apart) orderly
  case boot =>
    apply Disk.bootSector_congr
    exact movedDisk_cluster (by omega) (by omega)
  case unique =>
    exact (movedDisk_uniqueNames_iff wellFormed slot target fun _ => apart).mpr fun _ other _ => lacks other
  case sayable =>
    intro q i new
    rcases slots new with ⟨rfl, rfl, here⟩ | ⟨old, _, same⟩
    · rw [here]
      exact orderly.regular.volume.named slot
    · rw [same]
      exact orderly.regular.volume.named old
  case bare =>
    intro q i new folder
    rcases slots new with ⟨rfl, rfl, here⟩ | ⟨old, _, same⟩
    · rw [here] at folder ⊢
      exact orderly.bare p m slot folder
    · rw [same] at folder ⊢
      exact orderly.bare q i old folder
  case own =>
    intro q i c edge
    have folder : ((movedDisk d p m t).table q i).filesize = 0 := edge.folder
    have cluster : ((movedDisk d p m t).table q i).cluster = c := edge.cluster
    rw [self]
    rcases slots edge.toSlot with ⟨rfl, rfl, here⟩ | ⟨old, _, same⟩
    · rw [here] at folder cluster ⊢
      rw [(carried_kept orderly slot).cluster] at cluster
      exact orderly.own ⟨slot, folder, cluster⟩
    · rw [same] at folder cluster ⊢
      exact orderly.own ⟨old, folder, cluster⟩
  case root =>
    rw [self]
    exact orderly.root

end Move

end Shell

end Brother420
