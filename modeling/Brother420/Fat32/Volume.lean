import Brother420.Fat32.Types
import Brother420.Library.Chain

/-! # Volumes and their well-formedness

A volume is what the disk says to a reader of the file system: an allocation
table and a directory table for every cluster.  `Sound` collects the structure
that every lookup relies on; it tolerates lost clusters.  `WellFormed` adds that
no cluster is lost and that names are unique.  Both are kept by adding an entry
on fresh clusters and by removing one.
-/

namespace Brother420.Fat32

open Linked (Chain)

/-- The number of clusters that belong to an entry: one for a folder. -/
def FAT32DirectoryEntry.clusters (e : FAT32DirectoryEntry) : Nat :=
  if e.filesize = 0 then 1 else (e.filesize.toNat + 2047) / 2048

structure Volume where
  fat : Nat → UInt32
  table : Nat → FAT32DirectoryTable

/-- What an allocation table entry says about its cluster: the chain ends, or goes on. -/
def fatTarget (value : UInt32) : Option Nat :=
  if value = fat32FatEndOfFile then none else some value.toNat

theorem fatTarget_eq_some {value : UInt32} {c : Nat} :
    fatTarget value = some c ↔ value ≠ fat32FatEndOfFile ∧ value.toNat = c := by
  unfold fatTarget
  split
  · rename_i stop
    simp [stop]
  · rename_i continues
    simp [continues]

namespace Volume

def next (v : Volume) (c : Nat) : Option Nat := fatTarget (v.fat c)

/-- The directories: the root, and every folder entered in a directory. -/
inductive Directory (v : Volume) : Nat → Prop
  | root : Directory v rootClusterNumber
  | child {p : Nat} {i : Fin 64} : Directory v p → i ≠ 0 → (v.table p i).Live → (v.table p i).filesize = 0 →
      Directory v (v.table p i).cluster

/-- Slot `i` of directory `p` holds an entry other than the self entry. -/
structure Slot (v : Volume) (p : Nat) (i : Fin 64) : Prop where
  directory : v.Directory p
  entry : i ≠ 0
  live : (v.table p i).Live

/-- Slot `i` of directory `p` holds the folder at cluster `c`. -/
structure Edge (v : Volume) (p : Nat) (i : Fin 64) (c : Nat) : Prop extends v.Slot p i where
  folder : (v.table p i).filesize = 0
  cluster : (v.table p i).cluster = c

/-- The clusters of the entry in slot `i` of directory `p`, in chain order. -/
abbrev SlotChain (v : Volume) (p : Nat) (i : Fin 64) (l : List Nat) : Prop :=
  Chain v.next (v.table p i).cluster l

structure Sound (v : Volume) : Prop where
  reserved0 : v.fat 0 = cluster0Value
  reserved1 : v.fat 1 = cluster1Value
  root : v.fat rootClusterNumber = fat32FatEndOfFile
  self : ∀ {p}, v.Directory p → (v.table p 0).Live ∧ (v.table p 0).cluster = p
  free : ∀ {p i}, v.Directory p → ¬ (v.table p i).Live → v.table p i = .zero
  chain : ∀ {p i}, v.Slot p i →
    ∃ l, v.SlotChain p i l ∧ l.length = (v.table p i).clusters ∧ ∀ c ∈ l, 3 ≤ c ∧ c < 512
  disjoint : ∀ {p i q j l l' c}, v.Slot p i → v.Slot q j → v.SlotChain p i l → v.SlotChain q j l' →
    c ∈ l → c ∈ l' → p = q ∧ i = j

structure WellFormed (v : Volume) : Prop extends v.Sound where
  rootless : ∀ {p i}, ¬ v.Edge p i rootClusterNumber
  tree : ∀ {p i q j c}, v.Edge p i c → v.Edge q j c → p = q ∧ i = j
  unique : ∀ {p i j}, v.Directory p → (v.table p i).Live → (v.table p j).Live →
    (v.table p i).name = (v.table p j).name → (v.table p i).ext = (v.table p j).ext → i = j
  noLeak : ∀ {c}, rootClusterNumber ≤ c → c < clusterMapSize → v.fat c ≠ 0 →
    c = rootClusterNumber ∨ ∃ p i l, v.Slot p i ∧ v.SlotChain p i l ∧ c ∈ l

variable {v v' : Volume} {p q c : Nat} {i j s : Fin 64} {l l' : List Nat}

theorem next_eq_none : v.next c = none ↔ v.fat c = fat32FatEndOfFile := by
  simp [next, fatTarget]

theorem next_congr (same : v'.fat c = v.fat c) : v'.next c = v.next c := by
  rw [next, next, same]

theorem Edge.directory_child (edge : v.Edge p i c) : v.Directory c := by
  obtain ⟨⟨directory, entry, live⟩, folder, rfl⟩ := edge
  exact .child directory entry live folder

/-- A directory other than the root is entered in another directory. -/
theorem Directory.cases_edge (directory : v.Directory c) :
    c = rootClusterNumber ∨ ∃ p i, v.Edge p i c := by
  cases directory with
  | root => exact .inl rfl
  | child parent entry live folder => exact .inr ⟨_, _, ⟨parent, entry, live⟩, folder, rfl⟩

namespace Sound

variable (sound : v.Sound)
include sound

/-- Every cluster of a chain is allocated. -/
theorem fat_ne_zero (slot : v.Slot p i) (chain : v.SlotChain p i l) (member : c ∈ l) :
    v.fat c ≠ 0 := by
  obtain ⟨l', chain', _, range⟩ := sound.chain slot
  obtain rfl := chain.unique chain'
  intro free
  rcases chain.next_mem member with stop | ⟨d, inside, step⟩
  · rw [next_eq_none, free] at stop
    exact absurd stop (by decide)
  -- a free entry reads as a pointer to cluster 0, which no chain contains
  · have zero : 0 = d := by
      have target := (fatTarget_eq_some.mp step).2
      rwa [free] at target
    have bounds := range d inside
    omega

theorem range (slot : v.Slot p i) (chain : v.SlotChain p i l) (member : c ∈ l) :
    3 ≤ c ∧ c < 512 := by
  obtain ⟨l', chain', _, range⟩ := sound.chain slot
  obtain rfl := chain.unique chain'
  exact range c member

/-- The first cluster of an entry is a data cluster. -/
theorem slot_range (slot : v.Slot p i) :
    3 ≤ (v.table p i).cluster ∧ (v.table p i).cluster < 512 := by
  obtain ⟨l, chain, _, range⟩ := sound.chain slot
  exact range _ chain.head_mem

theorem length (slot : v.Slot p i) (chain : v.SlotChain p i l) :
    l.length = (v.table p i).clusters := by
  obtain ⟨l', chain', length, _⟩ := sound.chain slot
  obtain rfl := chain.unique chain'
  exact length

/-- The chain of a folder is its one cluster. -/
theorem folder_chain (edge : v.Edge p i c) : v.SlotChain p i [c] ∧ v.fat c = fat32FatEndOfFile := by
  obtain ⟨l, chain, length, _⟩ := sound.chain edge.toSlot
  obtain ⟨tail, rfl⟩ := chain.head_eq
  simp only [FAT32DirectoryEntry.clusters, edge.folder, ↓reduceIte, List.length_cons, Nat.add_eq_right,
    List.length_eq_zero_iff] at length
  subst length
  have stop := (Chain.singleton_iff.mp chain).2
  rw [next_eq_none, edge.cluster] at stop
  exact ⟨edge.cluster ▸ chain, stop⟩

theorem directory_fat (directory : v.Directory c) : v.fat c = fat32FatEndOfFile := by
  rcases directory.cases_edge with rfl | ⟨p, i, edge⟩
  · exact sound.root
  · exact (sound.folder_chain edge).2

/-- The chain of a self entry is the directory's own cluster. -/
theorem self_chain (directory : v.Directory p) : v.SlotChain p 0 [p] := by
  unfold SlotChain
  rw [(sound.self directory).2]
  exact .last (next_eq_none.mpr (sound.directory_fat directory))

theorem directory_range (directory : v.Directory c) : 2 ≤ c ∧ c < 512 := by
  rcases directory.cases_edge with rfl | ⟨p, i, edge⟩
  · simp [rootClusterNumber]
  · have bounds := sound.range edge.toSlot (sound.folder_chain edge).1 List.mem_cons_self
    omega

/-- Every slot in use, the self entry included, is on a chain of allocated clusters. -/
theorem live_chain (directory : v.Directory p) (live : (v.table p i).Live) :
    ∃ l, v.SlotChain p i l ∧ ∀ c ∈ l, (2 ≤ c ∧ c < 512) ∧ v.fat c ≠ 0 := by
  by_cases self : i = 0
  · subst self
    refine ⟨[p], sound.self_chain directory, fun c member => ?_⟩
    rw [List.mem_singleton.mp member, sound.directory_fat directory]
    exact ⟨sound.directory_range directory, by decide⟩
  · have slot : v.Slot p i := ⟨directory, self, live⟩
    obtain ⟨l, chain, _, range⟩ := sound.chain slot
    refine ⟨l, chain, fun c member => ⟨?_, sound.fat_ne_zero slot chain member⟩⟩
    have bounds := range c member
    omega

theorem edge_ne_root : ¬ v.Edge p i rootClusterNumber := by
  intro edge
  have bounds := sound.range edge.toSlot (sound.folder_chain edge).1 List.mem_cons_self
  simp [rootClusterNumber] at bounds

theorem child_ne_root (edge : v.Edge p i c) : c ≠ rootClusterNumber := by
  rintro rfl
  exact sound.edge_ne_root edge

theorem edge_unique (edge : v.Edge p i c) (edge' : v.Edge q j c) : p = q ∧ i = j :=
  sound.disjoint edge.toSlot edge'.toSlot (sound.folder_chain edge).1 (sound.folder_chain edge').1
    List.mem_cons_self List.mem_cons_self

/-- A directory's cluster belongs to no chain but its own. -/
theorem slot_of_directory_mem (slot : v.Slot p i) (chain : v.SlotChain p i l) (member : c ∈ l)
    (directory : v.Directory c) : v.Edge p i c := by
  rcases directory.cases_edge with rfl | ⟨q, j, edge⟩
  · have bounds := sound.range slot chain member
    simp [rootClusterNumber] at bounds
  · obtain ⟨rfl, rfl⟩ :=
      sound.disjoint slot edge.toSlot chain (sound.folder_chain edge).1 member List.mem_cons_self
    exact edge

/-- A file's clusters hold no directory. -/
theorem file_not_directory (slot : v.Slot p i) (file : (v.table p i).filesize ≠ 0)
    (chain : v.SlotChain p i l)
    (member : c ∈ l) : ¬ v.Directory c := fun directory =>
  file (sound.slot_of_directory_mem slot chain member directory).folder

theorem entry_of_vacant (directory : v.Directory p) (vacant : ¬ (v.table p i).Live) : i ≠ 0 := by
  rintro rfl
  exact vacant (sound.self directory).1

end Sound

/-! ## Adding an entry -/

/-- `v'` is `v` with entry `e` added to directory `p` in a free slot `s`, on the
    chain `l` of clusters that were free. -/
structure Added (v v' : Volume) (p : Nat) (s : Fin 64) (e : FAT32DirectoryEntry) (l : List Nat) : Prop where
  parent : v.Directory p
  vacant : ¬ (v.table p s).Live
  live : e.Live
  tableParent : v'.table p = Function.update (v.table p) s e
  tableFrame : ∀ q, v.Directory q → q ≠ p → v'.table q = v.table q
  fresh : ∀ c ∈ l, v.fat c = 0
  inside : ∀ c ∈ l, c < 512
  fatFrame : ∀ c, c ∉ l → v'.fat c = v.fat c
  chain : Chain v'.next e.cluster l
  length : l.length = e.clusters
  folder : e.filesize = 0 →
    (v'.table e.cluster 0).Live ∧ (v'.table e.cluster 0).cluster = e.cluster ∧
      ∀ i, i ≠ 0 → v'.table e.cluster i = .zero

namespace Added

variable {e : FAT32DirectoryEntry} (added : Added v v' p s e l)
include added

/-- Slots in use stay as they were. -/
theorem table_eq (directory : v.Directory q) (kept : (v.table q i).Live) :
    v'.table q i = v.table q i := by
  by_cases same : q = p
  · subst same
    have apart : i ≠ s := fun eq => added.vacant (eq ▸ kept)
    rw [added.tableParent, Function.update_of_ne apart]
  · rw [added.tableFrame q directory same]

theorem table_new : v'.table p s = e := by
  rw [added.tableParent, Function.update_self]

theorem mem_range (sound : v.Sound) (member : c ∈ l) : 3 ≤ c ∧ c < 512 := by
  have free := added.fresh c member
  refine ⟨?_, added.inside c member⟩
  by_contra small
  have cases : c = 0 ∨ c = 1 ∨ c = 2 := by omega
  rcases cases with rfl | rfl | rfl
  · exact absurd (sound.reserved0.symm.trans free) (by decide)
  · exact absurd (sound.reserved1.symm.trans free) (by decide)
  · exact absurd (sound.root.symm.trans free) (by decide)

theorem fat_low (sound : v.Sound) (low : c < 3) : v'.fat c = v.fat c := by
  refine added.fatFrame c fun member => ?_
  have bounds := added.mem_range sound member
  omega

theorem directory_iff (sound : v.Sound) :
    v'.Directory q ↔ v.Directory q ∨ (e.filesize = 0 ∧ q = e.cluster) := by
  constructor
  · intro directory
    induction directory with
    | root => exact .inl .root
    | @child q i parent entry live folder ih =>
      -- the parent is an old directory, or the new folder, which holds no entry yet
      rcases ih with old | ⟨isFolder, rfl⟩
      · by_cases place : q = p ∧ i = s
        · obtain ⟨rfl, rfl⟩ := place
          rw [added.table_new] at folder ⊢
          exact .inr ⟨folder, rfl⟩
        · have same : v'.table q i = v.table q i := by
            by_cases here : q = p
            · subst here
              rw [added.tableParent, Function.update_of_ne fun eq => place ⟨rfl, eq⟩]
            · rw [added.tableFrame q old here]
          rw [same] at live folder ⊢
          exact .inl (.child old entry live folder)
      · rw [(added.folder isFolder).2.2 i entry] at live
        exact absurd live FAT32DirectoryEntry.not_live_zero
  · have kept : ∀ {q}, v.Directory q → v'.Directory q := by
      intro q directory
      induction directory with
      | root => exact .root
      | child parent entry live folder ih =>
        have same := added.table_eq parent live
        rw [← same] at live folder ⊢
        exact .child ih entry live folder
    rintro (old | ⟨isFolder, rfl⟩)
    · exact kept old
    · have place := added.table_new
      rw [← place] at isFolder ⊢
      exact .child (kept added.parent) (sound.entry_of_vacant added.parent added.vacant) (place ▸ added.live) isFolder

theorem slot_iff (sound : v.Sound) : v'.Slot q i ↔ v.Slot q i ∨ (q = p ∧ i = s) := by
  constructor
  · rintro ⟨directory, entry, live⟩
    rcases (added.directory_iff sound).mp directory with old | ⟨isFolder, rfl⟩
    · by_cases here : q = p
      · subst here
        by_cases place : i = s
        · exact .inr ⟨rfl, place⟩
        · rw [added.tableParent, Function.update_of_ne place] at live
          exact .inl ⟨old, entry, live⟩
      · rw [added.tableFrame q old here] at live
        exact .inl ⟨old, entry, live⟩
    · rw [(added.folder isFolder).2.2 i entry] at live
      exact absurd live FAT32DirectoryEntry.not_live_zero
  · rintro (⟨directory, entry, live⟩ | ⟨rfl, rfl⟩)
    · exact ⟨(added.directory_iff sound).mpr (.inl directory), entry, (added.table_eq directory live).symm ▸ live⟩
    · exact ⟨(added.directory_iff sound).mpr (.inl added.parent), sound.entry_of_vacant added.parent added.vacant,
        added.table_new.symm ▸ added.live⟩

/-- Chains of the entries that were there before are untouched. -/
theorem chain_kept (sound : v.Sound) (slot : v.Slot q i) (chain : v.SlotChain q i l') :
    v'.SlotChain q i l' := by
  unfold SlotChain
  rw [added.table_eq slot.directory slot.live]
  apply chain.congr
  intro c member
  apply next_congr
  exact added.fatFrame c fun new => sound.fat_ne_zero slot chain member (added.fresh c new)

theorem chain_back (sound : v.Sound) (slot : v.Slot q i) (chain : v'.SlotChain q i l') :
    v.SlotChain q i l' := by
  obtain ⟨l₀, chain₀, _⟩ := sound.chain slot
  -- the old chain is still one, and there is only one
  obtain rfl := chain.unique (added.chain_kept sound slot chain₀)
  exact chain₀

theorem chain_new (chain : v'.SlotChain p s l') : l' = l := by
  unfold SlotChain at chain
  rw [added.table_new] at chain
  exact chain.unique added.chain

protected theorem sound (sound : v.Sound) : v'.Sound where
  reserved0 := by
    rw [added.fat_low sound (by decide)]
    exact sound.reserved0
  reserved1 := by
    rw [added.fat_low sound (by decide)]
    exact sound.reserved1
  root := by
    rw [added.fat_low sound (by decide)]
    exact sound.root
  self := by
    intro q directory
    rcases (added.directory_iff sound).mp directory with old | ⟨isFolder, rfl⟩
    · rw [added.table_eq old (sound.self old).1]
      exact sound.self old
    · exact ⟨(added.folder isFolder).1, (added.folder isFolder).2.1⟩
  free := by
    intro q i directory vacant
    rcases (added.directory_iff sound).mp directory with old | ⟨isFolder, rfl⟩
    · by_cases here : q = p
      · subst here
        by_cases place : i = s
        · subst place
          exact absurd (added.table_new.symm ▸ added.live) vacant
        · rw [added.tableParent, Function.update_of_ne place] at vacant ⊢
          exact sound.free old vacant
      · rw [added.tableFrame q old here] at vacant ⊢
        exact sound.free old vacant
    · by_cases selfEntry : i = 0
      · subst selfEntry
        exact absurd (added.folder isFolder).1 vacant
      · exact (added.folder isFolder).2.2 i selfEntry
  chain := by
    intro q i slot
    rcases (added.slot_iff sound).mp slot with old | ⟨rfl, rfl⟩
    · obtain ⟨l₀, chain, length, range⟩ := sound.chain old
      refine ⟨l₀, added.chain_kept sound old chain, ?_, range⟩
      rw [added.table_eq old.directory old.live, length]
    · refine ⟨l, ?_, ?_, fun c member => added.mem_range sound member⟩
      · unfold SlotChain
        rw [added.table_new]
        exact added.chain
      · rw [added.table_new, added.length]
  disjoint := by
    intro q i r j l₁ l₂ c slot slot' chain chain' member member'
    rcases (added.slot_iff sound).mp slot with old | ⟨rfl, rfl⟩ <;>
      rcases (added.slot_iff sound).mp slot' with old' | ⟨rfl, rfl⟩
    · exact sound.disjoint old old' (added.chain_back sound old chain) (added.chain_back sound old' chain') member
        member'
    · obtain rfl := added.chain_new chain'
      exact absurd (added.fresh c member') (sound.fat_ne_zero old (added.chain_back sound old chain) member)
    · obtain rfl := added.chain_new chain
      exact absurd (added.fresh c member) (sound.fat_ne_zero old' (added.chain_back sound old' chain') member')
    · exact ⟨rfl, rfl⟩

/-- Adding an entry under a name that its directory does not have keeps the volume well formed. -/
protected theorem wellFormed (wellFormed : v.WellFormed)
    (newName : ∀ i, (v.table p i).Live → (v.table p i).name = e.name → (v.table p i).ext ≠ e.ext) :
    v'.WellFormed where
  toSound := added.sound wellFormed.toSound
  rootless := (added.sound wellFormed.toSound).edge_ne_root
  tree := (added.sound wellFormed.toSound).edge_unique
  unique := by
    intro q i j directory live live' name ext
    have sound := wellFormed.toSound
    rcases (added.directory_iff sound).mp directory with old | ⟨isFolder, rfl⟩
    · by_cases here : q = p
      · subst here
        rw [added.tableParent] at live live' name ext
        -- two old entries differ already; an old and the new one do by `newName`
        by_cases first : i = s <;> by_cases second : j = s
        · rw [first, second]
        · subst first
          rw [Function.update_self, Function.update_of_ne second] at name ext
          rw [Function.update_of_ne second] at live'
          exact absurd ext.symm (newName j live' name.symm)
        · subst second
          rw [Function.update_self, Function.update_of_ne first] at name ext
          rw [Function.update_of_ne first] at live
          exact absurd ext (newName i live name)
        · rw [Function.update_of_ne first, Function.update_of_ne second] at name ext
          rw [Function.update_of_ne first] at live
          rw [Function.update_of_ne second] at live'
          exact wellFormed.unique old live live' name ext
      · rw [added.tableFrame q old here] at live live' name ext
        exact wellFormed.unique old live live' name ext
    · have only : ∀ i, (v'.table e.cluster i).Live → i = 0 := by
        intro i live
        by_contra entry
        rw [(added.folder isFolder).2.2 i entry] at live
        exact FAT32DirectoryEntry.not_live_zero live
      rw [only i live, only j live']
  noLeak := by
    intro c lower upper used
    have sound := wellFormed.toSound
    by_cases new : c ∈ l
    · refine .inr ⟨p, s, l, (added.slot_iff sound).mpr (.inr ⟨rfl, rfl⟩), ?_, new⟩
      unfold SlotChain
      rw [added.table_new]
      exact added.chain
    · rw [added.fatFrame c new] at used
      rcases wellFormed.noLeak lower upper used with root | ⟨q, i, l₀, slot, chain, member⟩
      · exact .inl root
      · exact .inr ⟨q, i, l₀, (added.slot_iff sound).mpr (.inl slot), added.chain_kept sound slot chain, member⟩

end Added

/-! ## Removing an entry -/

/-- `v'` is `v` with the entry in slot `s` of directory `p` removed and with some
    of the clusters of its chain `l` freed. -/
structure Removed (v v' : Volume) (p : Nat) (s : Fin 64) (l : List Nat) : Prop where
  slot : v.Slot p s
  chain : v.SlotChain p s l
  tableParent : v'.table p = Function.update (v.table p) s .zero
  tableFrame : ∀ q, v.Directory q → q ≠ p → v'.table q = v.table q
  fatFrame : ∀ c, c ∉ l → v'.fat c = v.fat c

namespace Removed

variable (removed : Removed v v' p s l)
include removed

theorem table_eq (directory : v.Directory q) (other : q ≠ p ∨ i ≠ s) :
    v'.table q i = v.table q i := by
  by_cases same : q = p
  · subst same
    have apart : i ≠ s := by simpa using other
    rw [removed.tableParent, Function.update_of_ne apart]
  · rw [removed.tableFrame q directory same]

theorem table_removed : v'.table p s = .zero := by
  rw [removed.tableParent, Function.update_self]

theorem live_other (live : (v'.table q i).Live) : q ≠ p ∨ i ≠ s := by
  by_contra both
  obtain ⟨rfl, rfl⟩ : q = p ∧ i = s := by simpa using both
  rw [removed.table_removed] at live
  exact FAT32DirectoryEntry.not_live_zero live

theorem directory_old (directory : v'.Directory q) : v.Directory q := by
  induction directory with
  | root => exact .root
  | child parent entry live folder ih =>
    have same := removed.table_eq ih (removed.live_other live)
    rw [same] at live folder ⊢
    exact .child ih entry live folder

theorem slot_old (slot : v'.Slot q i) : v.Slot q i ∧ (q ≠ p ∨ i ≠ s) := by
  have directory := removed.directory_old slot.directory
  have other := removed.live_other slot.live
  have same := removed.table_eq directory other
  exact ⟨⟨directory, slot.entry, same ▸ slot.live⟩, other⟩

/-- The reserved clusters and the root belong to no chain. -/
theorem fat_low (sound : v.Sound) (low : c < 3) : v'.fat c = v.fat c := by
  refine removed.fatFrame c fun member => ?_
  have bounds := sound.range removed.slot removed.chain member
  omega

/-- The chains of the other entries are untouched. -/
theorem chain_kept (sound : v.Sound) (slot : v.Slot q i) (other : q ≠ p ∨ i ≠ s)
    (chain : v.SlotChain q i l') :
    v'.SlotChain q i l' := by
  unfold SlotChain
  rw [removed.table_eq slot.directory other]
  apply chain.congr
  intro c member
  apply next_congr
  apply removed.fatFrame c
  intro shared
  -- a shared cluster would make the two entries one
  have same := sound.disjoint slot removed.slot chain removed.chain member shared
  simp [same.1, same.2] at other

theorem chain_back (sound : v.Sound) (slot : v'.Slot q i) (chain : v'.SlotChain q i l') :
    v.SlotChain q i l' := by
  obtain ⟨old, other⟩ := removed.slot_old slot
  obtain ⟨l₀, chain₀, _⟩ := sound.chain old
  -- the old chain is still one, and there is only one
  obtain rfl := chain.unique (removed.chain_kept sound old other chain₀)
  exact chain₀

protected theorem sound (sound : v.Sound) : v'.Sound where
  reserved0 := by
    rw [removed.fat_low sound (by decide)]
    exact sound.reserved0
  reserved1 := by
    rw [removed.fat_low sound (by decide)]
    exact sound.reserved1
  root := by
    rw [removed.fat_low sound (by decide)]
    exact sound.root
  self := by
    intro q directory
    have old := removed.directory_old directory
    rw [removed.table_eq old (.inr (Ne.symm removed.slot.entry))]
    exact sound.self old
  free := by
    intro q i directory vacant
    have old := removed.directory_old directory
    by_cases place : q = p ∧ i = s
    · obtain ⟨rfl, rfl⟩ := place
      exact removed.table_removed
    · have same := removed.table_eq old (not_and_or.mp place)
      rw [same] at vacant ⊢
      exact sound.free old vacant
  chain := by
    intro q i slot
    obtain ⟨old, other⟩ := removed.slot_old slot
    obtain ⟨l₀, chain, length, range⟩ := sound.chain old
    refine ⟨l₀, removed.chain_kept sound old other chain, ?_, range⟩
    rw [removed.table_eq old.directory other, length]
  disjoint := by
    intro q i r j l₁ l₂ c slot slot' chain chain' member member'
    exact sound.disjoint (removed.slot_old slot).1 (removed.slot_old slot').1 (removed.chain_back sound slot chain)
      (removed.chain_back sound slot' chain') member member'

/-- Unless an occupied folder was removed, the other directories are still reachable. -/
theorem directory_kept
    (empty : (v.table p s).filesize = 0 → ∀ i, i ≠ 0 → ¬ (v.table (v.table p s).cluster i).Live)
    (directory : v.Directory q) (other : (v.table p s).filesize = 0 → q ≠ (v.table p s).cluster) :
    v'.Directory q := by
  induction directory with
  | root => exact .root
  | @child q i parent entry live folder ih =>
    -- the parent is not the removed folder: that one holds no entry
    have parentKept : v'.Directory q := by
      apply ih
      rintro isFolder rfl
      exact empty isFolder i entry live
    have elsewhere : q ≠ p ∨ i ≠ s := by
      by_contra both
      obtain ⟨rfl, rfl⟩ : q = p ∧ i = s := by simpa using both
      exact other folder rfl
    have same := removed.table_eq parent elsewhere
    rw [← same] at live folder ⊢
    exact .child parentKept entry live folder

theorem slot_kept
    (empty : (v.table p s).filesize = 0 → ∀ i, i ≠ 0 → ¬ (v.table (v.table p s).cluster i).Live)
    (slot : v.Slot q i) (other : q ≠ p ∨ i ≠ s) : v'.Slot q i := by
  refine ⟨removed.directory_kept empty slot.directory ?_, slot.entry, ?_⟩
  · rintro isFolder rfl
    exact empty isFolder i slot.entry slot.live
  · rw [removed.table_eq slot.directory other]
    exact slot.live

/-- Removing a file or an empty folder with its whole chain keeps the volume well formed. -/
protected theorem wellFormed (wellFormed : v.WellFormed) (freed : ∀ c ∈ l, v'.fat c = 0)
    (empty : (v.table p s).filesize = 0 → ∀ i, i ≠ 0 → ¬ (v.table (v.table p s).cluster i).Live) :
    v'.WellFormed where
  toSound := removed.sound wellFormed.toSound
  rootless := (removed.sound wellFormed.toSound).edge_ne_root
  tree := (removed.sound wellFormed.toSound).edge_unique
  unique := by
    intro q i j directory live live' name ext
    have old := removed.directory_old directory
    have first := removed.table_eq old (removed.live_other live)
    have second := removed.table_eq old (removed.live_other live')
    rw [first] at live name ext
    rw [second] at live' name ext
    exact wellFormed.unique old live live' name ext
  noLeak := by
    intro c lower upper used
    have sound := wellFormed.toSound
    have outside : c ∉ l := fun member => used (freed c member)
    rw [removed.fatFrame c outside] at used
    rcases wellFormed.noLeak lower upper used with root | ⟨q, i, l₀, slot, chain, member⟩
    · exact .inl root
    · have other : q ≠ p ∨ i ≠ s := by
        by_contra both
        obtain ⟨rfl, rfl⟩ : q = p ∧ i = s := by simpa using both
        exact outside (chain.unique removed.chain ▸ member)
      exact .inr ⟨q, i, l₀, removed.slot_kept empty slot other, removed.chain_kept sound slot other chain,
        member⟩

end Removed

end Volume

end Brother420.Fat32
