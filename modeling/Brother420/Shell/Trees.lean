import Brother420.Shell.Orderly

/-! # mv and the tree of names

A move hangs an entry up elsewhere, with all that is below it.  A rename does the
same in place, and writes the new name over the first bytes of a file.
-/

namespace Brother420

open Packed (Bytes)
open Paths (Leads Relinked rebase)

namespace Shell

open Fat32 Kernel Volume

variable {v : Volume} {d : Disk} {p t c x : Nat} {i m o : Fin 64} {l : List Nat} {name : Bytes 8} {ext : Bytes 3}
  {tree : Path → Option Node} {src dst path : Path} {node : Node}

/-! ## Paths and routes -/

/-- A path that goes on behind an entry passes through its cluster. -/
theorem mem_route_of_at (wellFormed : v.WellFormed) (leads : v.At path c) {s : Path} (below : v.At (path ++ s) t)
    (route : v.Route t l) : c ∈ l := by
  have sound := wellFormed.toSound
  induction s using List.reverseRecOn generalizing t l with
  | nil =>
    rw [List.append_nil] at below
    obtain rfl := leads.unique wellFormed.entryTree below
    exact route.mem
  | append_singleton s k ih =>
    rw [← List.append_assoc] at below
    obtain ⟨a, above, i, slot, _, start⟩ := Paths.leads_concat.mp below
    cases route with
    | root =>
      have range := sound.slot_range slot
      rw [start] at range
      simp [rootClusterNumber] at range
    | enter route edge =>
      obtain ⟨rfl, _⟩ := sound.slot_unique slot edge.toSlot (edge.cluster.trans start.symm)
      exact List.mem_append_left _ (ih above route)

theorem not_prefix_of_apart (wellFormed : v.WellFormed) (apart : Apart v p m t) (slot : v.Slot p m) (leads : v.At src p)
    (target : v.At dst t) : ¬ src ++ [(v.table p m).entryName] <+: dst := by
  rintro ⟨s, rfl⟩
  obtain ⟨l, route, outside⟩ := apart
  exact outside (mem_route_of_at wellFormed (.enter leads slot.entry_name) target route)

/-! ## Moves -/

section Move

variable (orderly : Orderly d) (slot : d.volume.Slot p m) (target : d.volume.Directory t)
  (free : findFree ((clearedDisk d p m).table t) = some o) (apart : Apart d.volume p m t)
include orderly slot target free apart

theorem relinked_moved :
    Relinked d.volume.Entry (movedDisk d p m t).volume.Entry p (d.table p m).entryName (d.table p m).cluster t
      (d.table p m).entryName where
  source := slot.entry_name
  edges := by
    have moved := moved_of_free orderly.regular.wellFormed slot target free
    have first := carried_kept orderly slot
    intro q k y
    constructor
    · rintro ⟨i, new, rfl, rfl⟩
      rcases movedDisk_slots orderly slot target free apart new with ⟨rfl, rfl, there⟩ | ⟨old, other, same⟩
      · rw [Disk.volume_table, there]
        exact .inr ⟨rfl, rfl, first.cluster⟩
      · rw [Disk.volume_table, same]
        refine .inl ⟨old.entry_name, ?_⟩
        rintro ⟨rfl, shared⟩
        obtain ⟨name, ext⟩ := Prod.mk.inj shared
        obtain rfl := orderly.regular.volume.unique old.directory old.live slot.live name ext
        simp at other
    · obtain ⟨l, route, outside⟩ := apart
      rintro (⟨⟨i, old, rfl, rfl⟩, other⟩ | ⟨rfl, rfl, rfl⟩)
      · have elsewhere : q ≠ p ∨ i ≠ m := by
          by_contra both
          obtain ⟨rfl, rfl⟩ : q = p ∧ i = m := by simpa using both
          exact other ⟨rfl, rfl⟩
        rw [← moved.kept old.live elsewhere]
        exact Slot.entry_name ((moved.slot_iff route outside).mpr (.inl ⟨old, elsewhere⟩))
      · exact ⟨o, (moved.slot_iff route outside).mpr (.inr ⟨rfl, rfl⟩), Prod.ext moved.name moved.ext, moved.cluster⟩

omit free apart in
theorem movedDisk_sameFiles : SameFiles d (movedDisk d p m t) := by
  intro q i l file size chain x member
  have notDirectory := orderly.regular.sound.volume.file_not_directory file size chain member
  apply movedDisk_cluster
  · rintro rfl
    exact notDirectory slot.directory
  · rintro rfl
    exact notDirectory target

/-- The entry is shown under its name in the other directory, with what is below it. -/
theorem shows_moved (lacks : t ≠ p → Lacks (d.table t) (d.table p m).name (d.table p m).ext)
    (leads : d.volume.At src p) (above : d.volume.At dst t) (shows : Shows d tree) :
    Shows (movedDisk d p m t)
      (rebase (src ++ [(d.table p m).entryName]) (dst ++ [(d.table p m).entryName]) tree) := by
  have wellFormed := orderly.regular.volume.toWellFormed
  have rearranged := rearranged_moved orderly slot target free apart
  refine (relinked_moved orderly slot target free apart).depicts wellFormed.entryTree leads above
    (not_prefix_of_apart wellFormed apart slot leads above) ?_ shows
    fun _ _ => rearranged.content_iff (movedDisk_sameFiles orderly slot target)
  rintro other x ⟨i, old, same, _⟩
  obtain ⟨name, ext⟩ := Prod.mk.inj same
  exact lacks (other.resolve_right fun no => no rfl) i ⟨old.live, name, ext⟩

end Move

/-! ## Renames -/

/-- The bytes of a file with its name written over the first eleven. -/
def stamped (name : Bytes 8) (ext : Bytes 3) (data : List UInt8) : List UInt8 :=
  data.mapIdx fun a b => if h : a < 11 then nameBytes name ext ⟨a, h⟩ else b

/-- What a renamed entry holds. -/
def restamped (name : Bytes 8) (ext : Bytes 3) : Node → Node
  | .folder => .folder
  | .file data => .file (stamped name ext data)

section Rename

variable (orderly : Orderly d) (slot : d.volume.Slot p m)
include orderly slot

theorem fileBytes_renamed (file : (d.table p m).filesize ≠ 0) (chain : d.volume.SlotChain p m l) (size : Nat) :
    fileBytes (renamedDisk d p m name ext) l size = stamped name ext (fileBytes d l size) := by
  have sound := orderly.regular.sound.volume
  obtain ⟨rest, rfl⟩ := chain.head_eq
  have distinct := List.nodup_cons.mp chain.nodup
  have byte (a : Nat) : fileByte (renamedDisk d p m name ext) ((d.table p m).cluster :: rest) a =
      if h : a < 11 then nameBytes name ext ⟨a, h⟩ else fileByte d ((d.table p m).cluster :: rest) a := by
    -- the name is in the first cluster; the others are not touched
    by_cases first : a < 2048
    · rw [fileByte_head first, fileByte_head first]
      exact renamedDisk_first ⟨a, first⟩
    · have behind : ¬ a < 11 := by omega
      rw [dif_neg behind, fileByte_cons (by omega), fileByte_cons (by omega)]
      apply fileByte_congr
      intro x member
      apply renamedDisk_others
      · rintro rfl
        exact sound.file_not_directory slot file chain (List.mem_cons_of_mem _ member) slot.directory
      · rintro rfl
        exact distinct.1 member
  apply List.ext_getElem
  · simp [stamped, fileBytes]
  · intro a _ _
    simp only [stamped, fileBytes, List.getElem_mapIdx, List.getElem_map, List.getElem_range]
    exact byte a

variable (name ext) in
/-- Only the renamed entry holds something else, if it is a file. -/
theorem content_renamed {held : Node} (content : Content d (d.table p m).cluster held) :
    Content (renamedDisk d p m name ext) x node ↔
      (x ≠ (d.table p m).cluster ∧ Content d x node) ∨
        (x = (d.table p m).cluster ∧ node = restamped name ext held) := by
  have wellFormed := orderly.regular.wellFormed
  have sound := wellFormed.volume.toSound
  have rearranged := rearranged_renamed name ext wellFormed slot
  have kept (q : Nat) (i : Fin 64) := (renamedDisk_kept name ext wellFormed slot q i).1
  have others {q : Nat} {i : Fin 64} {l : List Nat} (file : d.volume.Slot q i) (size : (d.table q i).filesize ≠ 0)
      (chain : d.volume.SlotChain q i l) (other : (d.table q i).cluster ≠ (d.table p m).cluster) :
      ∀ x ∈ l, (renamedDisk d p m name ext).cluster x = d.cluster x := by
    intro x member
    apply renamedDisk_others
    · rintro rfl
      exact sound.file_not_directory file size chain member slot.directory
    · rintro rfl
      obtain ⟨l', chain', _⟩ := sound.chain slot
      obtain ⟨rfl, rfl⟩ := sound.disjoint file slot chain chain' member chain'.head_mem
      exact other rfl
  -- a file of the new volume and what it was before
  have file_iff {q : Nat} {i : Fin 64} : (renamedDisk d p m name ext).volume.Slot q i ↔ d.volume.Slot q i :=
    renamedDisk_slot_iff wellFormed slot
  constructor
  · intro content'
    cases content' with
    | folder directory' =>
      have directory := (rearranged.directory x).mp directory'
      by_cases here : x = (d.table p m).cluster
      · subst here
        obtain rfl := (Content.folder directory).unique sound content
        exact .inr ⟨rfl, rfl⟩
      · exact .inl ⟨here, .folder directory⟩
    | @file q i l slot' file' chain' =>
      have old := file_iff.mp slot'
      have chain : d.volume.SlotChain q i l := (rearranged.chain_iff (kept q i)).mp chain'
      rw [(kept q i).filesize] at file' ⊢
      rw [(kept q i).cluster]
      by_cases here : (d.table q i).cluster = (d.table p m).cluster
      · obtain ⟨rfl, rfl⟩ := sound.slot_unique slot old here
        obtain rfl := (Content.file slot file' chain).unique sound content
        exact .inr ⟨rfl, by rw [fileBytes_renamed orderly slot file' chain, restamped]⟩
      · rw [fileBytes_congr (others old file' chain here)]
        exact .inl ⟨here, .file old file' chain⟩
  · have entered {q : Nat} {i : Fin 64} {l : List Nat} (old : d.volume.Slot q i) (file : (d.table q i).filesize ≠ 0)
        (chain : d.volume.SlotChain q i l) :
        Content (renamedDisk d p m name ext) (d.table q i).cluster
          (.file (fileBytes (renamedDisk d p m name ext) l (d.table q i).filesize.toNat)) := by
      rw [← (kept q i).filesize, ← (kept q i).cluster]
      exact .file (file_iff.mpr old) ((kept q i).filesize ▸ file) ((rearranged.chain_iff (kept q i)).mpr chain)
    rintro (⟨other, content'⟩ | ⟨rfl, rfl⟩)
    · cases content' with
      | folder directory => exact .folder ((rearranged.directory x).mpr directory)
      | file old file chain =>
        rw [← fileBytes_congr (others old file chain other)]
        exact entered old file chain
    · generalize start : (d.table p m).cluster = c at content
      cases content with
      | folder directory => exact .folder ((rearranged.directory c).mpr directory)
      | file old file chain =>
        obtain ⟨rfl, rfl⟩ := sound.slot_unique slot old start.symm
        rw [restamped, ← fileBytes_renamed orderly slot file chain]
        exact entered slot file chain

theorem relinked_renamed :
    Relinked d.volume.Entry (renamedDisk d p m name ext).volume.Entry p (d.table p m).entryName (d.table p m).cluster p
      (name, ext) where
  source := slot.entry_name
  edges := by
    have wellFormed := orderly.regular.wellFormed
    intro q k y
    constructor
    · rintro ⟨i, new, rfl, rfl⟩
      have old := (renamedDisk_slot_iff wellFormed slot).mp new
      rcases renamedDisk_cases name ext wellFormed slot q i with
        ⟨rfl, rfl, there⟩ | ⟨_, self, _⟩ | ⟨other, _, same⟩
      · rw [Disk.volume_table, there]
        exact .inr ⟨rfl, rfl, rfl⟩
      · exact absurd self new.entry
      · rw [Disk.volume_table, same]
        refine .inl ⟨old.entry_name, ?_⟩
        rintro ⟨rfl, shared⟩
        obtain ⟨sameName, sameExt⟩ := Prod.mk.inj shared
        obtain rfl := wellFormed.volume.unique old.directory old.live slot.live sameName sameExt
        simp at other
    · rintro (⟨⟨i, old, rfl, rfl⟩, other⟩ | ⟨rfl, rfl, rfl⟩)
      · have apart : (d.table p m).cluster ≠ p := wellFormed.volume.slot_cluster_ne slot
        have elsewhere : q ≠ p ∨ i ≠ m := by
          by_contra both
          obtain ⟨rfl, rfl⟩ : q = p ∧ i = m := by simpa using both
          exact other ⟨rfl, rfl⟩
        have same : (renamedDisk d p m name ext).table q i = d.table q i :=
          renamedDisk_slot apart elsewhere (.inr old.entry)
        rw [Disk.volume_table, ← same]
        exact Slot.entry_name ((renamedDisk_slot_iff wellFormed slot).mpr old)
      · refine ⟨m, (renamedDisk_slot_iff wellFormed slot).mpr slot, ?_⟩
        rw [Disk.volume_table, renamedDisk_source (wellFormed.volume.slot_cluster_ne slot)]
        exact ⟨rfl, rfl⟩

/-- The entry is shown under its new name, with the name in the first bytes of a file. -/
theorem shows_renamed (alone : ∀ i, i ≠ m → ¬ (d.table p i).Named name ext) (leads : d.volume.At src p)
    (shows : Shows d tree) (there : tree (src ++ [(d.table p m).entryName]) = some node) :
    Shows (renamedDisk d p m name ext)
      (rebase (src ++ [(d.table p m).entryName]) (src ++ [(name, ext)])
        (Function.update tree (src ++ [(d.table p m).entryName]) (some (restamped name ext node)))) := by
  have entryTree := orderly.regular.volume.entryTree
  have atEntry := Leads.enter leads slot.entry_name
  obtain ⟨y, leads', content⟩ := (shows _ _).mp there
  obtain rfl := atEntry.unique entryTree leads'
  have revalued := shows.revalue entryTree atEntry fun _ _ =>
    content_renamed name ext orderly slot content
  refine (relinked_renamed orderly slot).depicts entryTree leads leads ?_ ?_ revalued fun _ _ => Iff.rfl
  · intro inside
    have length := inside.length_le
    simp only [List.length_append, List.length_cons, List.length_nil] at length
    omega
  · rintro other x ⟨i, old, same, _⟩
    obtain ⟨sameName, sameExt⟩ := Prod.mk.inj same
    by_cases here : i = m
    · subst here
      exact other.elim (fun no => no rfl) fun no => no (Prod.ext sameName.symm sameExt.symm)
    · exact alone i here ⟨old.live, sameName, sameExt⟩

end Rename

end Shell

end Brother420
