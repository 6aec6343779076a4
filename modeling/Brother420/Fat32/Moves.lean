import Brother420.Fat32.Routes

/-! # Moving and losing an entry

The effect of a move on the tree of directories.  `Moved` says that an entry went
to a slot of another table, or of its own; `Dropped` says that it is gone.  Only
the tables matter here: both hold whatever is left in the slot that was cleared.
-/

namespace Brother420.Fat32.Volume

variable {v v' : Volume} {p q t c : Nat} {i j m o : Fin 64} {l : List Nat}

/-- A route that does not pass through an entry stays when no other entry changes. -/
theorem Route.kept (route : v.Route q l) (apart : (v.table p m).cluster ∉ l)
    (same : ∀ q j, v.Directory q → q ≠ (v.table p m).cluster → (v.table q j).Live → (q ≠ p ∨ j ≠ m) →
      v'.table q j = v.table q j) : v'.Directory q := by
  induction route with
  | root => exact .root
  | @enter q c j l route edge ih =>
    obtain ⟨⟨directory, entry, live⟩, folder, rfl⟩ := edge
    have above : (v.table p m).cluster ∉ l := fun member => apart (List.mem_append_left _ member)
    have other : q ≠ (v.table p m).cluster := by
      rintro rfl
      exact above route.mem
    have elsewhere : q ≠ p ∨ j ≠ m := by
      by_contra both
      obtain ⟨rfl, rfl⟩ : q = p ∧ j = m := by simpa using both
      exact apart (List.mem_append_right _ List.mem_cons_self)
    have kept := same q j directory other live elsewhere
    rw [← kept] at live folder ⊢
    exact .child (ih above) entry live folder

/-! ## Moved -/

/-- The entry in slot `m` of directory `p` has gone to slot `o` of directory `t`. -/
structure Moved (v v' : Volume) (p : Nat) (m : Fin 64) (t : Nat) (o : Fin 64) : Prop where
  source : v.Slot p m
  target : v.Directory t
  entry : o ≠ 0
  vacant : (v.table t o).Live → t = p ∧ o = m
  gone : (v'.table p m).Live → p = t ∧ m = o
  live : (v'.table t o).Live
  name : (v'.table t o).name = (v.table p m).name
  ext : (v'.table t o).ext = (v.table p m).ext
  filesize : (v'.table t o).filesize = (v.table p m).filesize
  cluster : (v'.table t o).cluster = (v.table p m).cluster
  others : ∀ q j, (q ≠ p ∨ j ≠ m) → (q ≠ t ∨ j ≠ o) → v'.table q j = v.table q j

namespace Moved

variable (moved : Moved v v' p m t o)
include moved

/-- Slots in use other than the two are as they were. -/
theorem kept (live : (v.table q j).Live) (other : q ≠ p ∨ j ≠ m) : v'.table q j = v.table q j := by
  apply moved.others q j other
  by_contra here
  obtain ⟨rfl, rfl⟩ : q = t ∧ j = o := by simpa using here
  -- the target slot was free, unless it is the source itself
  obtain ⟨rfl, rfl⟩ := moved.vacant live
  simp at other

/-- A slot in use afterwards is the new one, or was there before. -/
theorem live_cases (live : (v'.table q j).Live) :
    (q = t ∧ j = o) ∨ ((q ≠ p ∨ j ≠ m) ∧ v'.table q j = v.table q j) := by
  by_cases here : q = t ∧ j = o
  · exact .inl here
  · right
    have elsewhere : q ≠ p ∨ j ≠ m := by
      by_contra both
      obtain ⟨rfl, rfl⟩ : q = p ∧ j = m := by simpa using both
      exact here (moved.gone live)
    exact ⟨elsewhere, moved.others q j elsewhere (not_and_or.mp here)⟩

theorem directory_old (directory : v'.Directory q) : v.Directory q := by
  induction directory with
  | root => exact .root
  | @child q j parent entry live folder ih =>
    -- the moved folder was a directory under its old place
    rcases moved.live_cases live with ⟨rfl, rfl⟩ | ⟨_, same⟩
    · rw [moved.filesize] at folder
      rw [moved.cluster]
      exact .child moved.source.directory moved.source.entry moved.source.live folder
    · rw [same] at live folder ⊢
      exact .child ih entry live folder

theorem route_kept (route : v.Route q l) (apart : (v.table p m).cluster ∉ l) : v'.Directory q :=
  route.kept apart fun _ _ _ _ live other => moved.kept live other

variable (route : v.Route t l) (apart : (v.table p m).cluster ∉ l)
include route apart

theorem directory_iff : v'.Directory q ↔ v.Directory q := by
  refine ⟨moved.directory_old, fun directory => ?_⟩
  induction directory with
  | root => exact .root
  | @child q j parent entry live folder ih =>
    by_cases here : q = p ∧ j = m
    · obtain ⟨rfl, rfl⟩ := here
      rw [← moved.filesize] at folder
      rw [← moved.cluster]
      exact .child (moved.route_kept route apart) moved.entry moved.live folder
    · have same := moved.kept live (not_and_or.mp here)
      rw [← same] at live folder ⊢
      exact .child ih entry live folder

theorem slot_iff : v'.Slot q j ↔ (v.Slot q j ∧ (q ≠ p ∨ j ≠ m)) ∨ (q = t ∧ j = o) := by
  constructor
  · rintro ⟨directory, entry, live⟩
    rcases moved.live_cases live with here | ⟨elsewhere, same⟩
    · exact .inr here
    · rw [same] at live
      exact .inl ⟨⟨moved.directory_old directory, entry, live⟩, elsewhere⟩
  · rintro (⟨⟨directory, entry, live⟩, elsewhere⟩ | ⟨rfl, rfl⟩)
    · exact ⟨(moved.directory_iff route apart).mpr directory, entry, (moved.kept live elsewhere).symm ▸ live⟩
    · exact ⟨moved.route_kept route apart, moved.entry, moved.live⟩

/-- The slot it went to is the only one that has its first cluster. -/
theorem only (sound : v.Sound) (slot : v'.Slot q j)
    (same : (v'.table q j).cluster = (v.table p m).cluster) :
    q = t ∧ j = o := by
  rcases (moved.slot_iff route apart).mp slot with ⟨old, elsewhere⟩ | here
  · rw [moved.kept old.live elsewhere] at same
    -- only the source had this first cluster, and it is not the source
    obtain ⟨rfl, rfl⟩ := sound.slot_unique moved.source old same
    simp at elsewhere
  · exact here

end Moved

/-! ## Where an entry is -/

/-- Slot `o` of directory `q` is the one slot with the first cluster that the entry in slot `m` of
    directory `p` had, and it has its name, extension and size. -/
structure Placed (v v' : Volume) (p : Nat) (m : Fin 64) (q : Nat) (o : Fin 64) : Prop extends v'.Slot q o where
  name : (v'.table q o).name = (v.table p m).name
  ext : (v'.table q o).ext = (v.table p m).ext
  filesize : (v'.table q o).filesize = (v.table p m).filesize
  cluster : (v'.table q o).cluster = (v.table p m).cluster
  only : ∀ q' o', v'.Slot q' o' → (v'.table q' o').cluster = (v.table p m).cluster → q' = q ∧ o' = o

theorem Moved.placed (moved : Moved v v' p m t o) (sound : v.Sound) (route : v.Route t l)
    (apart : (v.table p m).cluster ∉ l) : Placed v v' p m t o where
  toSlot := (moved.slot_iff route apart).mpr (.inr ⟨rfl, rfl⟩)
  name := moved.name
  ext := moved.ext
  filesize := moved.filesize
  cluster := moved.cluster
  only := fun _ _ slot same => moved.only route apart sound slot same

/-! ## Dropped -/

/-- The entry in slot `m` of directory `p` is gone.  If it was a folder, its own table does not matter. -/
structure Dropped (v v' : Volume) (p : Nat) (m : Fin 64) : Prop where
  source : v.Slot p m
  gone : ¬ (v'.table p m).Live
  others : ∀ q j, v.Directory q → q ≠ (v.table p m).cluster → (q ≠ p ∨ j ≠ m) → v'.table q j = v.table q j

namespace Dropped

variable (dropped : Dropped v v' p m) (sound : v.Sound)
include dropped sound

theorem directory_old (directory : v'.Directory q) : v.Directory q ∧ q ≠ (v.table p m).cluster := by
  induction directory with
  | root =>
    refine ⟨.root, fun same => ?_⟩
    have bounds := sound.slot_range dropped.source
    rw [← same] at bounds
    simp [rootClusterNumber] at bounds
  | @child q j parent entry live folder ih =>
    have elsewhere : q ≠ p ∨ j ≠ m := by
      by_contra both
      obtain ⟨rfl, rfl⟩ : q = p ∧ j = m := by simpa using both
      exact dropped.gone live
    have same := dropped.others q j ih.1 ih.2 elsewhere
    rw [same] at live folder ⊢
    refine ⟨.child ih.1 entry live folder, fun reached => ?_⟩
    obtain ⟨rfl, rfl⟩ := sound.slot_unique dropped.source ⟨ih.1, entry, live⟩ reached
    simp at elsewhere

omit sound in
theorem route_kept (route : v.Route q l) (apart : (v.table p m).cluster ∉ l) : v'.Directory q :=
  route.kept apart fun q j directory own _ other => dropped.others q j directory own other

theorem slot_old (slot : v'.Slot q j) :
    v.Slot q j ∧ v'.table q j = v.table q j ∧ (q ≠ p ∨ j ≠ m) := by
  obtain ⟨directory, apart⟩ := dropped.directory_old sound slot.directory
  have elsewhere : q ≠ p ∨ j ≠ m := by
    by_contra both
    obtain ⟨rfl, rfl⟩ : q = p ∧ j = m := by simpa using both
    exact dropped.gone slot.live
  have same := dropped.others q j directory apart elsewhere
  exact ⟨⟨directory, slot.entry, same ▸ slot.live⟩, same, elsewhere⟩

/-- No slot has its first cluster any more. -/
theorem lost (slot : v'.Slot q j) : (v'.table q j).cluster ≠ (v.table p m).cluster := by
  obtain ⟨old, same, elsewhere⟩ := dropped.slot_old sound slot
  rw [same]
  intro shared
  obtain ⟨rfl, rfl⟩ := sound.slot_unique dropped.source old shared
  simp at elsewhere

theorem not_placed : ¬ Placed v v' p m q o :=
  fun placed => dropped.lost sound placed.toSlot placed.cluster

end Dropped

/-! ## Routes apart from an entry -/

/-- Some route to `t` does not pass through the entry in slot `m` of directory `p`. -/
def Apart (v : Volume) (p : Nat) (m : Fin 64) (t : Nat) : Prop :=
  ∃ l, v.Route t l ∧ (v.table p m).cluster ∉ l

theorem Apart.ne (apart : Apart v p m t) : t ≠ (v.table p m).cluster := by
  obtain ⟨l, route, outside⟩ := apart
  rintro rfl
  exact outside route.mem

theorem Sound.not_mem_route (sound : v.Sound) (slot : v.Slot p m) (route : v.Route p l) :
    (v.table p m).cluster ∉ l := by
  intro member
  obtain ⟨l', chain, _⟩ := sound.chain slot
  have edge := sound.slot_of_directory_mem slot chain chain.head_mem (route.directory_of_mem member)
  have distinct := (Route.enter route edge).nodup sound
  exact (List.nodup_append.mp distinct).2.2 _ member _ List.mem_cons_self rfl

theorem Sound.apart_self (sound : v.Sound) (slot : v.Slot p m) : Apart v p m p := by
  obtain ⟨l, route⟩ := slot.directory.route
  exact ⟨l, route, sound.not_mem_route slot route⟩

/-- The parent of `p`, when slot `m` is in `p`. -/
theorem Sound.apart_parent (sound : v.Sound) (slot : v.Slot p m) (edge : v.Edge q i p) :
    Apart v p m q := by
  obtain ⟨l, route⟩ := edge.directory.route
  have outside := sound.not_mem_route slot (.enter route edge)
  exact ⟨l, route, fun member => outside (List.mem_append_left _ member)⟩

/-- Another folder in `p`. -/
theorem Sound.apart_child (sound : v.Sound) (slot : v.Slot p m) (edge : v.Edge p i c)
    (other : c ≠ (v.table p m).cluster) : Apart v p m c := by
  obtain ⟨l, route⟩ := edge.directory.route
  refine ⟨_, .enter route edge, fun member => ?_⟩
  rcases List.mem_append.mp member with above | here
  · exact sound.not_mem_route slot route above
  · exact other (List.mem_singleton.mp here).symm

end Brother420.Fat32.Volume
