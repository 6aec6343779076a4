import Brother420.Fat32.Moves

/-! # Unique names

Which changes of the tables keep the names in every directory unique.  Each of
them gives a new name to at most one slot of a table, so one lemma about a table
with one new name decides them all.
-/

namespace Brother420.Fat32

open Packed (Bytes)

/-- The entry is in use under this name. -/
structure FAT32DirectoryEntry.Named (e : FAT32DirectoryEntry) (name : Bytes 8) (ext : Bytes 3) : Prop where
  live : e.Live
  name : e.name = name
  ext : e.ext = ext

/-- No slot is in use under this name, not even the self entry. -/
def Lacks (table : FAT32DirectoryTable) (name : Bytes 8) (ext : Bytes 3) : Prop :=
  ∀ j, ¬ (table j).Named name ext

/-- No two slots in use have the same name. -/
def UniqueIn (table : FAT32DirectoryTable) : Prop :=
  ∀ i j name ext, (table i).Named name ext → (table j).Named name ext → i = j

section Table

variable {table table' : FAT32DirectoryTable} {name : Bytes 8} {ext : Bytes 3} {o : Fin 64}

theorem UniqueIn.of_old (unique : UniqueIn table)
    (old : ∀ j, (table' j).Live → table' j = table j) :
    UniqueIn table' := by
  intro i j name ext named named'
  rw [old i named.live] at named
  rw [old j named'.live] at named'
  exact unique i j name ext named named'

/-- One slot with a new name: no other slot may have it. -/
theorem UniqueIn.new_iff (unique : UniqueIn table) (new : (table' o).Named name ext)
    (old : ∀ j, j ≠ o → (table' j).Live → table' j = table j) :
    UniqueIn table' ↔ ∀ j, j ≠ o → ¬ (table' j).Named name ext := by
  constructor
  · intro unique' j other named
    exact other (unique' j o name ext named new)
  · intro alone
    -- whoever shares a name with slot `o` is slot `o`
    have only {i j : Fin 64} {name' : Bytes 8} {ext' : Bytes 3} (here : i = o) (named : (table' i).Named name' ext')
        (named' : (table' j).Named name' ext') : j = o := by
      by_contra other
      have sameName : name' = name := named.name.symm.trans (here ▸ new.name)
      have sameExt : ext' = ext := named.ext.symm.trans (here ▸ new.ext)
      exact alone j other (sameName ▸ sameExt ▸ named')
    intro i j name' ext' named named'
    by_cases first : i = o
    · rw [first, only first named named']
    · by_cases second : j = o
      · exact absurd (only second named' named) first
      · rw [old i first named.live] at named
        rw [old j second named'.live] at named'
        exact unique i j name' ext' named named'

end Table

namespace Volume

variable {v v' : Volume} {p q t c : Nat} {m o : Fin 64} {name : Bytes 8} {ext : Bytes 3}

/-- No two slots in use of one directory have the same name. -/
def UniqueNames (v : Volume) : Prop := ∀ p, v.Directory p → UniqueIn (v.table p)

theorem WellFormed.uniqueNames (wellFormed : v.WellFormed) : v.UniqueNames :=
  fun _ directory _ _ _ _ named named' => wellFormed.unique directory named.live named'.live
    (named.name.trans named'.name.symm) (named.ext.trans named'.ext.symm)

/-- Names, and the entry 0 of a table, do not matter for what a directory is. -/
theorem directory_congr (same : ∀ q i, v.Directory q → i ≠ 0 → ((v'.table q i).Live ↔ (v.table q i).Live) ∧
      (v'.table q i).filesize = (v.table q i).filesize ∧ (v'.table q i).cluster = (v.table q i).cluster) :
    v'.Directory q ↔ v.Directory q := by
  constructor
  · intro directory
    induction directory with
    | root => exact .root
    | @child q i _ entry live folder ih =>
      obtain ⟨sameLive, sameSize, sameCluster⟩ := same q i ih entry
      rw [sameCluster]
      exact .child ih entry (sameLive.mp live) (sameSize.symm.trans folder)
  · intro directory
    induction directory with
    | root => exact .root
    | @child q i parent entry live folder ih =>
      obtain ⟨sameLive, sameSize, sameCluster⟩ := same q i parent entry
      rw [← sameCluster]
      exact .child ih entry (sameLive.mpr live) (sameSize.trans folder)

/-! ## Moving and losing an entry -/

/-- Names stay unique exactly if the table that takes the entry has no other of its name. -/
theorem Moved.uniqueNames_iff (moved : Moved v v' p m t o) (unique : v.UniqueNames)
    (apart : Apart v p m t) :
    v'.UniqueNames ↔ ∀ j, (v.table t j).Named (v.table p m).name (v.table p m).ext → t = p ∧
    j = m := by
  obtain ⟨l, route, outside⟩ := apart
  have new : (v'.table t o).Named (v.table p m).name (v.table p m).ext :=
    ⟨moved.live, moved.name, moved.ext⟩
  have old {q : Nat} {j : Fin 64} (other : q ≠ t ∨ j ≠ o) (live : (v'.table q j).Live) :
      (q ≠ p ∨ j ≠ m) ∧ v'.table q j = v.table q j := by
    rcases moved.live_cases live with ⟨rfl, rfl⟩ | ⟨elsewhere, same⟩
    · simp at other
    · exact ⟨elsewhere, same⟩
  -- the target table is the only one that gained a name
  have decided := (unique t moved.target).new_iff new fun j other live => (old (.inr other) live).2
  constructor
  · intro unique' j named
    by_contra elsewhere
    have same := moved.kept named.live (not_and_or.mp elsewhere)
    apply decided.mp (unique' t (moved.route_kept route outside)) j
    · rintro rfl
      exact elsewhere (moved.vacant named.live)
    · rw [same]
      exact named
  · intro alone q directory
    by_cases target : q = t
    · subst target
      refine decided.mpr fun j other named => ?_
      obtain ⟨elsewhere, same⟩ := old (.inr other) named.live
      rw [same] at named
      obtain ⟨rfl, rfl⟩ := alone j named
      simp at elsewhere
    · exact (unique q (moved.directory_old directory)).of_old fun j live => (old (.inl target) live).2

theorem Dropped.uniqueNames (dropped : Dropped v v' p m) (sound : v.Sound)
    (unique : v.UniqueNames) :
    v'.UniqueNames := by
  intro q directory
  obtain ⟨old, apart⟩ := dropped.directory_old sound directory
  apply (unique q old).of_old
  intro j live
  apply dropped.others q j old apart
  by_contra here
  obtain ⟨rfl, rfl⟩ : q = p ∧ j = m := by simpa using here
  exact dropped.gone live

/-! ## Entering a cluster -/

/-- What would be a directory if cluster `c` was one. -/
inductive Under (v : Volume) (c : Nat) : Nat → Prop
  | here : Under v c c
  | child {p : Nat} {i : Fin 64} : Under v c p → i ≠ 0 → (v.table p i).Live → (v.table p i).filesize = 0 →
      Under v c (v.table p i).cluster

theorem Under.directory (under : v.Under c q) (directory : v.Directory c) : v.Directory q := by
  induction under with
  | here => exact directory
  | child _ entry live folder ih => exact .child ih entry live folder

/-- A free slot `o` of directory `t` was taken for a folder at cluster `c`, whatever that holds. -/
structure Entered (v v' : Volume) (t : Nat) (o : Fin 64) (name : Bytes 8) (ext : Bytes 3) (c : Nat) : Prop where
  target : v.Directory t
  entry : o ≠ 0
  vacant : ¬ (v.table t o).Live
  new : (v'.table t o).Named name ext
  folder : (v'.table t o).filesize = 0
  cluster : (v'.table t o).cluster = c
  others : ∀ q j, (q ≠ t ∨ j ≠ o) → v'.table q j = v.table q j

namespace Entered

variable (entered : Entered v v' t o name ext c)
include entered

theorem kept {j : Fin 64} (live : (v.table q j).Live) : v'.table q j = v.table q j := by
  apply entered.others
  by_contra here
  obtain ⟨rfl, rfl⟩ : q = t ∧ j = o := by simpa using here
  exact entered.vacant live

theorem child_kept {j : Fin 64} (directory : v'.Directory q) (entry : j ≠ 0) (live : (v.table q j).Live)
    (folder : (v.table q j).filesize = 0) : v'.Directory (v.table q j).cluster := by
  have same := entered.kept live
  rw [← same] at live folder ⊢
  exact .child directory entry live folder

theorem directory_kept (directory : v.Directory q) : v'.Directory q := by
  induction directory with
  | root => exact .root
  | child _ entry live folder ih => exact entered.child_kept ih entry live folder

theorem directory_under (under : v.Under c q) : v'.Directory q := by
  induction under with
  | here =>
    rw [← entered.cluster]
    exact .child (entered.directory_kept entered.target) entered.entry entered.new.live entered.folder
  | child _ entry live folder ih => exact entered.child_kept ih entry live folder

theorem directory_cases (directory : v'.Directory q) : v.Directory q ∨ v.Under c q := by
  induction directory with
  | root => exact .inl .root
  | @child q j _ entry live folder ih =>
    by_cases here : q = t ∧ j = o
    · obtain ⟨rfl, rfl⟩ := here
      rw [entered.cluster]
      exact .inr .here
    · have same := entered.others q j (not_and_or.mp here)
      rw [same] at live folder ⊢
      -- an old slot below an old directory, or below the cluster that was entered
      exact ih.imp (.child · entry live folder) (.child · entry live folder)

/-- Names stay unique exactly if the name is new and they are unique in all that is reached now. -/
theorem uniqueNames_iff (unique : v.UniqueNames) :
    v'.UniqueNames ↔ Lacks (v.table t) name ext ∧ ∀ q, v.Under c q → UniqueIn (v.table q) := by
  constructor
  · intro unique'
    constructor
    · intro j named
      have same := entered.kept named.live
      have here := unique' t (entered.directory_kept entered.target) j o name ext (same ▸ named) entered.new
      exact entered.vacant (here ▸ named.live)
    · intro q under i j name' ext' named named'
      have first := entered.kept named.live
      have second := entered.kept named'.live
      exact unique' q (entered.directory_under under) i j name' ext' (first ▸ named) (second ▸ named')
  · rintro ⟨lacks, under⟩ q directory
    have before : UniqueIn (v.table q) := by
      rcases entered.directory_cases directory with old | new
      · exact unique q old
      · exact under q new
    by_cases target : q = t
    · subst target
      have old {j : Fin 64} (other : j ≠ o) : v'.table q j = v.table q j :=
        entered.others q j (.inr other)
      refine (before.new_iff entered.new fun j other _ => old other).mpr fun j other named => ?_
      rw [old other] at named
      exact lacks j named
    · exact before.of_old fun j _ => entered.others q j (.inl target)

end Entered

end Volume

end Brother420.Fat32
