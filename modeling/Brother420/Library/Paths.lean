import Mathlib.Data.List.Infix
import Mathlib.Logic.Function.Basic

/-! # Paths in a tree with labels

A node is named by the labels on the way to it from the root.  Grafting a leaf,
cutting a branch off and hanging it up elsewhere change one edge of the tree;
the lemmas say what each of them does to the paths of all nodes, and to the map
from paths to what the nodes hold.
-/

namespace Paths

variable {α κ ν : Type} {edge edge' : α → κ → α → Prop} {r a b c x y : α} {k m n : κ} {p q src dst : List κ}
  {value value' : α → ν → Prop} {t : List κ → Option ν} {v new : ν}

/-- Following the labels of the path from `r` leads to the node. -/
inductive Leads (edge : α → κ → α → Prop) (r : α) : List κ → α → Prop
  | here : Leads edge r [] r
  | enter {p : List κ} {a b : α} {k : κ} : Leads edge r p a → edge a k b → Leads edge r (p ++ [k]) b

/-- Under one label a node has one child, every node has one parent, and the root has none. -/
structure Tree (edge : α → κ → α → Prop) (r : α) : Prop where
  label : ∀ {a k b c}, edge a k b → edge a k c → b = c
  parent : ∀ {a k b m c}, edge a k c → edge b m c → a = b ∧ k = m
  root : ∀ {a k}, ¬ edge a k r

theorem leads_nil : Leads edge r [] x ↔ x = r := by
  constructor
  · intro leads
    generalize empty : ([] : List κ) = p at leads
    cases leads with
    | here => rfl
    | enter _ _ => simp at empty
  · rintro rfl
    exact .here

theorem leads_concat : Leads edge r (p ++ [k]) x ↔ ∃ a, Leads edge r p a ∧ edge a k x := by
  constructor
  · intro leads
    generalize whole : p ++ [k] = q at leads
    cases leads with
    | here => simp at whole
    | enter leads step =>
      obtain ⟨rfl, last⟩ := List.append_inj' whole rfl
      obtain rfl := List.singleton_injective last
      exact ⟨_, leads, step⟩
  · rintro ⟨a, leads, step⟩
    exact .enter leads step

/-- A path leads to one node. -/
theorem Leads.unique (tree : Tree edge r) (leads : Leads edge r p x) (leads' : Leads edge r p y) : x = y := by
  induction leads generalizing y with
  | here => exact (leads_nil.mp leads').symm
  | enter _ step ih =>
    obtain ⟨a, leads', step'⟩ := leads_concat.mp leads'
    obtain rfl := ih leads'
    exact tree.label step step'

/-- One path leads to a node. -/
theorem Leads.path_unique (tree : Tree edge r) (leads : Leads edge r p x) (leads' : Leads edge r q x) : p = q := by
  induction leads generalizing q with
  | here =>
    cases leads' with
    | here => rfl
    | enter _ step => exact absurd step tree.root
  | enter _ step ih =>
    cases leads' with
    | here => exact absurd step tree.root
    | enter leads' step' =>
      obtain ⟨rfl, rfl⟩ := tree.parent step step'
      rw [ih leads']

theorem Leads.before (leads : Leads edge r (p ++ q) x) : ∃ y, Leads edge r p y := by
  induction q using List.reverseRecOn generalizing x with
  | nil => exact ⟨x, by simpa using leads⟩
  | append_singleton q k ih =>
    rw [← List.append_assoc] at leads
    obtain ⟨_, leads, _⟩ := leads_concat.mp leads
    exact ih leads

/-- No path goes on behind a leaf. -/
theorem Leads.leaf (tree : Tree edge r) (atLeaf : Leads edge r p c) (leaf : ∀ k x, ¬ edge c k x)
    (leads : Leads edge r (p ++ q) x) : q = [] := by
  induction q using List.reverseRecOn generalizing x with
  | nil => rfl
  | append_singleton q k ih =>
    rw [← List.append_assoc] at leads
    obtain ⟨_, leads, step⟩ := leads_concat.mp leads
    obtain rfl := ih leads
    rw [List.append_nil] at leads
    obtain rfl := atLeaf.unique tree leads
    exact absurd step (leaf _ _)

/-! ## Maps of a tree -/

/-- The map says what the node at the end of each path holds. -/
def Depicts (edge : α → κ → α → Prop) (r : α) (value : α → ν → Prop) (t : List κ → Option ν) : Prop :=
  ∀ q v, t q = some v ↔ ∃ x, Leads edge r q x ∧ value x v

theorem Depicts.eq_none (depicts : Depicts edge r value t) (nowhere : ∀ x, ¬ Leads edge r q x) : t q = none := by
  rw [Option.eq_none_iff_forall_ne_some]
  intro v there
  obtain ⟨x, leads, _⟩ := (depicts q v).mp there
  exact nowhere x leads

section Update

variable [DecidableEq κ]

/-- One node holds something else. -/
theorem Depicts.revalue (depicts : Depicts edge r value t) (tree : Tree edge r) (leads : Leads edge r p c)
    (values : ∀ x v, value' x v ↔ (x ≠ c ∧ value x v) ∨ (x = c ∧ v = new)) :
    Depicts edge r value' (Function.update t p (some new)) := by
  intro q v
  by_cases same : q = p
  · subst same
    rw [Function.update_self, Option.some_inj]
    constructor
    · rintro rfl
      exact ⟨c, leads, (values _ _).mpr (.inr ⟨rfl, rfl⟩)⟩
    · rintro ⟨x, leads', held⟩
      obtain rfl := leads.unique tree leads'
      rcases (values _ _).mp held with ⟨other, _⟩ | ⟨_, rfl⟩
      · exact absurd rfl other
      · rfl
  · rw [Function.update_of_ne same, depicts q v]
    refine exists_congr fun x => and_congr_right fun leads' => ?_
    -- one path leads to a node, so this one leads elsewhere
    have other : x ≠ c := by
      rintro rfl
      exact same (leads'.path_unique tree leads)
    simp [values, other]

end Update

theorem prefix_concat (other : p ++ [k] ≠ src) : src <+: p ++ [k] ↔ src <+: p := by
  rw [List.prefix_concat_iff]
  exact or_iff_right (Ne.symm other)

/-! ## Grafting -/

/-- A new node `c` hangs under `a` by the label `m`. -/
structure Grafted (edge edge' : α → κ → α → Prop) (r a : α) (m : κ) (c : α) : Prop where
  fresh : c ≠ r ∧ ∀ x k, ¬ edge x k c
  leaf : ∀ k x, ¬ edge c k x
  edges : ∀ {x k y}, edge' x k y ↔ edge x k y ∨ (x = a ∧ k = m ∧ y = c)

theorem Grafted.leads_iff (grafted : Grafted edge edge' r a m c) (tree : Tree edge r) (leads : Leads edge r p a) :
    Leads edge' r q x ↔ Leads edge r q x ∨ (q = p ++ [m] ∧ x = c) := by
  have kept {q : List κ} {x : α} (old : Leads edge r q x) : Leads edge' r q x := by
    induction old with
    | here => exact .here
    | enter _ step ih => exact .enter ih (grafted.edges.mpr (.inl step))
  constructor
  · intro leads'
    induction leads' with
    | here => exact .inl .here
    | enter _ step ih =>
      rcases ih with old | ⟨rfl, rfl⟩
      · rcases grafted.edges.mp step with step | ⟨rfl, rfl, rfl⟩
        · exact .inl (.enter old step)
        · exact .inr ⟨by rw [old.path_unique tree leads], rfl⟩
      · -- nothing hangs under the new node, not even itself
        rcases grafted.edges.mp step with step | ⟨rfl, _, _⟩
        · exact absurd step (grafted.leaf _ _)
        · cases leads with
          | here => exact absurd rfl grafted.fresh.1
          | enter _ step => exact absurd step (grafted.fresh.2 _ _)
  · rintro (old | ⟨rfl, rfl⟩)
    · exact kept old
    · exact .enter (kept leads) (grafted.edges.mpr (.inr ⟨rfl, rfl, rfl⟩))

/-- The map gets the path of the new node. -/
theorem Grafted.depicts [DecidableEq κ] (grafted : Grafted edge edge' r a m c) (tree : Tree edge r)
    (leads : Leads edge r p a) (vacant : ∀ x, ¬ edge a m x) (depicts : Depicts edge r value t)
    (values : ∀ x v, value' x v ↔ (x ≠ c ∧ value x v) ∨ (x = c ∧ v = new)) :
    Depicts edge' r value' (Function.update t (p ++ [m]) (some new)) := by
  have apart {q : List κ} {x : α} (old : Leads edge r q x) : x ≠ c ∧ q ≠ p ++ [m] := by
    constructor
    · rintro rfl
      cases old with
      | here => exact grafted.fresh.1 rfl
      | enter _ step => exact grafted.fresh.2 _ _ step
    · rintro rfl
      obtain ⟨b, leads', step⟩ := leads_concat.mp old
      obtain rfl := leads.unique tree leads'
      exact vacant _ step
  intro q v
  simp only [grafted.leads_iff tree leads, values]
  by_cases here : q = p ++ [m]
  · subst here
    rw [Function.update_self, Option.some_inj]
    constructor
    · rintro rfl
      exact ⟨c, .inr ⟨rfl, rfl⟩, .inr ⟨rfl, rfl⟩⟩
    · rintro ⟨x, old | ⟨_, rfl⟩, held⟩
      · exact absurd rfl (apart old).2
      · rcases held with ⟨other, _⟩ | ⟨_, rfl⟩
        · exact absurd rfl other
        · rfl
  · rw [Function.update_of_ne here, depicts q v]
    constructor
    · rintro ⟨x, old, held⟩
      exact ⟨x, .inl old, .inl ⟨(apart old).1, held⟩⟩
    · rintro ⟨x, old | ⟨same, _⟩, held⟩
      · rcases held with ⟨_, held⟩ | ⟨rfl, _⟩
        · exact ⟨x, old, held⟩
        · exact absurd rfl (apart old).1
      · exact absurd same here

/-! ## Cutting -/

/-- The edge under `a` by the label `m` is gone. -/
structure Cut (edge edge' : α → κ → α → Prop) (a : α) (m : κ) : Prop where
  edges : ∀ {x k y}, edge' x k y ↔ edge x k y ∧ ¬ (x = a ∧ k = m)

theorem Cut.leads_iff (cut : Cut edge edge' a m) (tree : Tree edge r) (leads : Leads edge r p a) :
    Leads edge' r q x ↔ Leads edge r q x ∧ ¬ p ++ [m] <+: q := by
  constructor
  · intro leads'
    induction leads' with
    | here => exact ⟨.here, by simp⟩
    | @enter q a' b k _ step ih =>
      obtain ⟨old, outside⟩ := ih
      obtain ⟨step, other⟩ := cut.edges.mp step
      refine ⟨.enter old step, ?_⟩
      have apart : q ++ [k] ≠ p ++ [m] := by
        intro same
        obtain ⟨rfl, last⟩ := List.append_inj' same rfl
        exact other ⟨old.unique tree leads, List.singleton_injective last⟩
      rwa [prefix_concat apart]
  · rintro ⟨old, outside⟩
    induction old with
    | here => exact .here
    | @enter q a' b k old step ih =>
      refine .enter (ih fun inside => outside (inside.trans (List.prefix_append _ _))) (cut.edges.mpr ⟨step, ?_⟩)
      rintro ⟨rfl, rfl⟩
      obtain rfl := old.path_unique tree leads
      exact outside (List.prefix_refl _)

/-- The map loses the path of a leaf that is cut off. -/
theorem Cut.depicts [DecidableEq κ] (cut : Cut edge edge' a m) (tree : Tree edge r) (leads : Leads edge r p a)
    (source : edge a m c) (leaf : ∀ k x, ¬ edge c k x) (depicts : Depicts edge r value t)
    (values : ∀ x v, x ≠ c → (value' x v ↔ value x v)) :
    Depicts edge' r value' (Function.update t (p ++ [m]) none) := by
  have atLeaf : Leads edge r (p ++ [m]) c := .enter leads source
  intro q v
  simp only [cut.leads_iff tree leads]
  by_cases here : q = p ++ [m]
  · subst here
    rw [Function.update_self]
    constructor
    · intro impossible
      cases impossible
    · rintro ⟨x, ⟨_, outside⟩, _⟩
      exact absurd (List.prefix_refl _) outside
  · rw [Function.update_of_ne here, depicts q v]
    refine exists_congr fun x => ?_
    constructor
    · rintro ⟨old, held⟩
      have other : x ≠ c := by
        rintro rfl
        exact here (old.path_unique tree atLeaf)
      refine ⟨⟨old, ?_⟩, (values _ _ other).mpr held⟩
      rintro ⟨s, rfl⟩
      obtain rfl := atLeaf.leaf tree leaf old
      exact here (List.append_nil _)
    · rintro ⟨⟨old, outside⟩, held⟩
      refine ⟨old, (values _ _ ?_).mp held⟩
      rintro rfl
      exact here (old.path_unique tree atLeaf)

/-! ## Hanging up elsewhere -/

/-- The node `c` under `a` by the label `m` hangs under `b` by the label `n` now. -/
structure Relinked (edge edge' : α → κ → α → Prop) (a : α) (m : κ) (c b : α) (n : κ) : Prop where
  source : edge a m c
  edges : ∀ {x k y}, edge' x k y ↔ (edge x k y ∧ ¬ (x = a ∧ k = m)) ∨ (x = b ∧ k = n ∧ y = c)

/-- Paths that do not pass through the edge stay. -/
theorem Relinked.kept (relinked : Relinked edge edge' a m c b n) (tree : Tree edge r) (leads : Leads edge r p a)
    (old : Leads edge r q x) (outside : ¬ p ++ [m] <+: q) :
    Leads edge' r q x := by
  induction old with
  | here => exact .here
  | enter old step ih =>
    refine .enter (ih fun inside => outside (inside.trans (List.prefix_append _ _))) ?_
    refine relinked.edges.mpr (.inl ⟨step, ?_⟩)
    rintro ⟨rfl, rfl⟩
    obtain rfl := old.path_unique tree leads
    exact outside (List.prefix_refl _)

section Relocate

variable [DecidableEq κ]

/-- The path behind `src` goes on from `dst` instead. -/
def relocate (src dst p : List κ) : List κ := if src <+: p then dst ++ p.drop src.length else p

theorem relocate_append : relocate src dst (src ++ q) = dst ++ q := by
  rw [relocate, if_pos (List.prefix_append _ _), List.drop_left]

theorem relocate_self : relocate src dst src = dst := by
  have moved : relocate src dst (src ++ []) = dst ++ [] := relocate_append
  rwa [List.append_nil, List.append_nil] at moved

theorem relocate_outside (outside : ¬ src <+: p) : relocate src dst p = p := if_neg outside

theorem relocate_concat (other : p ++ [k] ≠ src) : relocate src dst (p ++ [k]) = relocate src dst p ++ [k] := by
  by_cases inside : src <+: p
  · obtain ⟨q, rfl⟩ := inside
    rw [List.append_assoc, relocate_append, relocate_append, List.append_assoc]
  · rw [relocate_outside inside, relocate_outside (mt (prefix_concat other).mp inside)]

namespace Relinked

variable (relinked : Relinked edge edge' a m c b n) (tree : Tree edge r) (leads : Leads edge r p a)
  (target : Leads edge r dst b) (apart : ¬ p ++ [m] <+: dst)
include relinked tree leads target apart

/-- The paths of all nodes behind the edge are relocated. -/
theorem leads_iff :
    Leads edge' r q x ↔ ∃ q', Leads edge r q' x ∧ q = relocate (p ++ [m]) (dst ++ [n]) q' := by
  constructor
  · intro leads'
    induction leads' with
    | here => exact ⟨[], .here, (relocate_outside (by simp)).symm⟩
    | @enter q a' x k _ step ih =>
      obtain ⟨q', old, rfl⟩ := ih
      rcases relinked.edges.mp step with ⟨step, other⟩ | ⟨rfl, rfl, rfl⟩
      · refine ⟨q' ++ [k], .enter old step, (relocate_concat ?_).symm⟩
        intro same
        obtain ⟨rfl, last⟩ := List.append_inj' same rfl
        exact other ⟨old.unique tree leads, List.singleton_injective last⟩
      · obtain rfl := old.path_unique tree target
        exact ⟨p ++ [m], .enter leads relinked.source, by rw [relocate_self, relocate_outside apart]⟩
  · rintro ⟨q', old, rfl⟩
    induction old with
    | here =>
      rw [relocate_outside (by simp)]
      exact .here
    | @enter q' a' x k old step ih =>
      by_cases through : q' ++ [k] = p ++ [m]
      · obtain ⟨rfl, last⟩ := List.append_inj' through rfl
        obtain rfl := List.singleton_injective last
        obtain rfl := old.unique tree leads
        obtain rfl := tree.label step relinked.source
        rw [relocate_self]
        exact .enter (relinked.kept tree leads target apart) (relinked.edges.mpr (.inr ⟨rfl, rfl, rfl⟩))
      · rw [relocate_concat through]
        refine .enter ih (relinked.edges.mpr (.inl ⟨step, ?_⟩))
        rintro ⟨rfl, rfl⟩
        exact through (by rw [old.path_unique tree leads])

end Relinked

/-- A map on paths, with what was behind `src` behind `dst` now. -/
def rebase (src dst : List κ) (t : List κ → Option ν) : List κ → Option ν := fun q =>
  if dst <+: q then t (src ++ q.drop dst.length) else if src <+: q then none else t q

/-- Nothing may stand behind `dst` before. -/
theorem rebase_eq_some_iff (free : dst ≠ src → ∀ q, t (dst ++ q) = none) :
    rebase src dst t q = some v ↔ ∃ p, t p = some v ∧ q = relocate src dst p := by
  constructor
  · intro there
    unfold rebase at there
    split at there
    · rename_i inside
      obtain ⟨s, rfl⟩ := inside
      rw [List.drop_left] at there
      exact ⟨src ++ s, there, relocate_append.symm⟩
    · split at there
      · cases there
      · rename_i outside
        exact ⟨q, there, (relocate_outside outside).symm⟩
  · rintro ⟨p, there, rfl⟩
    by_cases inside : src <+: p
    · obtain ⟨s, rfl⟩ := inside
      rw [relocate_append, rebase, if_pos (List.prefix_append _ _), List.drop_left]
      exact there
    · rw [relocate_outside inside, rebase, if_neg, if_neg inside]
      · exact there
      · rintro ⟨s, rfl⟩
        have other : dst ≠ src := by
          rintro rfl
          exact inside (List.prefix_append _ _)
        rw [free other s] at there
        cases there

/-- The map is rebased, when nothing was in the way. -/
theorem Relinked.depicts (relinked : Relinked edge edge' a m c b n) (tree : Tree edge r) (leads : Leads edge r p a)
    (target : Leads edge r dst b) (apart : ¬ p ++ [m] <+: dst) (vacant : (b ≠ a ∨ n ≠ m) → ∀ x, ¬ edge b n x)
    (depicts : Depicts edge r value t) (values : ∀ x v, value' x v ↔ value x v) :
    Depicts edge' r value' (rebase (p ++ [m]) (dst ++ [n]) t) := by
  have free : dst ++ [n] ≠ p ++ [m] → ∀ q, t (dst ++ [n] ++ q) = none := by
    intro other q
    apply depicts.eq_none
    intro x leads'
    obtain ⟨y, below⟩ := leads'.before
    obtain ⟨b', target', step⟩ := leads_concat.mp below
    obtain rfl := target.unique tree target'
    refine vacant ?_ y step
    by_contra both
    simp only [ne_eq, not_or, not_not] at both
    obtain ⟨rfl, rfl⟩ := both
    exact other (by rw [target.path_unique tree leads])
  intro q v
  rw [rebase_eq_some_iff free]
  simp only [relinked.leads_iff tree leads target apart, values, depicts _ _]
  constructor
  · rintro ⟨q', ⟨x, old, held⟩, rfl⟩
    exact ⟨x, ⟨q', old, rfl⟩, held⟩
  · rintro ⟨x, ⟨q', old, rfl⟩, held⟩
    exact ⟨q', ⟨x, old, held⟩, rfl⟩

end Relocate

end Paths
