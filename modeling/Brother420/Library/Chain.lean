import Mathlib.Data.List.Nodup
import Mathlib.Data.List.Perm.Subperm
import Mathlib.Logic.Function.Basic

/-! # Linked chains in a successor table

An allocation table maps every cell to its successor, or to nothing at the end
of a chain.  `Chain next a l` says that following `next` from `a` visits exactly
the cells of `l` and then stops.  Because the walk is deterministic, a chain has
one cell list and never meets a cell twice.  `link` is the table update that
strings a list of cells into a new chain.
-/

namespace Linked

variable {α β : Type}

/-- Following `next` from the first index visits the cells of the list and stops. -/
inductive Chain (next : α → Option α) : α → List α → Prop
  | last {a : α} : next a = none → Chain next a [a]
  | cons {a b : α} {l : List α} : next a = some b → Chain next b l → Chain next a (a :: l)

variable {next next' : α → Option α} {a b : α} {l l' : List α}

namespace Chain

theorem head_eq (chain : Chain next a l) : ∃ tail, l = a :: tail := by
  cases chain with
  | last stop => exact ⟨[], rfl⟩
  | cons step rest => exact ⟨_, rfl⟩

theorem head_mem (chain : Chain next a l) : a ∈ l := by
  obtain ⟨tail, rfl⟩ := chain.head_eq
  exact List.mem_cons_self

/-- The cells of a chain are determined by where it starts. -/
theorem unique (chain : Chain next a l) (other : Chain next a l') : l = l' := by
  induction chain generalizing l' with
  | last stop =>
    cases other with
    | last _ => rfl
    | cons step _ => rw [stop] at step; cases step
  | cons step rest ih =>
    cases other with
    | last stop => rw [stop] at step; cases step
    | cons step' rest' =>
      rw [step] at step'
      obtain rfl := Option.some.inj step'
      rw [ih rest']

/-- Every cell of a chain starts a shorter chain, a suffix of the whole. -/
theorem tail_of_mem (chain : Chain next a l) {x : α} (member : x ∈ l) :
    ∃ before tail, l = before ++ tail ∧ Chain next x tail := by
  induction chain with
  | last stop =>
    obtain rfl := List.mem_singleton.mp member
    exact ⟨[], _, rfl, .last stop⟩
  | cons step rest ih =>
    rcases List.mem_cons.mp member with rfl | later
    · exact ⟨[], _, rfl, .cons step rest⟩
    · obtain ⟨before, tail, split, chain⟩ := ih later
      exact ⟨_ :: before, tail, by rw [split]; rfl, chain⟩

/-- A chain that stops never revisits a cell. -/
theorem nodup (chain : Chain next a l) : l.Nodup := by
  induction chain with
  | last stop => exact List.nodup_singleton _
  | cons step rest ih =>
    refine List.nodup_cons.mpr ⟨fun again => ?_, ih⟩
    obtain ⟨before, tail, split, chain⟩ := rest.tail_of_mem again
    -- the chain from the second visit is also the whole chain, which is longer
    have whole := chain.unique (.cons step rest)
    have lengths := congrArg List.length split
    rw [whole] at lengths
    simp at lengths
    omega

/-- A chain of numbers below `n` has at most `n` cells. -/
theorem length_le {next : Nat → Option Nat} {a n : Nat} {l : List Nat} (chain : Chain next a l)
    (inside : ∀ x ∈ l, x < n) : l.length ≤ n := by
  have contained : l ⊆ List.range n := fun x member => List.mem_range.mpr (inside x member)
  have counted := (List.subperm_of_subset chain.nodup contained).length_le
  rwa [List.length_range] at counted

/-- Frame rule: only the successors of the chain's own cells matter. -/
theorem congr (chain : Chain next a l) (same : ∀ x ∈ l, next' x = next x) : Chain next' a l := by
  induction chain with
  | last stop => exact .last ((same _ List.mem_cons_self).trans stop)
  | cons step rest ih =>
    exact .cons ((same _ List.mem_cons_self).trans step)
      (ih fun x member => same x (List.mem_cons_of_mem _ member))

theorem singleton_iff : Chain next a [b] ↔ a = b ∧ next a = none := by
  constructor
  · intro chain
    cases chain with
    | last stop => exact ⟨rfl, stop⟩
    | cons _ rest => cases rest
  · rintro ⟨rfl, stop⟩
    exact .last stop

/-- Every cell of a chain either ends it or points to another cell of it. -/
theorem next_mem (chain : Chain next a l) {x : α} (member : x ∈ l) :
    next x = none ∨ ∃ y ∈ l, next x = some y := by
  induction chain with
  | last stop =>
    obtain rfl := List.mem_singleton.mp member
    exact .inl stop
  | cons step rest ih =>
    rcases List.mem_cons.mp member with rfl | later
    · exact .inr ⟨_, List.mem_cons_of_mem _ rest.head_mem, step⟩
    · rcases ih later with stop | ⟨y, inside, follows⟩
      · exact .inl stop
      · exact .inr ⟨y, List.mem_cons_of_mem _ inside, follows⟩

/-- The last cell of a chain is the one that has no successor. -/
theorem getLast?_eq_some (chain : Chain next a l) {x : α} :
    l.getLast? = some x ↔ x ∈ l ∧ next x = none := by
  induction chain with
  | @last a stop =>
    constructor
    · intro same
      obtain rfl : a = x := by simpa using same
      exact ⟨List.mem_cons_self, stop⟩
    · rintro ⟨member, _⟩
      rw [List.mem_singleton.mp member]
      rfl
  | @cons a b l step rest ih =>
    obtain ⟨tail, rfl⟩ := rest.head_eq
    rw [List.getLast?_cons_cons, ih, List.mem_cons (a := x) (b := a)]
    constructor
    · rintro ⟨member, stop⟩
      exact ⟨.inr member, stop⟩
    · rintro ⟨rfl | member, stop⟩
      · rw [step] at stop
        cases stop
      · exact ⟨member, stop⟩

end Chain

/-- Overwrite the table so that the listed cells form one chain: each entry
    points to the next cell, and the last one holds the end marker. -/
def link [DecidableEq α] (pointer : α → β) (stop : β) : List α → (α → β) → α → β
  | [], table => table
  | [a], table => Function.update table a stop
  | a :: b :: rest, table => link pointer stop (b :: rest) (Function.update table a (pointer b))

variable [DecidableEq α] {pointer : α → β} {stop : β} {table : α → β}

theorem link_frame {x : α} (outside : x ∉ l) : link pointer stop l table x = table x := by
  induction l generalizing table with
  | nil => rfl
  | cons a rest ih =>
    have different : x ≠ a := fun same => outside (same ▸ List.mem_cons_self)
    have later : x ∉ rest := fun member => outside (List.mem_cons_of_mem _ member)
    cases rest with
    | nil => simp [link, different]
    | cons b rest => rw [link, ih later, Function.update_of_ne different]

/-- Linking a list of distinct cells yields the chain through them. -/
theorem chain_link {target : β → Option α} {rest : List α} (distinct : (a :: rest).Nodup)
    (stops : target stop = none) (points : ∀ b ∈ rest, target (pointer b) = some b) :
    Chain (fun x => target (link pointer stop (a :: rest) table x)) a (a :: rest) := by
  induction rest generalizing a table with
  | nil => exact .last (by simp [link, stops])
  | cons b rest ih =>
    -- linking the later cells leaves the entry just written for `a`
    have apart : a ∉ b :: rest := (List.nodup_cons.mp distinct).1
    refine .cons (b := b) ?_ ?_
    · simp only [link]
      rw [link_frame apart, Function.update_self, points b List.mem_cons_self]
    · exact ih (List.nodup_cons.mp distinct).2 fun c member => points c (List.mem_cons_of_mem _ member)

end Linked
