import Mathlib.Data.List.Induction
import Mathlib.Logic.Function.Basic

/-! # Handing out numbers

A source gives the next number to whoever asks for one, until it has given them all.  Who asks
again gets a new number, and the old one is lost.
-/

/-- The next number, and the number that each owner was given last. -/
structure Grants (α : Type) where
  next : Nat
  owned : α → Option Nat

namespace Grants

variable {α : Type} [DecidableEq α] {limit start : Nat} {g : Grants α} {a b : α} {asked later : List α} {n : Nat}

/-- Nothing is given yet. -/
def first (start : Nat) : Grants α := ⟨start, fun _ => none⟩

def grant (limit : Nat) (g : Grants α) (a : α) : Grants α :=
  if g.next < limit then ⟨g.next + 1, Function.update g.owned a (some g.next)⟩ else g

def grantAll (limit : Nat) (g : Grants α) (asked : List α) : Grants α := asked.foldl (grant limit) g

theorem grantAll_append : grantAll limit g (asked ++ later) = grantAll limit (grantAll limit g asked) later :=
  List.foldl_append

theorem grantAll_concat : grantAll limit g (asked ++ [a]) = grant limit (grantAll limit g asked) a := by
  rw [grantAll_append]
  rfl

/-! ## One request -/

@[simp] theorem grant_next_of_lt (below : g.next < limit) : (grant limit g a).next = g.next + 1 := by
  simp [grant, below]

@[simp] theorem grant_owned_of_lt (below : g.next < limit) :
    (grant limit g a).owned = Function.update g.owned a (some g.next) := by
  simp [grant, below]

theorem grant_of_le (all : limit ≤ g.next) : grant limit g a = g := by
  have spent : ¬ g.next < limit := by omega
  simp [grant, spent]

/-- A request changes what the one who makes it owns, and only if it is granted. -/
theorem grant_owned_kept (kept : g.next < limit → a ≠ b) : (grant limit g a).owned b = g.owned b := by
  rcases Nat.lt_or_ge g.next limit with below | all
  · rw [grant_owned_of_lt below, Function.update_of_ne (Ne.symm (kept below))]
  · rw [grant_of_le all]

/-! ## All requests -/

theorem grantAll_next (enough : g.next ≤ limit) :
    (grantAll limit g asked).next = min (g.next + asked.length) limit := by
  induction asked using List.reverseRecOn with
  | nil => exact (Nat.min_eq_left enough).symm
  | append_singleton asked a ih =>
    rw [grantAll_concat, List.length_append, List.length_singleton]
    rcases Nat.lt_or_ge (grantAll limit g asked).next limit with below | all
    · rw [grant_next_of_lt below]
      omega
    · rw [grant_of_le all]
      omega

/-- Every number that is owned was given, and to one owner. -/
structure Distinct (start : Nat) (g : Grants α) : Prop where
  given : ∀ a n, g.owned a = some n → start ≤ n ∧ n < g.next
  injective : ∀ a b n, g.owned a = some n → g.owned b = some n → a = b
  started : start ≤ g.next

omit [DecidableEq α] in
theorem first_distinct : Distinct start (first start : Grants α) where
  given _ _ owned := nomatch owned
  injective _ _ _ owned := nomatch owned
  started := Nat.le_refl start

theorem Distinct.grant (distinct : Distinct start g) (a : α) : Distinct start (grant limit g a) := by
  rcases Nat.lt_or_ge g.next limit with below | all
  · constructor
    · intro b n owned
      rw [grant_next_of_lt below]
      rw [grant_owned_of_lt below] at owned
      by_cases same : b = a
      · subst same
        rw [Function.update_self] at owned
        obtain rfl := Option.some.inj owned
        exact ⟨distinct.started, Nat.lt_succ_self _⟩
      · rw [Function.update_of_ne same] at owned
        obtain ⟨lower, upper⟩ := distinct.given b n owned
        exact ⟨lower, Nat.lt_succ_of_lt upper⟩
    · intro b c n first second
      rw [grant_owned_of_lt below] at first second
      -- the new number is larger than all that were given before
      by_cases same : b = a <;> by_cases same' : c = a
      · rw [same, same']
      · subst same
        rw [Function.update_self] at first
        rw [Function.update_of_ne same'] at second
        have := (distinct.given c n second).2
        cases first
        omega
      · subst same'
        rw [Function.update_self] at second
        rw [Function.update_of_ne same] at first
        have := (distinct.given b n first).2
        cases second
        omega
      · rw [Function.update_of_ne same] at first
        rw [Function.update_of_ne same'] at second
        exact distinct.injective b c n first second
    · rw [grant_next_of_lt below]
      exact Nat.le_succ_of_le distinct.started
  · rw [grant_of_le all]
    exact distinct

theorem Distinct.grantAll (distinct : Distinct start g) (asked : List α) : Distinct start (grantAll limit g asked) := by
  induction asked using List.reverseRecOn with
  | nil => exact distinct
  | append_singleton asked a ih =>
    rw [grantAll_concat]
    exact ih.grant a

/-- What one owns stays as long as no request of one's own is granted. -/
theorem grantAll_owned_kept
    (kept : ∀ earlier c rest, later = earlier ++ c :: rest → (grantAll limit g earlier).next < limit → c ≠ a) :
    (grantAll limit g later).owned a = g.owned a := by
  induction later using List.reverseRecOn with
  | nil => rfl
  | append_singleton later c ih =>
    rw [grantAll_concat, grant_owned_kept (kept later c [] rfl)]
    apply ih
    intro earlier d rest split
    exact kept earlier d (rest ++ [c]) (by rw [split]; simp)

theorem grantAll_owned_of_not_mem (absent : a ∉ asked) : (grantAll limit g asked).owned a = g.owned a := by
  apply grantAll_owned_kept
  rintro earlier c rest rfl - rfl
  exact absent (by simp)

end Grants
