import Mathlib.Data.List.Basic
import Mathlib.Logic.Function.Basic

/-! # Loops over a list -/

namespace Folds

variable {α β : Type} {f : β → α → Option β} {g : β → α → β} {l : List α} {a : α} {b b' : β}

/-! ## Loops that do nothing -/

theorem foldl_idle (idle : ∀ x ∈ l, g b x = b) : l.foldl g b = b := by
  induction l with
  | nil => rfl
  | cons a l ih =>
    rw [List.foldl_cons, idle a List.mem_cons_self]
    exact ih fun x member => idle x (List.mem_cons_of_mem _ member)

/-- A loop of which one iteration does something, before and behind the others. -/
theorem foldl_once (distinct : l.Nodup) (member : a ∈ l) (before : ∀ x, x ≠ a → g b x = b)
    (after : ∀ x, x ≠ a → g (g b a) x = g b a) : l.foldl g b = g b a := by
  obtain ⟨l₁, l₂, rfl⟩ := List.append_of_mem member
  obtain ⟨_, distinct₂, apart⟩ := List.nodup_append.mp distinct
  have idle₁ : l₁.foldl g b = b := foldl_idle fun x here => before x (apart x here a List.mem_cons_self)
  have idle₂ : l₂.foldl g (g b a) = g b a :=
    foldl_idle fun x here => after x (ne_of_mem_of_not_mem here (List.nodup_cons.mp distinct₂).1)
  rw [List.foldl_append, idle₁, List.foldl_cons, idle₂]

/-! ## Loops that store -/

section Stores

variable {κ ν : Type} [DecidableEq κ] {place : α → κ} {value : α → ν} {t : κ → ν} {k : κ}

/-- A loop that stores into one cell each round leaves the other cells alone. -/
theorem foldl_update_other (outside : ∀ x ∈ l, place x ≠ k) :
    l.foldl (fun t x => Function.update t (place x) (value x)) t k = t k := by
  induction l generalizing t with
  | nil => rfl
  | cons x l ih =>
    rw [List.foldl_cons, ih fun y member => outside y (List.mem_cons_of_mem _ member)]
    exact Function.update_of_ne (outside x List.mem_cons_self).symm _ _

theorem foldl_update_at (apart : ∀ x y, place x = place y → x = y) (distinct : l.Nodup) (member : a ∈ l) :
    l.foldl (fun t x => Function.update t (place x) (value x)) t (place a) = value a := by
  induction l generalizing t with
  | nil => cases member
  | cons x l ih =>
    obtain ⟨fresh, distinct⟩ := List.nodup_cons.mp distinct
    rw [List.foldl_cons]
    cases List.mem_cons.mp member with
    | inl first =>
      subst first
      have others : ∀ y ∈ l, place y ≠ place a := fun y later same => fresh ((apart y a same).symm ▸ later)
      rw [foldl_update_other others]
      exact Function.update_self _ _ _
    | inr later => exact ih distinct later

end Stores

/-! ## Loops that can fail -/

/-- A loop fails as soon as one iteration does, whatever came before. -/
theorem foldlM_none {x : α} (member : x ∈ l) (fails : ∀ b, f b x = none) : l.foldlM f b = none := by
  induction l generalizing b with
  | nil => cases member
  | cons a l ih =>
    rw [List.foldlM_cons]
    rcases List.mem_cons.mp member with rfl | later
    · rw [fails b]
      rfl
    · cases first : f b a with
      | none => rfl
      | some b₁ => exact ih later

/-- What every iteration keeps, the loop keeps. -/
theorem foldlM_invariant (Inv : β → Prop) (step : ∀ b x b', x ∈ l → Inv b → f b x = some b' → Inv b') (start : Inv b)
    (result : l.foldlM f b = some b') : Inv b' := by
  induction l generalizing b with
  | nil =>
    obtain rfl : b = b' := by simpa using result
    exact start
  | cons a l ih =>
    rw [List.foldlM_cons] at result
    cases first : f b a with
    | none =>
      rw [first] at result
      cases result
    | some b₁ =>
      rw [first] at result
      exact ih (fun b x b' member => step b x b' (List.mem_cons_of_mem _ member))
        (step b a b₁ List.mem_cons_self start first) result

/-- A loop whose iterations do nothing does nothing. -/
theorem foldlM_idle (idle : ∀ x ∈ l, f b x = some b) : l.foldlM f b = some b := by
  induction l with
  | nil => rfl
  | cons a l ih =>
    rw [List.foldlM_cons, idle a List.mem_cons_self]
    exact ih fun x member => idle x (List.mem_cons_of_mem _ member)

/-! ## Loops with errors -/

theorem bind_eq_ok {ε : Type} {x : Except ε α} {h : α → Except ε β} :
    x >>= h = .ok b ↔ ∃ a, x = .ok a ∧ h a = .ok b := by
  cases x with
  | error e => simp [bind, Except.bind]
  | ok a => simp [bind, Except.bind]

/-! ## Counting loops -/

/-- A loop that counts to `n` establishes what each iteration carries on. -/
theorem foldlM_range {f : β → Nat → Option β} {n : Nat} (Inv : Nat → β → Prop) (start : Inv 0 b)
    (step : ∀ i b, i < n → Inv i b → ∃ b', f b i = some b' ∧ Inv (i + 1) b') :
    ∃ b', (List.range n).foldlM f b = some b' ∧ Inv n b' := by
  induction n with
  | zero => exact ⟨b, rfl, start⟩
  | succ n ih =>
    obtain ⟨b₁, before, inv⟩ := ih fun i b below => step i b (Nat.lt_succ_of_lt below)
    obtain ⟨b', last, inv'⟩ := step n b₁ (Nat.lt_succ_self n) inv
    refine ⟨b', ?_, inv'⟩
    rw [List.range_succ, List.foldlM_append, before]
    simpa using last

theorem foldl_range {f : β → Nat → β} {n : Nat} (Inv : Nat → β → Prop) (start : Inv 0 b)
    (step : ∀ i b, i < n → Inv i b → Inv (i + 1) (f b i)) : Inv n ((List.range n).foldl f b) := by
  induction n with
  | zero => exact start
  | succ n ih =>
    rw [List.range_succ, List.foldl_append]
    exact step n _ (Nat.lt_succ_self n) (ih fun i b below => step i b (Nat.lt_succ_of_lt below))

end Folds
