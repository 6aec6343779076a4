import Mathlib.Logic.Basic

/-! # Computations with a trace

A computation that may fail, together with what it used on the way: the trace of
a failed computation ends where it failed.
-/

namespace Traces

structure Traced (ι α : Type) where
  used : List ι
  result : Option α

namespace Traced

variable {ι α β : Type}

/-- A step that uses nothing. -/
def of (result : Option α) : Traced ι α := ⟨[], result⟩

/-- A step that uses `i`. -/
def use (i : ι) (result : Option α) : Traced ι α := ⟨[i], result⟩

/-- The second computation runs, and leaves a trace, only where the first has a result. -/
def andThen (x : Traced ι α) (f : α → Traced ι β) : Traced ι β :=
  match x.result with
  | none => ⟨x.used, none⟩
  | some a => ⟨x.used ++ (f a).used, (f a).result⟩

instance : Monad (Traced ι) where
  pure a := of (some a)
  bind := andThen

@[simp] theorem result_of (result : Option α) : (of result : Traced ι α).result = result := rfl

@[simp] theorem used_of (result : Option α) : (of result : Traced ι α).used = [] := rfl

@[simp] theorem result_use (i : ι) (result : Option α) : (use i result).result = result := rfl

@[simp] theorem used_use (i : ι) (result : Option α) : (use i result).used = [i] := rfl

@[simp] theorem result_pure (a : α) : (pure a : Traced ι α).result = some a := rfl

@[simp] theorem used_pure (a : α) : (pure a : Traced ι α).used = [] := rfl

@[simp] theorem result_bind (x : Traced ι α) (f : α → Traced ι β) :
    (x >>= f).result = x.result.bind fun a => (f a).result := by
  change (x.andThen f).result = _
  unfold andThen
  cases x.result <;> rfl

/-- What the whole uses, the first computation uses, or the second where it runs. -/
theorem mem_used_bind {x : Traced ι α} {f : α → Traced ι β} {i : ι} :
    i ∈ (x >>= f).used ↔ i ∈ x.used ∨ ∃ a, x.result = some a ∧ i ∈ (f a).used := by
  change i ∈ (x.andThen f).used ↔ _
  unfold andThen
  cases x.result with
  | none => simp
  | some a => simp

end Traced

end Traces
