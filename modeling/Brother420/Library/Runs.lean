/-! # Runs of a machine that answers requests

A machine takes requests one at a time and answers each with a code, or goes
wrong.  `Run` collects the requests of a run with their codes, newest last; the
rules derive facts about every run from facts about one step.
-/

namespace Runs

variable {σ ρ κ α : Type} {step : σ → ρ → Option (κ × σ)} {allowed : σ → ρ → Prop} {initial : σ → Prop}

/-- `Run step allowed initial history s`: the allowed requests of `history`, made from an
    initial state, were answered as recorded and led to `s`. -/
inductive Run (step : σ → ρ → Option (κ × σ)) (allowed : σ → ρ → Prop) (initial : σ → Prop) :
    List (ρ × κ) → σ → Prop
  | start {s : σ} : initial s → Run step allowed initial [] s
  | step {history : List (ρ × κ)} {s s' : σ} {request : ρ} {code : κ} : Run step allowed initial history s →
      allowed s request → step s request = some (code, s') →
      Run step allowed initial (history ++ [(request, code)]) s'

/-- What every answered request keeps holds after any run. -/
theorem Run.preserved {Inv : σ → Prop} {history : List (ρ × κ)} {s : σ} (start : ∀ s, initial s → Inv s)
    (step_ : ∀ s request code s', Inv s → allowed s request → step s request = some (code, s') → Inv s')
    (run : Run step allowed initial history s) : Inv s := by
  induction run with
  | start first => exact start _ first
  | step _ permitted answered ih => exact step_ _ _ _ _ ih permitted answered

/-- `Inv` holds initially, and an allowed request is answered and keeps it. -/
structure Inductive (step : σ → ρ → Option (κ × σ)) (allowed : σ → ρ → Prop) (initial : σ → Prop) (Inv : σ → Prop) :
    Prop where
  start : ∀ s, initial s → Inv s
  step : ∀ s request, Inv s → allowed s request → ∃ code s', step s request = some (code, s') ∧ Inv s'

variable {Inv : σ → Prop} {history : List (ρ × κ)} {s : σ}

theorem Run.invariant (inductive_ : Inductive step allowed initial Inv)
    (run : Run step allowed initial history s) :
    Inv s := by
  refine run.preserved inductive_.start fun s request code s' inv permitted answered => ?_
  obtain ⟨code, s', answer, kept⟩ := inductive_.step _ _ inv permitted
  rw [answered] at answer
  obtain ⟨_, rfl⟩ := Prod.mk.inj (Option.some.inj answer)
  exact kept

/-- No run gets stuck on an allowed request. -/
theorem Run.answered (inductive_ : Inductive step allowed initial Inv)
    (run : Run step allowed initial history s)
    {request : ρ} (permitted : allowed s request) :
    ∃ code s', step s request = some (code, s') := by
  obtain ⟨code, s', answer, _⟩ := inductive_.step _ _ (run.invariant inductive_) permitted
  exact ⟨code, s', answer⟩

/-- A run that goes on from where another one ended. -/
theorem Run.append {later : List (ρ × κ)} {s' : σ} (run : Run step allowed initial history s)
    (next : Run step allowed (· = s) later s') : Run step allowed initial (history ++ later) s' := by
  induction next with
  | start first =>
    obtain rfl := first
    rwa [List.append_nil]
  | step _ permitted answered ih =>
    rw [← List.append_assoc]
    exact .step ih permitted answered

/-- Requests that can be followed, each checked in its state, make a run go on. -/
theorem Run.follow {check : σ → ρ → Bool} (sound : ∀ s request, check s request = true → allowed s request)
    (run : Run step allowed initial history s) {requests : List ρ} {s' : σ}
    (followed : requests.foldlM
      (fun s request => if check s request then (step s request).map Prod.snd else none) s = some s') :
    ∃ history', Run step allowed initial history' s' := by
  induction requests generalizing s history with
  | nil =>
    obtain rfl : s = s' := by simpa using followed
    exact ⟨history, run⟩
  | cons request requests ih =>
    rw [List.foldlM_cons] at followed
    obtain ⟨s₁, first, rest⟩ := Option.bind_eq_some_iff.mp followed
    split at first
    · rename_i checked
      obtain ⟨⟨code, _⟩, answered, rfl⟩ := Option.map_eq_some_iff.mp first
      exact ih (.step run (sound s request checked) answered) rest
    · cases first

/-- The run that takes the requests of a list, with its history. -/
def trace (step : σ → ρ → Option (κ × σ)) (history : List (ρ × κ)) (s : σ) :
    List ρ → Option (List (ρ × κ) × σ)
  | [] => some (history, s)
  | request :: requests => do
    let (code, s) ← step s request
    trace step (history ++ [(request, code)]) s requests

theorem Run.trace (requests : List ρ) {history' : List (ρ × κ)} {s' : σ}
    (run : Run step (fun _ _ => True) initial history s)
    (traced : Runs.trace step history s requests = some (history', s')) :
    Run step (fun _ _ => True) initial history' s' := by
  induction requests generalizing history s with
  | nil =>
    cases traced
    exact run
  | cons request requests ih =>
    obtain ⟨⟨code, s₁⟩, answered, rest⟩ := Option.bind_eq_some_iff.mp traced
    exact ih (.step run trivial answered) rest

/-- A run is a run under any conditions that the invariant and the old ones imply. -/
theorem Run.weaken {allowed' : σ → ρ → Prop} (inductive_ : Inductive step allowed initial Inv)
    (weaker : ∀ s request, Inv s → allowed s request → allowed' s request)
    (run : Run step allowed initial history s) : Run step allowed' initial history s := by
  induction run with
  | start first => exact .start first
  | step earlier permitted answered ih =>
    exact .step ih (weaker _ _ (earlier.invariant inductive_) permitted) answered

/-- The abstract state after a history. -/
def replay (next : α → ρ → κ → α) (a : α) (history : List (ρ × κ)) : α :=
  history.foldl (fun a event => next a event.1 event.2) a

/-- Forward simulation: a relation to an abstract machine that holds initially and that
    every answered request keeps relates the state after any run to the replayed history. -/
theorem Run.refines (Rel : σ → α → Prop) {next : α → ρ → κ → α} {a₀ : α}
    (start : ∀ s, initial s → Rel s a₀) (inductive_ : Inductive step allowed initial Inv)
    (simulates : ∀ s a request code s', Inv s → Rel s a → allowed s request → step s request = some (code, s') →
      Rel s' (next a request code)) (run : Run step allowed initial history s) : Rel s (replay next a₀ history) := by
  induction run with
  | start first => exact start _ first
  | step earlier permitted answered ih =>
    rw [replay, List.foldl_append]
    exact simulates _ _ _ _ _ (earlier.invariant inductive_) ih permitted answered

/-- The histories of an abstract machine that chooses, with the state that they reach. -/
inductive Replays (next : α → ρ → κ → α → Prop) (a₀ : α) : List (ρ × κ) → α → Prop
  | start : Replays next a₀ [] a₀
  | step {history : List (ρ × κ)} {a a' : α} {request : ρ} {code : κ} : Replays next a₀ history a →
      next a request code a' → Replays next a₀ (history ++ [(request, code)]) a'

/-- Forward simulation by an abstract machine that chooses. -/
theorem Run.simulated (Rel : σ → α → Prop) {next : α → ρ → κ → α → Prop} {a₀ : α}
    (start : ∀ s, initial s → Rel s a₀) (inductive_ : Inductive step allowed initial Inv)
    (simulates : ∀ s a request code s', Inv s → Rel s a → allowed s request → step s request = some (code, s') →
      ∃ a', next a request code a' ∧ Rel s' a') (run : Run step allowed initial history s) :
    ∃ a, Replays next a₀ history a ∧ Rel s a := by
  induction run with
  | start first => exact ⟨a₀, .start, start _ first⟩
  | step earlier permitted answered ih =>
    obtain ⟨a, replays, related⟩ := ih
    obtain ⟨a', moves, related'⟩ := simulates _ _ _ _ _ (earlier.invariant inductive_) related permitted answered
    exact ⟨a', replays.step moves, related'⟩

end Runs
