import Mathlib.Data.Fin.Tuple.Basic
import Mathlib.Logic.Function.Basic

/-! # A pair of 8259 interrupt controllers

The two chips of a PC: requests, masks and interrupts in service, the commands
that initialise a chip and end an interrupt, and what the processor is told when
it acknowledges.  Fully nested mode; the rotation of priorities is left out.
-/

namespace Pic8259

abbrev Line := Fin 8

/-- What the next byte for the data port is taken for. -/
inductive Stage
  | ready
  | icw2
  | icw3
  | icw4

structure Chip where
  offset : BitVec 8
  imr : BitVec 8
  irr : Line → Bool
  isr : Line → Bool
  stage : Stage
  single : Bool
  needs4 : Bool
  automatic : Bool

namespace Chip

variable (c : Chip)

/-- The interrupt in service of the highest priority is over. -/
def endOfInterrupt : Chip :=
  match Fin.find? c.isr with
  | none => c
  | some i => { c with isr := Function.update c.isr i false }

/-- A byte for the command port. -/
def command (v : BitVec 8) : Chip :=
  if v.getLsbD 4 then
    { c with
      imr := 0, irr := fun _ => false, isr := fun _ => false, stage := .icw2
      single := v.getLsbD 1, needs4 := v.getLsbD 0, automatic := false }
  else if v.getLsbD 3 then c
  else if v.extractLsb' 5 3 = 0b001 then c.endOfInterrupt
  else if v.extractLsb' 5 3 = 0b011 then
    { c with isr := Function.update c.isr (v.extractLsb' 0 3).toFin false }
  else c

/-- The stage behind the words that every initialisation has. -/
def lastStage : Stage := if c.needs4 then .icw4 else .ready

/-- A byte for the data port. -/
def data (v : BitVec 8) : Chip :=
  match c.stage with
  | .ready => { c with imr := v }
  | .icw2 => { c with offset := v &&& 0xF8, stage := if c.single then c.lastStage else .icw3 }
  | .icw3 => { c with stage := c.lastStage }
  | .icw4 => { c with automatic := v.getLsbD 1, stage := .ready }

def raise (i : Line) : Chip := { c with irr := Function.update c.irr i true }

/-- A request is passed on unless it is masked or something of no lower priority is in service. -/
def Passes (i : Line) : Prop := c.irr i = true ∧ c.imr.getLsbD i = false ∧ ∀ j ≤ i, c.isr j = false

instance (i : Line) : Decidable (c.Passes i) := inferInstanceAs (Decidable (_ ∧ _ ∧ ∀ j ≤ i, _))

def pending : Option Line := Fin.find? fun i => c.Passes i

def take (i : Line) : Chip :=
  { c with
    irr := Function.update c.irr i false
    isr := if c.automatic then c.isr else Function.update c.isr i true }

def vector (i : Line) : BitVec 8 := c.offset ||| BitVec.ofNat 8 i

end Chip

structure Pair where
  master : Chip
  slave : Chip

namespace Pair

variable (p : Pair)

/-- The line of the master that the slave is wired to. -/
abbrev slaveLine : Line := ⟨2, by decide⟩

def cascaded : Chip := { p.master with irr := Function.update p.master.irr slaveLine p.slave.pending.isSome }

def raise (irq : Fin 16) : Pair :=
  if low : irq.val < 8 then { p with master := p.master.raise ⟨irq, low⟩ }
  else { p with slave := p.slave.raise ⟨irq - 8, by omega⟩ }

/-- What the processor is told, if a request is passed on to it. -/
def acknowledge : Option (BitVec 8 × Pair) := do
  let i ← p.cascaded.pending
  if i = slaveLine then
    let j ← p.slave.pending
    some (p.slave.vector j, ⟨p.cascaded.take i, p.slave.take j⟩)
  else some (p.master.vector i, ⟨p.cascaded.take i, p.slave⟩)

/-- A byte for one of the four ports. -/
def out (port : BitVec 16) (v : BitVec 8) : Pair :=
  if port = 0x20 then { p with master := p.master.command v }
  else if port = 0x21 then { p with master := p.master.data v }
  else if port = 0xA0 then { p with slave := p.slave.command v }
  else if port = 0xA1 then { p with slave := p.slave.data v }
  else p

end Pair

/-! ## What is passed on -/

namespace Chip

variable {c c' : Chip} {i : Line}

theorem pending_eq_some_iff : c.pending = some i ↔ c.Passes i ∧ ∀ j < i, ¬ c.Passes j := by
  simp [pending]

theorem endOfInterrupt_eq (service : c.isr i = true) (first : ∀ j < i, c.isr j = false) :
    c.endOfInterrupt = { c with isr := Function.update c.isr i false } := by
  rw [endOfInterrupt, Fin.find?_eq_some_iff.mpr ⟨service, first⟩]

theorem data_ready {v : BitVec 8} (ready : c.stage = .ready) : c.data v = { c with imr := v } := by
  obtain ⟨_, _, _, _, stage, _, _, _⟩ := c
  obtain rfl : stage = .ready := ready
  rfl

/-- The chip apart from its requests. -/
def quiet (c : Chip) : Chip := { c with irr := fun _ => false }

theorem quiet_raise : (c.raise i).quiet = c.quiet := rfl

theorem quiet_endOfInterrupt : c.quiet.endOfInterrupt.quiet = c.endOfInterrupt.quiet := by
  cases found : Fin.find? c.isr with
  | none =>
    have found' : Fin.find? c.quiet.isr = none := found
    rw [endOfInterrupt, endOfInterrupt, found, found']
    rfl
  | some i =>
    have found' : Fin.find? c.quiet.isr = some i := found
    rw [endOfInterrupt, endOfInterrupt, found, found']
    rfl

/-- What the bytes do to a chip does not depend on its requests. -/
theorem quiet_command (v : BitVec 8) : (c.quiet.command v).quiet = (c.command v).quiet := by
  unfold command
  split
  · rfl
  · split
    · rfl
    · split
      · exact quiet_endOfInterrupt
      · split
        · rfl
        · rfl

theorem quiet_data (v : BitVec 8) : (c.quiet.data v).quiet = (c.data v).quiet := by
  obtain ⟨_, _, _, _, stage, _, _, _⟩ := c
  cases stage <;> rfl

end Chip

namespace Pair

variable {p p' : Pair} {irq : Fin 16}

def quiet (p : Pair) : Pair := ⟨p.master.quiet, p.slave.quiet⟩

theorem quiet_raise : (p.raise irq).quiet = p.quiet := by
  unfold raise
  split
  · rfl
  · rfl

theorem quiet_out (port : BitVec 16) (v : BitVec 8) : (p.quiet.out port v).quiet = (p.out port v).quiet := by
  unfold out
  split
  · simp only [quiet, Chip.quiet_command]
    rfl
  · split
    · simp only [quiet, Chip.quiet_data]
      rfl
    · split
      · simp only [quiet, Chip.quiet_command]
        rfl
      · split
        · simp only [quiet, Chip.quiet_data]
          rfl
        · rfl

theorem acknowledge_cases {v : BitVec 8} (answer : p.acknowledge = some (v, p')) :
    ∃ i, p.cascaded.Passes i ∧
      ((i ≠ slaveLine ∧ v = p.master.vector i ∧ p' = ⟨p.cascaded.take i, p.slave⟩) ∨
        ∃ j, i = slaveLine ∧ v = p.slave.vector j ∧ p' = ⟨p.cascaded.take i, p.slave.take j⟩) := by
  simp only [acknowledge, Option.bind_eq_bind, Option.bind_eq_some_iff] at answer
  obtain ⟨i, pending, answer⟩ := answer
  refine ⟨i, (Chip.pending_eq_some_iff.mp pending).1, ?_⟩
  split at answer
  · rename_i cascade
    obtain ⟨j, _, answer⟩ := Option.bind_eq_some_iff.mp answer
    obtain ⟨rfl, rfl⟩ := Prod.mk.inj (Option.some.inj answer)
    exact .inr ⟨j, cascade, rfl, rfl⟩
  · rename_i own
    obtain ⟨rfl, rfl⟩ := Prod.mk.inj (Option.some.inj answer)
    exact .inl ⟨own, rfl, rfl⟩

end Pair

end Pic8259
