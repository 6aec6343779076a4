import Brother420.Library.Pic8259
import Brother420.Library.Runs

/-! # Acknowledged and forgotten interrupts

`kernel_setup` moves the vectors of the interrupt controllers, lets interrupts
in, and masks all but the keyboard a moment later.  The kernel acknowledges the
interrupts of the keyboard only, so one of the timer that comes in that moment
stays in service and keeps the keyboard out from then on.
-/

namespace Brother420.Interrupts

open Pic8259 Runs

def pic1Offset : BitVec 8 := 0x20

def pic2Offset : BitVec 8 := 0x28

def pic1Command : BitVec 16 := 0x20

def pic1Data : BitVec 16 := pic1Command + 1

def pic2Command : BitVec 16 := 0xA0

def pic2Data : BitVec 16 := pic2Command + 1

def picAckByte : BitVec 8 := 0x20

def picDisableAllMask : BitVec 8 := 0xFF

def irqKeyboard : Nat := 1

def icw1Init : BitVec 8 := 0x10

def icw1Icw4 : BitVec 8 := 0x01

def icw4_8086 : BitVec 8 := 0x01

/-! ## What the kernel does -/

/-- The instructions that interrupts depend on. -/
inductive Op
  | out (port : BitVec 16) (data : BitVec 8)
  | loadA1
  | loadA2
  | storeA1
  | storeA2
  | sti
  deriving DecidableEq

structure System where
  pics : Pair
  a1 : BitVec 8
  a2 : BitVec 8
  interruptFlag : Bool
  setup : List Op
  handler : Option (BitVec 8)

def ioWait : Op := .out 0x80 0

def picRemap : List Op :=
  -- save masks
  [.loadA1, .loadA2,
    .out pic1Command (icw1Init ||| icw1Icw4), ioWait,
    .out pic2Command (icw1Init ||| icw1Icw4), ioWait,
    .out pic1Data pic1Offset, ioWait,
    .out pic2Data pic2Offset, ioWait,
    .out pic1Data 0b0100, ioWait,
    .out pic2Data 0b0010, ioWait,
    .out pic1Data icw4_8086, ioWait,
    .out pic2Data icw4_8086, ioWait,
    -- restore masks
    .storeA1, .storeA2]

def activateKeyboardInterrupt : List Op :=
  [.out pic1Data (picDisableAllMask ^^^ 1 <<< irqKeyboard), .out pic2Data picDisableAllMask]

/-- `pic_remap`, the `sti` at the end of `initialize_idt`, and `activate_keyboard_interrupt`. -/
def kernelSetup : List Op := picRemap ++ .sti :: activateKeyboardInterrupt

def exec (s : System) : Op → System
  | .out port data => { s with pics := s.pics.out port data }
  | .loadA1 => { s with a1 := s.pics.master.imr }
  | .loadA2 => { s with a2 := s.pics.slave.imr }
  | .storeA1 => { s with pics := s.pics.out pic1Data s.a1 }
  | .storeA2 => { s with pics := s.pics.out pic2Data s.a2 }
  | .sti => { s with interruptFlag := true }

def picAck (pics : Pair) (irq : Nat) : Pair :=
  let pics := if irq ≥ 8 then pics.out pic2Command picAckByte else pics
  pics.out pic1Command picAckByte

/-- What a handler leaves behind in the controllers.  Of the vectors of devices, `main_interrupt_handler` knows that of
the keyboard; `keyboard_isr` ends with its acknowledgement. -/
def mainInterruptHandler (pics : Pair) (intNumber : BitVec 8) : Pair :=
  if intNumber = pic1Offset + BitVec.ofNat 8 irqKeyboard then picAck pics irqKeyboard else pics

inductive Action
  | raise (irq : Fin 16)
  /-- The next instruction of the set-up. -/
  | setup
  /-- A gate or `sti`, in a program or a system call. -/
  | flag (on : Bool)
  /-- The processor takes an interrupt. -/
  | interrupt
  /-- Its handler returns. -/
  | finish
  deriving DecidableEq

/-- The answer is the vector of an interrupt that is taken. -/
def step (s : System) : Action → Option (Option (BitVec 8) × System)
  | .raise irq => some (none, { s with pics := s.pics.raise irq })
  | .setup =>
    match s.handler, s.setup with
    | none, op :: rest => some (none, { exec s op with setup := rest })
    | _, _ => none
  | .flag on =>
    match s.handler, s.setup with
    | none, [] => some (none, { s with interruptFlag := on })
    | _, _ => none
  | .interrupt =>
    if s.interruptFlag ∧ s.handler = none then do
      let (vector, pics) ← s.pics.acknowledge
      some (some vector, { s with pics, interruptFlag := false, handler := some vector })
    else none
  | .finish =>
    match s.handler with
    | none => none
    | some vector =>
      some (none, { s with pics := mainInterruptHandler s.pics vector, interruptFlag := true, handler := none })

/-- Interrupts are off, and the controllers are as the firmware has left them. -/
structure PowerOn (s : System) : Prop where
  interruptFlag : s.interruptFlag = false
  setup : s.setup = kernelSetup
  handler : s.handler = none

variable {s s' : System} {history : List (Action × Option (BitVec 8))} {l : List Op} {p p' : Pair} {v : BitVec 8}
  {answer : Option (BitVec 8)} {action : Action}

/-! ## Up to the sti -/

/-- A chip that awaits masks and acknowledgements, with nothing requested and nothing in service. -/
def initialised (offset imr : BitVec 8) : Chip :=
  ⟨offset, imr, fun _ => false, fun _ => false, .ready, false, true, false⟩

def Remapped (p : Pair) : Prop := ∃ m₁ m₂, p.quiet = ⟨initialised pic1Offset m₁, initialised pic2Offset m₂⟩

theorem remapped (s : System) : Remapped (picRemap.foldl exec s).pics := ⟨s.pics.master.imr, s.pics.slave.imr, rfl⟩

/-- Two systems with the same chips, apart from what is requested. -/
structure Alike (s s' : System) : Prop where
  pics : s.pics.quiet = s'.pics.quiet
  a1 : s.a1 = s'.a1
  a2 : s.a2 = s'.a2

theorem quiet_out_congr (same : p.quiet = p'.quiet) (port : BitVec 16) (data : BitVec 8) :
    (p.out port data).quiet = (p'.out port data).quiet := by
  rw [← Pair.quiet_out, same, Pair.quiet_out]

theorem Alike.exec (alike : Alike s s') (op : Op) : Alike (exec s op) (exec s' op) := by
  cases op with
  | out port data => exact ⟨quiet_out_congr alike.pics port data, alike.a1, alike.a2⟩
  | loadA1 =>
    have imr : s.pics.quiet.master.imr = s'.pics.quiet.master.imr := congrArg (fun p : Pair => p.master.imr) alike.pics
    exact ⟨alike.pics, imr, alike.a2⟩
  | loadA2 =>
    have imr : s.pics.quiet.slave.imr = s'.pics.quiet.slave.imr := congrArg (fun p : Pair => p.slave.imr) alike.pics
    exact ⟨alike.pics, alike.a1, imr⟩
  | storeA1 =>
    refine ⟨?_, alike.a1, alike.a2⟩
    simp only [Interrupts.exec, alike.a1]
    exact quiet_out_congr alike.pics _ _
  | storeA2 =>
    refine ⟨?_, alike.a1, alike.a2⟩
    simp only [Interrupts.exec, alike.a2]
    exact quiet_out_congr alike.pics _ _
  | sti => exact ⟨alike.pics, alike.a1, alike.a2⟩

theorem Alike.run (alike : Alike s s') : Alike (l.foldl Interrupts.exec s) (l.foldl Interrupts.exec s') := by
  induction l generalizing s s' with
  | nil => exact alike
  | cons op l ih => exact ih (alike.exec op)

/-- The instructions `l` of `pic_remap` are still to come. -/
structure Before (s : System) (l : List Op) : Prop where
  setup : s.setup = l ++ .sti :: activateKeyboardInterrupt
  suffix : l <:+ picRemap
  interruptFlag : s.interruptFlag = false
  handler : s.handler = none
  remapped : Remapped (l.foldl exec s).pics

/-- What holds from `sti` on, where `timer` says whether an interrupt of the timer has been taken. -/
structure After (s : System) (timer : Prop) : Prop where
  offset : s.pics.master.offset = pic1Offset ∧ s.pics.slave.offset = pic2Offset
  stage : s.pics.master.stage = .ready ∧ s.pics.slave.stage = .ready
  automatic : s.pics.master.automatic = false
  setup : s.setup <:+ activateKeyboardInterrupt
  mask : s.setup ≠ activateKeyboardInterrupt → s.pics.master.imr = 0xFD
  idle : s.handler = none → s.pics.master.isr 1 = false
  keyboard : s.handler = some 0x21 → s.pics.master.isr 1 = true ∧ s.pics.master.isr 0 = false
  others : ∀ v ≠ 0x21, s.handler = some v → s.pics.master.isr 1 = false
  timer : s.pics.master.isr 0 = true ↔ timer

theorem PowerOn.before (start : PowerOn s) : Before s picRemap :=
  ⟨start.setup, List.suffix_rfl, start.interruptFlag, start.handler, remapped s⟩

theorem exec_handler (s : System) (op : Op) : (exec s op).handler = s.handler := by cases op <;> rfl

theorem exec_interruptFlag {op : Op} (other : op ≠ .sti) : (exec s op).interruptFlag = s.interruptFlag := by
  cases op with
  | sti => exact absurd rfl other
  | _ => rfl

theorem Before.after (before : Before s []) : After { exec s .sti with setup := activateKeyboardInterrupt } False := by
  obtain ⟨m₁, m₂, same⟩ := before.remapped
  have master : s.pics.master.quiet = initialised pic1Offset m₁ := congrArg Pair.master same
  have slave : s.pics.slave.quiet = initialised pic2Offset m₂ := congrArg Pair.slave same
  have nothing : s.pics.master.isr = fun _ => false := congrArg Chip.isr master
  exact {
    offset := ⟨congrArg Chip.offset master, congrArg Chip.offset slave⟩
    stage := ⟨congrArg Chip.stage master, congrArg Chip.stage slave⟩
    automatic := congrArg Chip.automatic master
    setup := List.suffix_rfl
    mask := fun other => absurd rfl other
    idle := fun _ => congrFun nothing 1
    keyboard := fun busy => nomatch busy.symm.trans before.handler
    others := fun _ _ busy => nomatch busy.symm.trans before.handler
    timer := by
      have zero : s.pics.master.isr 0 = false := congrFun nothing 0
      simp [exec, zero] }

theorem Before.step (before : Before s l) (answered : Interrupts.step s action = some (answer, s')) :
    answer = none ∧ ((∃ l', Before s' l') ∨ After s' False) := by
  cases action with
  | raise irq =>
    cases answered
    have alike : Alike { s with pics := s.pics.raise irq } s := ⟨Pair.quiet_raise, rfl, rfl⟩
    obtain ⟨m₁, m₂, same⟩ := before.remapped
    exact ⟨rfl, .inl ⟨l, before.setup, before.suffix, before.interruptFlag, before.handler, m₁, m₂,
      alike.run.pics.trans same⟩⟩
  | setup =>
    simp only [Interrupts.step, before.handler, before.setup] at answered
    cases l with
    | nil =>
      cases answered
      exact ⟨rfl, .inr before.after⟩
    | cons op l =>
      cases answered
      have member : op ∈ picRemap := before.suffix.mem List.mem_cons_self
      have other : op ≠ .sti := by
        rintro rfl
        revert member
        decide
      have alike : Alike { exec s op with setup := l ++ .sti :: activateKeyboardInterrupt } (exec s op) :=
        ⟨rfl, rfl, rfl⟩
      obtain ⟨m₁, m₂, same⟩ := before.remapped
      exact ⟨rfl, .inl ⟨l, rfl, (List.suffix_cons op l).trans before.suffix,
        (exec_interruptFlag other).trans before.interruptFlag, (exec_handler s op).trans before.handler, m₁, m₂,
        alike.run.pics.trans same⟩⟩
  | flag on =>
    simp only [Interrupts.step, before.handler, before.setup] at answered
    cases l <;> cases answered
  | interrupt => simp [Interrupts.step, before.interruptFlag] at answered
  | finish => simp [Interrupts.step, before.handler] at answered

/-! ## Behind the sti -/

variable {timer : Prop}

/-- Neither requests nor the flag matter. -/
theorem After.of_quiet (after : After s timer) (same : s'.pics.quiet = s.pics.quiet) (setup : s'.setup = s.setup)
    (handler : s'.handler = s.handler) : After s' timer := by
  have master : s'.pics.master.quiet = s.pics.master.quiet := congrArg Pair.master same
  have slave : s'.pics.slave.quiet = s.pics.slave.quiet := congrArg Pair.slave same
  have isr : s'.pics.master.quiet.isr = s.pics.master.quiet.isr := congrArg Chip.isr master
  have imr : s'.pics.master.quiet.imr = s.pics.master.quiet.imr := congrArg Chip.imr master
  simp only [Chip.quiet] at isr imr
  refine ⟨⟨?_, ?_⟩, ⟨?_, ?_⟩, ?_, setup ▸ after.setup, ?_, ?_, ?_, ?_, ?_⟩
  · exact (congrArg Chip.offset master).trans after.offset.1
  · exact (congrArg Chip.offset slave).trans after.offset.2
  · exact (congrArg Chip.stage master).trans after.stage.1
  · exact (congrArg Chip.stage slave).trans after.stage.2
  · exact (congrArg Chip.automatic master).trans after.automatic
  · rw [setup, imr]
    exact after.mask
  · rw [handler, isr]
    exact after.idle
  · rw [handler, isr]
    exact after.keyboard
  · rw [handler, isr]
    exact after.others
  · rw [isr]
    exact after.timer

theorem out_pic1Data (ready : p.master.stage = .ready) :
    p.out pic1Data v = { p with master := { p.master with imr := v } } :=
  congrArg (fun master => { p with master }) (Chip.data_ready ready)

theorem out_pic2Data (ready : p.slave.stage = .ready) :
    p.out pic2Data v = { p with slave := { p.slave with imr := v } } :=
  congrArg (fun slave => { p with slave }) (Chip.data_ready ready)

theorem After.congr {timer' : Prop} (after : After s timer) (same : timer ↔ timer') : After s timer' :=
  propext same ▸ after

theorem After.next (after : After s timer) {op : Op} {rest : List Op} (next : s.setup = op :: rest) :
    After { exec s op with setup := rest } timer := by
  have suffix := after.setup
  have mask := after.mask
  rw [next] at suffix mask
  have last : ∀ l, l <:+ activateKeyboardInterrupt.tail → l ≠ activateKeyboardInterrupt := by
    rintro l short rfl
    exact absurd short.length_le (by decide)
  cases List.suffix_cons_iff.mp suffix with
  | inl first =>
    obtain ⟨rfl, rfl⟩ := List.cons.inj first
    simp only [exec, out_pic1Data after.stage.1]
    exact ⟨after.offset, after.stage, after.automatic, List.suffix_cons _ _, fun _ => rfl, after.idle, after.keyboard,
      after.others, after.timer⟩
  | inr later =>
    have masked := mask (last _ later)
    cases List.suffix_cons_iff.mp later with
    | inl second =>
      obtain ⟨rfl, rfl⟩ := List.cons.inj second
      simp only [exec, out_pic2Data after.stage.2]
      exact ⟨after.offset, after.stage, after.automatic, List.nil_suffix, fun _ => masked, after.idle, after.keyboard,
        after.others, after.timer⟩
    | inr none => exact absurd none (by simp)

/-- The vectors of the master are those of its lines, and the slave has others. -/
theorem vectors : (∀ i : Line, pic1Offset ||| BitVec.ofNat 8 i = 0x20 ↔ i = 0) ∧
    (∀ i : Line, pic1Offset ||| BitVec.ofNat 8 i = 0x21 ↔ i = 1) ∧
    (∀ j : Line, pic2Offset ||| BitVec.ofNat 8 j ≠ 0x20 ∧ pic2Offset ||| BitVec.ofNat 8 j ≠ 0x21) := by
  decide

theorem After.interrupted (after : After s timer) (idle : s.handler = none)
    (answered : s.pics.acknowledge = some (v, p')) :
    After { s with pics := p', interruptFlag := false, handler := some v } (timer ∨ v = 0x20) := by
  obtain ⟨i, ⟨_, _, free⟩, told⟩ := Pair.acknowledge_cases answered
  have one := after.idle idle
  have automatic : s.pics.cascaded.automatic = false := after.automatic
  have isr : (s.pics.cascaded.take i).isr = Function.update s.pics.master.isr i true := by
    rw [Chip.take, automatic]
    rfl
  have zero : i ≠ 0 → (s.pics.cascaded.take i).isr 0 = s.pics.master.isr 0 := fun other => by
    rw [isr, Function.update_of_ne other.symm]
  have kept : i ≠ 1 → (s.pics.cascaded.take i).isr 1 = false := fun other => by
    rw [isr, Function.update_of_ne other.symm, one]
  obtain ⟨timerLine, keyboardLine, slaveLines⟩ := vectors
  obtain ⟨_, rfl, rfl⟩ | ⟨j, rfl, rfl, rfl⟩ := told
  · have vector : s.pics.master.vector i = pic1Offset ||| BitVec.ofNat 8 i := by rw [Chip.vector, after.offset.1]
    rw [vector]
    refine ⟨after.offset, after.stage, after.automatic, after.setup, after.mask, (fun none => nomatch none), fun taken => ?_,
      fun w other taken => ?_, ?_⟩
    · obtain rfl := (keyboardLine i).mp (Option.some.inj taken)
      exact ⟨(congrFun isr 1).trans (by simp), (zero (by decide)).trans (free 0 (by decide))⟩
    · obtain rfl := Option.some.inj taken
      exact kept fun same => other ((keyboardLine i).mpr same)
    · by_cases first : i = 0
      · subst first
        exact iff_of_true ((congrFun isr 0).trans (by simp)) (.inr ((timerLine 0).mpr rfl))
      · rw [timerLine i, or_iff_left first, ← after.timer, ← zero first]
  · have vector : s.pics.slave.vector j = pic2Offset ||| BitVec.ofNat 8 j := by rw [Chip.vector, after.offset.2]
    obtain ⟨notTimer, notKeyboard⟩ := slaveLines j
    rw [vector]
    refine ⟨after.offset, after.stage, after.automatic, after.setup, after.mask, (fun none => nomatch none), fun taken => ?_,
      fun _ _ _ => kept (by decide), ?_⟩
    · exact absurd (Option.some.inj taken) notKeyboard
    · rw [or_iff_left notTimer, ← after.timer, ← zero (by decide)]

theorem picAck_keyboard (service : p.master.isr 1 = true) (first : p.master.isr 0 = false) :
    picAck p irqKeyboard = { p with master := { p.master with isr := Function.update p.master.isr 1 false } } := by
  have before : ∀ j : Line, j < 1 → p.master.isr j = false := fun j low => by
    obtain rfl : j = 0 := Fin.ext (Nat.lt_one_iff.mp low)
    exact first
  have ended : p.master.command picAckByte = { p.master with isr := Function.update p.master.isr 1 false } :=
    Chip.endOfInterrupt_eq service before
  exact congrArg (fun master => { p with master }) ended

theorem After.finished (after : After s timer) (busy : s.handler = some v) :
    After { s with pics := mainInterruptHandler s.pics v, interruptFlag := true, handler := none } timer := by
  have vector : pic1Offset + BitVec.ofNat 8 irqKeyboard = 0x21 := by decide
  rw [mainInterruptHandler, vector]
  by_cases keyboard : v = 0x21
  · obtain ⟨service, first⟩ := after.keyboard (busy.trans (congrArg some keyboard))
    rw [if_pos keyboard, picAck_keyboard service first]
    refine ⟨after.offset, after.stage, after.automatic, after.setup, after.mask, fun _ => by simp,
      (fun none => nomatch none), (fun _ _ none => nomatch none), ?_⟩
    have kept : Function.update s.pics.master.isr 1 false 0 = s.pics.master.isr 0 :=
      Function.update_of_ne (by decide) _ _
    rw [← after.timer, ← kept]
  · rw [if_neg keyboard]
    exact ⟨after.offset, after.stage, after.automatic, after.setup, after.mask, fun _ => after.others v keyboard busy,
      (fun none => nomatch none), (fun _ _ none => nomatch none), after.timer⟩

theorem After.step (after : After s timer) (answered : Interrupts.step s action = some (answer, s')) :
    After s' (timer ∨ action = .interrupt ∧ answer = some 0x20) := by
  cases action with
  | raise irq =>
    cases answered
    exact After.congr (after.of_quiet Pair.quiet_raise rfl rfl) (by simp)
  | setup =>
    simp only [Interrupts.step] at answered
    split at answered
    · rename_i next
      cases answered
      exact (after.next next).congr (by simp)
    · cases answered
  | flag on =>
    simp only [Interrupts.step] at answered
    split at answered
    · cases answered
      exact After.congr (after.of_quiet rfl rfl rfl) (by simp)
    · cases answered
  | interrupt =>
    simp only [Interrupts.step] at answered
    split at answered
    · rename_i allowed
      simp only [Option.bind_eq_bind, Option.bind_eq_some_iff] at answered
      obtain ⟨⟨vector, pics⟩, acknowledged, taken⟩ := answered
      cases taken
      exact (after.interrupted allowed.2 acknowledged).congr (by simp)
    · cases answered
  | finish =>
    simp only [Interrupts.step] at answered
    split at answered
    · cases answered
    · rename_i busy
      cases answered
      exact (after.finished busy).congr (by simp)

/-! ## Every run -/

theorem run_reaches (run : Run Interrupts.step (fun _ _ => True) PowerOn history s) :
    ((∃ l, Before s l) ∧ (Action.interrupt, some (0x20 : BitVec 8)) ∉ history) ∨
      After s ((.interrupt, some 0x20) ∈ history) := by
  induction run with
  | start first => exact .inl ⟨⟨_, first.before⟩, List.not_mem_nil⟩
  | @step earlier s₀ s action answer _ _ answered ih =>
    have last : ((Action.interrupt, some (0x20 : BitVec 8)) ∈ earlier ++ [(action, answer)]) ↔
        (.interrupt, some 0x20) ∈ earlier ∨ action = .interrupt ∧ answer = some 0x20 := by
      simp [eq_comm]
    cases ih with
    | inl waiting =>
      obtain ⟨⟨l, before⟩, never⟩ := waiting
      obtain ⟨rfl, next⟩ := before.step answered
      have never' : (Action.interrupt, some (0x20 : BitVec 8)) ∉ earlier ++ [(action, none)] := by
        rw [last]
        exact fun taken => taken.elim never fun other => nomatch other.2
      cases next with
      | inl before => exact .inl ⟨before, never'⟩
      | inr after => exact .inr (after.congr (iff_of_false id never'))
    | inr after => exact .inr ((after.step answered).congr last.symm)

theorem only_keyboard : ∀ i : Line, (0xFD : BitVec 8).getLsbD i = false ↔ i = 1 := by decide

section Done

variable (after : After s timer) (done : s.setup = [])

include after done

theorem After.masked : s.pics.master.imr = 0xFD := by
  refine after.mask fun same => ?_
  rw [done] at same
  exact absurd (congrArg List.length same) (by decide)

theorem After.vector (answered : s.pics.acknowledge = some (v, p')) : v = 0x21 := by
  obtain ⟨i, ⟨_, unmasked, _⟩, told⟩ := Pair.acknowledge_cases answered
  have open_ : s.pics.master.imr.getLsbD i = false := unmasked
  rw [after.masked done, only_keyboard] at open_
  subst open_
  obtain ⟨_, rfl, _⟩ | ⟨_, cascade, _⟩ := told
  · rw [Chip.vector, after.offset.1]
    decide
  · exact absurd cascade (by decide)

theorem After.raised (idle : s.handler = none) :
    (∃ p, (s.pics.raise 1).acknowledge = some (0x21, p)) ↔ s.pics.master.isr 0 = false := by
  have requested : (s.pics.raise 1).cascaded.irr 1 = true := by simp [Pair.cascaded, Pair.raise, Chip.raise]
  have imr : (s.pics.raise 1).cascaded.imr = 0xFD := after.masked done
  have isr : (s.pics.raise 1).cascaded.isr = s.pics.master.isr := rfl
  constructor
  · rintro ⟨p, answered⟩
    obtain ⟨i, ⟨_, _, free⟩, _⟩ := Pair.acknowledge_cases answered
    exact free 0 (Fin.zero_le i)
  · intro free
    have passes : (s.pics.raise 1).cascaded.pending = some 1 := by
      refine Chip.pending_eq_some_iff.mpr ⟨⟨requested, by rw [imr]; decide, fun j low => ?_⟩, fun j low passes => ?_⟩
      · rw [isr]
        by_cases first : j = 0
        · exact first ▸ free
        · have one : j.val ≤ 1 := low
          have notZero : j.val ≠ 0 := fun zero => first (Fin.ext zero)
          obtain rfl : j = 1 := Fin.ext (Nat.le_antisymm one (Nat.one_le_iff_ne_zero.mpr notZero))
          exact after.idle idle
      · have unmasked := passes.2.1
        rw [imr, only_keyboard] at unmasked
        exact absurd unmasked (ne_of_lt low)
    have vector : (s.pics.raise 1).master.vector 1 = 0x21 := by
      rw [Chip.vector, show (s.pics.raise 1).master.offset = pic1Offset from after.offset.1]
      decide
    refine ⟨⟨(s.pics.raise 1).cascaded.take 1, (s.pics.raise 1).slave⟩, ?_⟩
    rw [← vector]
    simp only [Pair.acknowledge, passes, Option.bind_eq_bind, Option.bind_some]
    rfl

end Done

theorem interrupt_answered (idle : s.handler = none) (enabled : s.interruptFlag = true) :
    (∃ s', Interrupts.step s .interrupt = some (some v, s')) ↔ ∃ p, s.pics.acknowledge = some (v, p) := by
  simp only [Interrupts.step, enabled, idle, and_self, ↓reduceIte, Option.bind_eq_bind]
  constructor
  · rintro ⟨s', answered⟩
    obtain ⟨⟨w, p⟩, acknowledged, same⟩ := Option.bind_eq_some_iff.mp answered
    cases same
    exact ⟨p, acknowledged⟩
  · rintro ⟨p, acknowledged⟩
    exact ⟨_, Option.bind_eq_some_iff.mpr ⟨(v, p), acknowledged, rfl⟩⟩

/-- After the set-up every interrupt is one of the keyboard, and a key press becomes one unless an interrupt of the
timer came before the masks. -/
theorem keyboard_served_iff (run : Run Interrupts.step (fun _ _ => True) PowerOn history s) (done : s.setup = [])
    (idle : s.handler = none) (enabled : s.interruptFlag = true) :
    (∀ v s', Interrupts.step s .interrupt = some (some v, s') → v = 0x21) ∧
      ((∃ s₁ s₂, Interrupts.step s (.raise 1) = some (none, s₁) ∧
          Interrupts.step s₁ .interrupt = some (some 0x21, s₂)) ↔
        (.interrupt, some 0x20) ∉ history) := by
  have after : After s ((.interrupt, some 0x20) ∈ history) := by
    refine (run_reaches run).resolve_left ?_
    rintro ⟨⟨l, before⟩, _⟩
    have more := before.setup
    rw [done] at more
    simp at more
  have pressed := interrupt_answered (s := { s with pics := s.pics.raise 1 }) (v := 0x21) idle enabled
  rw [← after.timer, Bool.not_eq_true, ← after.raised done idle, ← pressed]
  constructor
  · intro v s' answered
    obtain ⟨p, acknowledged⟩ := (interrupt_answered idle enabled).mp ⟨s', answered⟩
    exact after.vector done acknowledged
  · constructor
    · rintro ⟨s₁, s₂, first, answered⟩
      cases first
      exact ⟨s₂, answered⟩
    · rintro ⟨s₂, answered⟩
      exact ⟨_, s₂, rfl, answered⟩

/-- The controllers as a PC starts with them, the interrupts of the timer unmasked. -/
def firmwareChip (offset : BitVec 8) : Chip :=
  ⟨offset, 0, fun _ => false, fun _ => false, .ready, false, true, false⟩

def firmwareSystem : System :=
  ⟨⟨firmwareChip 0x08, firmwareChip 0x70⟩, 0, 0, false, kernelSetup, none⟩

theorem firmwareSystem_powerOn : PowerOn firmwareSystem := ⟨rfl, rfl, rfl⟩

/-- The set-up, with a tick of the timer that is taken behind the `sti` or without. -/
def setupActions (tick : Bool) : List Action :=
  List.replicate 21 .setup ++ (if tick then [.raise 0, .interrupt, .finish] else []) ++ [.setup, .setup]

/-- The set-up that nothing interrupts, and the set-up with one tick. -/
theorem keyboard_served_iff_tick :
    (∃ history s, Run Interrupts.step (fun _ _ => True) PowerOn history s ∧ s.setup = [] ∧
        ∃ s₁ s₂, Interrupts.step s (.raise 1) = some (none, s₁) ∧
          Interrupts.step s₁ .interrupt = some (some 0x21, s₂)) ∧
      ∃ history s, Run Interrupts.step (fun _ _ => True) PowerOn history s ∧ s.setup = [] ∧
        ¬ ∃ s₁ s₂, Interrupts.step s (.raise 1) = some (none, s₁) ∧
          Interrupts.step s₁ .interrupt = some (some 0x21, s₂) := by
  have start : Run Interrupts.step (fun _ _ => True) PowerOn [] firmwareSystem := .start firmwareSystem_powerOn
  constructor
  · have run := start.trace (setupActions false) rfl
    have served := keyboard_served_iff run rfl rfl rfl
    exact ⟨_, _, run, rfl, served.2.mpr (by decide)⟩
  · have run := start.trace (setupActions true) rfl
    have served := keyboard_served_iff run rfl rfl rfl
    exact ⟨_, _, run, rfl, served.2.not.mpr (by decide)⟩

end Brother420.Interrupts
