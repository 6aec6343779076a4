import Brother420.Interrupts.Descriptors

/-! # The interrupt stubs

Between the gate and the kernel stands a stub for each vector.  It saves the
registers on the stack, calls the kernel, and puts back what it has saved.  An
interrupted program goes on as if nothing had happened where the stub expects an
error code on the stack exactly if the processor has put one there.
-/

namespace Brother420.Interrupts

open Ia32

/-- `call_generic_handler`, up to its last instruction `iret`. -/
def callGenericHandler : List Instr :=
  [.push .esp, .push .ebp, .push .edx, .push .ecx, .push .ebx, .push .eax,
    .call,
    .pop .eax, .pop .ebx, .pop .ecx, .pop .edx, .pop .ebp, .pop .esp,
    .addEsp 8, .sti]

def noErrorCodeInterruptHandler (i : Word) : List Instr := .pushImm 0 :: .pushImm i :: callGenericHandler

def errorCodeInterruptHandler (i : Word) : List Instr := .pushImm i :: callGenericHandler

/-- The vectors whose stub is made by `error_code_interrupt_handler`. -/
def stubErrorCodes : List Nat := [8, 10, 11, 12, 13, 14, 17, 30]

def interruptHandler (i : Fin 64) : List Instr :=
  if i.val ∈ stubErrorCodes then errorCodeInterruptHandler (BitVec.ofNat 32 i)
  else noErrorCodeInterruptHandler (BitVec.ofNat 32 i)

/-! ## The handler of the kernel -/

/-- `int_number`, on the stack behind the return address and the six registers of `struct CPURegister`. -/
def intNumber (c : Cpu) : Word := word c.mem (c.reg .esp + 28)

/-- What the machine consists of: the address of the task state segment, the table of the stubs, the code at an
address, what the calls of `keyboard_isr` and of `syscall` make of the processor where they come back, and the address
that `main_interrupt_handler` returns to. -/
structure Machine where
  base : Word
  isrStubTable : Fin 64 → Word
  fetch : Word → Option (List Instr)
  keyboardIsr : Cpu → Option Cpu
  syscall : Cpu → Option Cpu
  back : Word

namespace Machine

variable (m : Machine)

def tables : Tables := Interrupts.tables m.base m.isrStubTable

/-- The stubs are where the table says. -/
def Loaded : Prop := ∀ i, m.fetch (m.isrStubTable i) = some (interruptHandler i)

/-- 0x21 is `PIC1_OFFSET + IRQ_KEYBOARD`. -/
def mainInterruptHandler (c : Cpu) : Option Cpu := do
  let c ← if intNumber c = 0x21 then m.keyboardIsr c else if intNumber c = 0x30 then m.syscall c else some c
  some c.ret

/-- The interrupted program, after the interrupt. -/
def interrupt (c : Cpu) (e : Event) : Option Cpu := do
  let entered ← deliver m.tables c e
  let stub ← m.fetch entered.eip
  let handled ← run m.mainInterruptHandler m.back stub entered
  iret m.tables handled

/-- The processor when `main_interrupt_handler` is called. -/
def calling (c : Cpu) (e : Event) : Option Cpu := do
  let entered ← deliver m.tables c e
  let stub ← m.fetch entered.eip
  let saved ← run m.mainInterruptHandler m.back (stub.takeWhile fun i => !i.isCall) entered
  some (saved.push m.back)

/-- The call for this interrupt, if there is one, comes back as the calling convention has it: with the stack pointer
and the registers of its caller, and with the words above it on the stack as they were.  These are the return address,
the thirteen words of the stub and of the processor, and `depth` words of the interrupted program. -/
def Served (depth : Nat) (c : Cpu) (e : Event) : Prop :=
  ∀ s ∈ m.calling c e,
    (intNumber s = 0x21 → ∃ s' ∈ m.keyboardIsr s, Balanced calleeSaved (depth + 14) s s') ∧
    (intNumber s = 0x30 → ∃ s' ∈ m.syscall s, Balanced calleeSaved (depth + 14) s s')

/-- A program of a level is running, and the task state segment has its stack segment. -/
structure Running (p : Level) (c : Cpu) : Prop where
  code : c.cs = p.code
  stack : c.ss = p.stack
  task : (word c.mem (m.base + BitVec.ofNat 32 8)).setWidth 16 = gdtKernelDataSegmentSelector

/-- The program goes on as if nothing had happened: with its registers and flags, at its instruction and, where it is a
program of the kernel and the interrupt has used its stack, with the first `depth` words on it. -/
def Resumes (depth : Nat) (c : Cpu) (e : Event) : Prop :=
  ∃ c' ∈ m.interrupt c e, c'.reg = c.reg ∧ c'.eip = c.eip ∧ c'.eflags = c.eflags ∧ c'.cs = c.cs ∧ c'.ss = c.ss ∧
    (c.cpl = 0 → ∀ l, l.length ≤ depth → c.Top l → c'.Top l)

end Machine

/-- What a program of a level may expect to be answered. -/
def Answered (p : Level) : Event → Prop
  | .software n => n.val < 64 ∧ n.val ∉ stubErrorCodes ∧ (p = .user → 0x30 ≤ n.val)
  | .external n => n.val < 64 ∧ n.val ∉ stubErrorCodes
  | .exception n _ => n.val ≠ 21 ∧ n.val ≠ 29

variable {m : Machine} {p : Level} {c c' s : Cpu} {e : Event} {i : Fin 64} {l : List Word} {u v w : Word}
  {depth : Nat}

/-! ## The generic handler -/

/-- The first `dropped` words are off the stack, which has the next `n` as before, and the registers are back. -/
structure Restored (c c' : Cpu) (dropped n : Nat) : Prop where
  top : ∀ l, l.length ≤ dropped + n → c.Top l → c'.Top (l.drop dropped)
  esp : c'.reg .esp = c.reg .esp + BitVec.ofNat 32 (4 * dropped)
  reg : ∀ r, r ≠ .esp → c'.reg r = c.reg r
  cs : c'.cs = c.cs
  ss : c'.ss = c.ss

/-- The processor when `call_generic_handler` has called the kernel. -/
def called (back : Word) (c : Cpu) : Cpu :=
  ([Reg.esp, .ebp, .edx, .ecx, .ebx, .eax].foldl (fun c r => c.push (c.reg r)) c).push back

theorem intNumber_called {back : Word} (top : c.Top [u]) : intNumber (called back c) = u := by
  have pushed : (called back c).Top [back, _, _, _, _, _, _, u] :=
    ((((((top.push (by simp)).push (by simp)).push (by simp)).push (by simp)).push (by simp)).push (by simp)).push
      (by simp)
  exact pushed.word (i := 7) rfl

/-- Where the kernel comes back from a call that is balanced, so does `call_generic_handler`. -/
theorem callGenericHandler_run {main : Cpu → Option Cpu} {back : Word} (small : depth < 2 ^ 28)
    (answer : main (called back c) = some s.ret) (body : Balanced calleeSaved (depth + 14) (called back c) s) :
    ∃ c', run main back callGenericHandler c = some c' ∧ Restored c c' 2 (depth + 5) := by
  have eax := (body.call (by omega)).saving (r := .eax) (by omega) (by decide) (by decide)
  have ebx := eax.saving (r := .ebx) (by omega) (by decide) (by decide)
  have ecx := ebx.saving (r := .ecx) (by omega) (by decide) (by decide)
  have edx := ecx.saving (r := .edx) (by omega) (by decide) (by decide)
  have ebp := edx.saving (r := .ebp) (by omega) (by decide) (by decide)
  -- `push esp` and `pop esp` stand around the others
  obtain ⟨t, balanced, ran⟩ : ∃ t : Cpu,
      Balanced [.ebp, .edx, .ecx, .ebx, .eax, .ebx, .ebp, .esi, .edi] (depth + 8) (c.push (c.reg .esp)) t ∧
        run main back callGenericHandler c = some (((t.pop .esp).addEsp 8).sti) := by
    refine ⟨_, ebp, ?_⟩
    have step : run main back callGenericHandler c = (main (called back c)).bind fun s =>
        some ((((((((s.pop .eax).pop .ebx).pop .ecx).pop .edx).pop .ebp).pop .esp).addEsp 8).sti) := rfl
    rw [step, answer]
    rfl
  have esp : t.reg .esp = c.reg .esp - 4 := by rw [balanced.esp, Cpu.push_esp]
  have popped : (t.pop .esp).reg .esp = c.reg .esp := by
    have alone : (c.push (c.reg .esp)).Top [c.reg .esp] := Cpu.Top.push (l := []) trivial (by decide)
    exact (balanced.frame _ alone (by simp)).pop_self
  refine ⟨_, ran, ?_, ?_, fun r other => ?_, balanced.cs.trans Cpu.push_cs, balanced.ss.trans Cpu.push_ss⟩
  · intro l short top
    have kept := balanced.frame _ (top.push (v := c.reg .esp) (by omega)) (by simp; omega)
    have back := kept.pop_stackPointer (by rw [esp, BitVec.sub_add_cancel])
    match l with
    | [] | [_] => exact trivial
    | _ :: _ :: l => exact Cpu.top_sti.mpr back.addEsp_two
  · rw [Cpu.sti_reg, Cpu.addEsp_esp, popped]
    rfl
  · have member : r ∈ [Reg.ebp, .edx, .ecx, .ebx, .eax, .ebx, .ebp, .esi, .edi] := by cases r <;> simp at other ⊢
    rw [Cpu.sti_reg, Cpu.addEsp_reg other, Cpu.pop_reg other other, balanced.kept r member, Cpu.push_reg other]

/-! ## The stubs -/

/-- What the stub itself pushes. -/
def numbered (i : Fin 64) (c : Cpu) : Cpu :=
  (if i.val ∈ stubErrorCodes then c else c.push 0).push (BitVec.ofNat 32 i)

/-- The words that a stub takes off the stack of those that it finds there. -/
def stubDrops (i : Fin 64) : Nat := if i.val ∈ stubErrorCodes then 1 else 0

theorem run_interruptHandler {main : Cpu → Option Cpu} {back : Word} :
    run main back (interruptHandler i) c = run main back callGenericHandler (numbered i c) := by
  unfold interruptHandler numbered
  split
  · rw [errorCodeInterruptHandler, run_pushImm]
  · rw [noErrorCodeInterruptHandler, run_pushImm, run_pushImm]

theorem intNumber_numbered {back : Word} : intNumber (called back (numbered i c)) = BitVec.ofNat 32 i :=
  intNumber_called (Cpu.Top.push (l := []) trivial (by decide))

/-- What is pushed by the stub is off the stack behind it, and of a stub with error code one word more. -/
theorem interruptHandler_run {main : Cpu → Option Cpu} {back : Word} (small : depth < 2 ^ 28)
    (answer : main (called back (numbered i c)) = some s.ret)
    (body : Balanced calleeSaved (depth + 14) (called back (numbered i c)) s) :
    ∃ c', run main back (interruptHandler i) c = some c' ∧ Restored c c' (stubDrops i) (depth + 5) := by
  obtain ⟨c', ran, restored⟩ := callGenericHandler_run small answer body
  refine ⟨c', run_interruptHandler.trans ran, ?_⟩
  unfold numbered at restored
  unfold stubDrops
  obtain ⟨top, esp, reg, cs, ss⟩ := restored
  split
  · rename_i listed
    simp only [listed, ↓reduceIte, Cpu.push_esp, Cpu.push_cs, Cpu.push_ss] at top esp reg cs ss
    refine ⟨fun l short held => top _ (by simp; omega) (held.push (by omega)), ?_, fun r other => ?_, cs, ss⟩
    · rw [esp]
      bv_omega
    · rw [reg r other, Cpu.push_reg other]
  · rename_i unlisted
    simp only [unlisted, ↓reduceIte, Cpu.push_esp, Cpu.push_cs, Cpu.push_ss] at top esp reg cs ss
    refine ⟨fun l short held => top _ (by simp; omega) ((held.push (v := 0) (by omega)).push (by simp; omega)), ?_,
      fun r other => ?_, cs, ss⟩
    · rw [esp]
      bv_omega
    · rw [reg r other, Cpu.push_reg other, Cpu.push_reg other]

namespace Machine

/-- The kernel is called with the number of the vector. -/
theorem calling_eq {c₁ : Cpu} (delivered : deliver m.tables c e = some c₁)
    (stub : m.fetch c₁.eip = some (interruptHandler i)) : m.calling c e = some (called m.back (numbered i c₁)) := by
  have saved : run m.mainInterruptHandler m.back ((interruptHandler i).takeWhile fun i => !i.isCall) c₁ =
      some ([Reg.esp, .ebp, .edx, .ecx, .ebx, .eax].foldl (fun c r => c.push (c.reg r)) (numbered i c₁)) := by
    unfold interruptHandler numbered
    split <;> rfl
  simp only [calling, delivered, stub, saved, Option.bind_eq_bind, Option.bind_some]
  rfl

/-- The handler of the kernel comes back from every call that is served. -/
theorem mainInterruptHandler_returns (served : m.Served depth c e) (calls : m.calling c e = some s) :
    ∃ s', m.mainInterruptHandler s = some s'.ret ∧ Balanced calleeSaved (depth + 14) s s' := by
  obtain ⟨keyboard, system⟩ := served s calls
  unfold mainInterruptHandler
  by_cases first : intNumber s = 0x21
  · obtain ⟨s', answer, body⟩ := keyboard first
    exact ⟨s', by rw [if_pos first, answer]; rfl, body⟩
  · by_cases second : intNumber s = 0x30
    · obtain ⟨s', answer, body⟩ := system second
      exact ⟨s', by rw [if_neg first, if_pos second, answer]; rfl, body⟩
    · exact ⟨s, by rw [if_neg first, if_neg second]; rfl, .refl⟩

/-- Only two numbers make the kernel call something. -/
theorem served_of_number (calls : m.calling c e = some s) (notKeyboard : intNumber s ≠ 0x21)
    (notSystem : intNumber s ≠ 0x30) : m.Served depth c e := by
  intro s' calls'
  obtain rfl := Option.some.inj (calls.symm.trans calls')
  exact ⟨fun number => absurd number notKeyboard, fun number => absurd number notSystem⟩

end Machine

/-! ## From the gate back to the program -/

theorem answered_iff : Answered p e ↔ e.vector < 64 ∧ (e.isSoftware = true → p = .user → 0x30 ≤ e.vector) ∧
    (e.errorCode ≠ [] ↔ e.vector ∈ stubErrorCodes) := by
  cases e with
  | software n =>
    simp only [Answered, Event.vector, Event.isSoftware, Event.errorCode]
    tauto
  | external n =>
    simp only [Answered, Event.vector, Event.isSoftware, Event.errorCode]
    tauto
  | exception n code =>
    have listed : (n.val ∈ errorCodeVectors ↔ n.val ∈ stubErrorCodes) ↔ n.val ≠ 21 ∧ n.val ≠ 29 := by
      revert n
      decide
    have pushed : (Event.exception n code).errorCode ≠ [] ↔ n.val ∈ errorCodeVectors := by
      simp [Event.errorCode]
    have small : n.val < 64 := by omega
    rw [pushed]
    simp only [Answered, Event.vector, Event.isSoftware, listed, small]
    simp

namespace Machine

variable (running : m.Running p c)

include running

theorem Running.cpl : c.cpl = p.number := by rw [Cpu.cpl, running.code, p.privilege_code]

theorem Running.enters (vector : e.vector = i.val)
    (allowed : e.isSoftware = true → p.number ≤ ((vectorPrivilege i).setWidth 2 : BitVec 2).toNat) :
    ∃ c', deliver m.tables c e = some c' ∧ c'.cs = Level.kernel.code ∧
      Entered c c' e (stubGate m.isrStubTable i) 0 := by
  have found : (m.tables.idt[e.vector]?).map Gate.ofBits = some (stubGate m.isrStubTable i) := by
    rw [vector]
    exact gate_inside i
  have selector : gdtKernelCodeSegmentSelector &&& ~~~ 3 ||| BitVec.ofNat 16 0 = Level.kernel.code := by decide
  have stack : m.tables.StackFor (m.tables.taskSs c.mem 0) 0 := by
    rw [Tables.taskSs, show m.tables.task = m.base from task_eq, running.task]
    exact Level.kernel.stackFor_stack
  obtain ⟨c', delivered, entered⟩ := deliver_enters (t := m.tables) found ⟨rfl, rfl, rfl⟩ rfl
    (by rw [running.cpl]; exact allowed) Level.kernel.codeLevel_code (Nat.zero_le _) fun _ => stack
  exact ⟨c', delivered, entered.cs.trans selector, entered⟩

/-- No stub is entered, and nothing is called. -/
theorem Running.refused (vector : e.vector < 256)
    (refused : 64 ≤ e.vector ∨ e.isSoftware = true ∧ p = .user ∧ e.vector < 0x30) :
    m.Served depth c e ∧ ¬ m.Resumes depth c e := by
  have stays : deliver m.tables c e = none := by
    cases refused with
    | inl behind => exact deliver_refused (gate_behind behind vector) (.inl (by decide))
    | inr forbidden =>
      obtain ⟨software, rfl, low⟩ := forbidden
      have low : vectorPrivilege e.vector = 0x0 := if_neg (by omega)
      have level : (stubGate m.isrStubTable ⟨e.vector, by omega⟩).dpl = 0 := congrArg (BitVec.setWidth 2) low
      refine deliver_refused (gate_inside ⟨e.vector, by omega⟩) (.inr ⟨software, ?_⟩)
      rw [level, running.cpl]
      decide
  constructor
  · intro s calls
    simp only [calling, stays] at calls
    cases calls
  · rintro ⟨c', back, _⟩
    simp only [interrupt, stays] at back
    cases back

/-- Where the stub takes exactly what the processor has put on the stack, the program goes on. -/
theorem Running.resumes {c₁ c₂ : Cpu} {g : Gate} (small : depth < 2 ^ 28) (delivered : deliver m.tables c e = some c₁)
    (entered : Entered c c₁ e g 0) (inKernel : c₁.cs = Level.kernel.code)
    (stub : m.fetch c₁.eip = some (interruptHandler i))
    (result : run m.mainInterruptHandler m.back (interruptHandler i) c₁ = some c₂)
    (ran : Restored c₁ c₂ e.errorCode.length (depth + 5)) : m.Resumes depth c e := by
  have inside : c₂.cpl = 0 := by rw [Cpu.cpl, ran.cs, inKernel, Level.privilege_code]; rfl
  have top : c₂.Top (returnFrame c (decide (c₂.cpl < c.cpl))) := by
    have kept := ran.top _ (by simp; split <;> omega) entered.top
    rwa [List.drop_left, ← inside] at kept
  obtain ⟨c', returned, eip, cs, eflags, reg, outer, inner⟩ := iret_returns (t := m.tables) top (by omega)
    (by rw [running.cpl, running.code]; exact p.codeLevel_code) (by rw [running.cpl, running.stack]; exact p.stackFor_stack)
  refine ⟨c', ?_, ?_, eip, eflags, cs, ?_, ?_⟩
  · simp only [interrupt, delivered, stub, result, returned, Option.bind_eq_bind, Option.bind_some]
    rfl
  · funext r
    by_cases stackPointer : r = .esp
    · subst stackPointer
      by_cases level : c.cpl = 0
      · rw [(inner (inside.trans level.symm)).1, ran.esp, entered.esp level.symm]
        bv_omega
      · exact (outer (by omega)).1
    · rw [reg r stackPointer, ran.reg r stackPointer, entered.reg r stackPointer]
  · by_cases level : c.cpl = 0
    · rw [(inner (inside.trans level.symm)).2.1, ran.ss, entered.ss level.symm]
    · exact (outer (by omega)).2
  · intro level l short held
    have pushed := entered.above level.symm l (by omega) held
    have kept := ran.top _ (by simp; omega) pushed
    rw [List.append_assoc, List.drop_left] at kept
    exact (inner (inside.trans level.symm)).2.2 l kept

omit running in
/-- Where `iret` finds another word, the program does not. -/
theorem not_resumes {c₁ c₂ : Cpu} {dropped n : Nat} (delivered : deliver m.tables c e = some c₁)
    (stub : m.fetch c₁.eip = some (interruptHandler i))
    (result : run m.mainInterruptHandler m.back (interruptHandler i) c₁ = some c₂)
    (ran : Restored c₁ c₂ dropped n) (top : c₁.Top l) (short : l.length ≤ dropped + n)
    (found : (l.drop dropped).head? = some w) (other : w ≠ c.eip) : ¬ m.Resumes depth c e := by
  rintro ⟨c', back, _, eip, _⟩
  simp only [interrupt, delivered, stub, result, Option.bind_eq_bind, Option.bind_some] at back
  have kept := ran.top l short top
  obtain ⟨rest, split⟩ := List.head?_eq_some_iff.mp found
  rw [split] at kept
  have next : c'.eip = w := (iret_eip back).trans kept.1
  exact other (next.symm.trans eip)

omit running in
theorem exists_running (m : Machine) (p : Level) (eip : Word) : ∃ c, m.Running p c ∧ c.eip = eip := by
  refine ⟨⟨fun _ => 0, eip, 0, p.code, p.stack, setWord (fun _ => 0) (m.base + BitVec.ofNat 32 8) 0x10⟩,
    ⟨rfl, rfl, ?_⟩, rfl⟩
  rw [word_setWord]
  decide

end Machine

/-! ## The vectors that work -/

theorem vector_lt (e : Event) : e.vector < 256 := by
  cases e with
  | software n => exact n.isLt
  | external n => exact n.isLt
  | exception n _ =>
    have := n.isLt
    simp only [Event.vector]
    omega

theorem errorCode_cases (e : Event) : e.errorCode = [] ∨ ∃ code, e.errorCode = [code] := by
  cases list : e.errorCode with
  | nil => exact .inl rfl
  | cons code rest =>
    have short := errorCode_length e
    rw [list, List.length_cons] at short
    obtain rfl := List.eq_nil_of_length_eq_zero (show rest.length = 0 by omega)
    exact .inr ⟨code, rfl⟩

theorem allowed_privilege (allowed : e.isSoftware = true → p = .user → 0x30 ≤ i.val) :
    e.isSoftware = true → p.number ≤ ((vectorPrivilege i).setWidth 2 : BitVec 2).toNat := by
  intro software
  cases p with
  | kernel => exact Nat.zero_le _
  | user =>
    have high : vectorPrivilege i = 0x3 := if_pos ⟨allowed software rfl, by omega⟩
    rw [high]
    decide

/-- The stubs with an error code are stubs of exceptions. -/
theorem stubErrorCodes_lt : ∀ n ∈ stubErrorCodes, n < 32 := by
  decide

section Stub

variable (loaded : m.Loaded) (small : depth < 2 ^ 28) (vector : e.vector = i.val)
  (privileged : e.isSoftware = true → p.number ≤ ((vectorPrivilege i).setWidth 2 : BitVec 2).toNat)

include loaded small vector privileged

/-- The stub of a served interrupt runs to its end. -/
theorem served_run (running : m.Running p c) (served : m.Served depth c e) :
    ∃ c₁ c₂, deliver m.tables c e = some c₁ ∧ c₁.cs = Level.kernel.code ∧
      Entered c c₁ e (stubGate m.isrStubTable i) 0 ∧ m.fetch c₁.eip = some (interruptHandler i) ∧
      run m.mainInterruptHandler m.back (interruptHandler i) c₁ = some c₂ ∧
      Restored c₁ c₂ (stubDrops i) (depth + 5) := by
  obtain ⟨c₁, delivered, inKernel, entered⟩ := running.enters vector privileged
  have stub : m.fetch c₁.eip = some (interruptHandler i) := by
    rw [entered.eip]
    exact loaded i
  obtain ⟨s, answer, body⟩ := Machine.mainInterruptHandler_returns served (Machine.calling_eq delivered stub)
  obtain ⟨c₂, result, ran⟩ := interruptHandler_run small answer body
  exact ⟨c₁, c₂, delivered, inKernel, entered, stub, result, ran⟩

omit small in
/-- The kernel does nothing about the other vectors, so their calls come back. -/
theorem served_other (running : m.Running p c) (notKeyboard : i.val ≠ 0x21) (notSystem : i.val ≠ 0x30) :
    m.Served depth c e := by
  obtain ⟨c₁, delivered, _, entered⟩ := running.enters vector privileged
  have stub : m.fetch c₁.eip = some (interruptHandler i) := by
    rw [entered.eip]
    exact loaded i
  have number : intNumber (called m.back (numbered i c₁)) = BitVec.ofNat 32 i := intNumber_numbered
  refine Machine.served_of_number (Machine.calling_eq delivered stub) ?_ ?_ <;> rw [number] <;> intro same
  · exact notKeyboard (by have value := congrArg BitVec.toNat same; simp at value; omega)
  · exact notSystem (by have value := congrArg BitVec.toNat same; simp at value; omega)

theorem resumes_of_agreed (agreed : e.errorCode ≠ [] ↔ i.val ∈ stubErrorCodes) (running : m.Running p c)
    (served : m.Served depth c e) : m.Resumes depth c e := by
  obtain ⟨c₁, c₂, delivered, inKernel, entered, stub, result, ran⟩ :=
    served_run loaded small vector privileged running served
  have drops : stubDrops i = e.errorCode.length := by
    unfold stubDrops
    cases errorCode_cases e with
    | inl none => rw [none, if_neg fun listed => agreed.mpr listed none]; rfl
    | inr pushed =>
      obtain ⟨code, list⟩ := pushed
      rw [list, if_pos (agreed.mp (by simp [list]))]
      rfl
  exact running.resumes small delivered entered inKernel stub result (drops ▸ ran)

theorem listed_of_pushed (resumes : ∀ c, m.Running p c → m.Served depth c e → m.Resumes depth c e)
    (pushed : e.errorCode ≠ []) : i.val ∈ stubErrorCodes := by
  by_contra unlisted
  obtain ⟨code, list⟩ := (errorCode_cases e).resolve_left pushed
  have exceptional : i.val < 32 := by
    cases e with
    | exception n _ => exact vector ▸ n.isLt
    | software _ | external _ => exact absurd rfl pushed
  obtain ⟨c, running, eip⟩ := Machine.exists_running m p (code + 1)
  have served : m.Served depth c e :=
    served_other loaded vector privileged running (by omega) (by omega)
  obtain ⟨c₁, c₂, delivered, _, entered, stub, result, ran⟩ :=
    served_run loaded small vector privileged running served
  have top := entered.top
  rw [list] at top
  rw [stubDrops, if_neg unlisted] at ran
  exact Machine.not_resumes delivered stub result ran top.of_append (by simp) rfl (by rw [eip]; bv_omega)
    (resumes c running served)

theorem pushed_of_listed (resumes : ∀ c, m.Running p c → m.Served depth c e → m.Resumes depth c e)
    (listed : i.val ∈ stubErrorCodes) : e.errorCode ≠ [] := by
  intro none
  have exceptional : i.val < 32 := stubErrorCodes_lt _ listed
  obtain ⟨c, running, eip⟩ := Machine.exists_running m p 0
  have served : m.Served depth c e :=
    served_other loaded vector privileged running (by omega) (by omega)
  obtain ⟨c₁, c₂, delivered, _, entered, stub, result, ran⟩ :=
    served_run loaded small vector privileged running served
  have top : c₁.Top ([c.eip, c.cs.setWidth 32] ++
      (c.eflags :: if decide (0 < c.cpl) then [c.reg .esp, c.ss.setWidth 32] else [])) := by
    have top := entered.top
    rw [none] at top
    exact top
  have other : c.cs.setWidth 32 ≠ c.eip := by
    rw [eip, running.code]
    cases p <;> decide
  rw [stubDrops, if_pos listed] at ran
  exact Machine.not_resumes delivered stub result ran top.of_append (by simp; omega) rfl other
    (resumes c running served)

end Stub

/-- Each interrupt, and each program of a level: where the call of the kernel comes back, the program goes on with its
registers, its flags and its stack as they were exactly for the vectors whose gate it may use and whose stub agrees
with the processor about the error code. -/
theorem interrupts_resume_iff (loaded : m.Loaded) (small : depth < 2 ^ 28) (p : Level) (e : Event) :
    (∀ c, m.Running p c → m.Served depth c e → m.Resumes depth c e) ↔ Answered p e := by
  rw [answered_iff]
  constructor
  · intro resumes
    obtain ⟨c, running, _⟩ := Machine.exists_running m p 0
    have inside : e.vector < 64 := by
      by_contra behind
      obtain ⟨served, stuck⟩ := running.refused (vector_lt e) (.inl (by omega))
      exact stuck (resumes c running served)
    have allowed : e.isSoftware = true → p = .user → 0x30 ≤ e.vector := by
      intro software user
      by_contra low
      obtain ⟨served, stuck⟩ := running.refused (vector_lt e) (.inr ⟨software, user, by omega⟩)
      exact stuck (resumes c running served)
    have privileged := allowed_privilege (i := ⟨e.vector, inside⟩) allowed
    exact ⟨inside, allowed, listed_of_pushed loaded small rfl privileged resumes,
      pushed_of_listed loaded small rfl privileged resumes⟩
  · rintro ⟨inside, allowed, agreed⟩ c running served
    have privileged := allowed_privilege (i := ⟨e.vector, inside⟩) allowed
    exact resumes_of_agreed loaded small rfl privileged agreed running served

/-- A word that is stored below the stack. -/
theorem stored_balanced {kept : List Reg} {n : Nat} {a : Word} (above : 4 ≤ (s.reg .esp - a).toNat)
    (room : (s.reg .esp - a).toNat + 4 * n ≤ 2 ^ 32) : Balanced kept n s { s with mem := setWord s.mem a v } := by
  refine ⟨rfl, fun _ _ => rfl, rfl, rfl, fun l top short => ?_⟩
  have enough : (s.reg .esp - a).toNat + 4 * l.length ≤ 2 ^ 32 := by omega
  exact Stacked.setWord top above enough

/-- A kernel whose `keyboard_isr` and `syscall` do no more than to store a word at a fixed address. -/
def storingMachine : Machine where
  base := 0xC0000000
  isrStubTable i := BitVec.ofNat 32 i
  fetch a := if inside : a.toNat < 64 then some (interruptHandler ⟨a.toNat, inside⟩) else none
  keyboardIsr c := some { c with mem := setWord c.mem 0xC0100000 1 }
  syscall c := some { c with mem := setWord c.mem 0xC0100004 1 }
  back := 0xC0100000

theorem storingMachine_loaded : storingMachine.Loaded := by
  intro i
  have number : (BitVec.ofNat 32 i.val).toNat = i.val := by
    rw [BitVec.toNat_ofNat]
    omega
  simp only [storingMachine, number, i.isLt, ↓reduceDIte]

/-- A program of the kernel with its stack above the address. -/
def kernelProgram : Cpu where
  reg _ := 0xC0200000
  eip := 0
  eflags := 0
  cs := Level.kernel.code
  ss := Level.kernel.stack
  mem := setWord (fun _ => 0) 0xC0000008 0x10

theorem kernelProgram_running : storingMachine.Running .kernel kernelProgram where
  code := rfl
  stack := rfl
  task := by
    change (word (setWord (fun _ => 0) 0xC0000008 0x10) 0xC0000008).setWidth 16 = _
    rw [word_setWord]
    decide

/-- What is stored lies below the stack. -/
theorem kernelProgram_served : storingMachine.Served 4 kernelProgram (.external 0x21) := by
  obtain ⟨c₁, delivered, _, entered⟩ :=
    kernelProgram_running.enters (i := 0x21) (e := .external 0x21) rfl fun software => nomatch software
  have stub : storingMachine.fetch c₁.eip = some (interruptHandler 0x21) := by
    rw [entered.eip]
    exact storingMachine_loaded 0x21
  have number : intNumber (called storingMachine.back (numbered 0x21 c₁)) = 0x21 := intNumber_numbered
  have esp : (called storingMachine.back (numbered 0x21 c₁)).reg .esp = 0xC01FFFD0 := by
    have before : c₁.reg .esp = 0xC0200000 - 12 := entered.esp rfl
    have unlisted : ¬ (0x21 : Fin 64).val ∈ stubErrorCodes := by decide
    simp only [called, numbered, unlisted, ↓reduceIte, List.foldl_cons, List.foldl_nil, Cpu.push_esp, before]
    decide
  have calls := Machine.calling_eq delivered stub
  generalize called storingMachine.back (numbered 0x21 c₁) = s at calls number esp
  intro s' calls'
  obtain rfl := Option.some.inj (calls.symm.trans calls')
  refine ⟨fun _ => ⟨_, rfl, stored_balanced (a := 0xC0100000) (v := 1) ?_ ?_⟩, fun system => ?_⟩
  · rw [esp]
    decide
  · rw [esp]
    decide
  · rw [number] at system
    exact absurd system (by decide)

/-- It goes on behind an interrupt of the keyboard; behind a control protection exception not every program does. -/
theorem interrupts_resume_iff_storing :
    storingMachine.Resumes 4 kernelProgram (.external 0x21) ∧
      ¬ ∀ c, storingMachine.Running .kernel c → storingMachine.Served 4 c (.exception 21 0) →
        storingMachine.Resumes 4 c (.exception 21 0) := by
  constructor
  · exact (interrupts_resume_iff storingMachine_loaded (show 4 < 2 ^ 28 by decide) .kernel (.external 0x21)).mpr
      ⟨by decide, by decide⟩ kernelProgram kernelProgram_running kernelProgram_served
  · intro resumes
    have answered := (interrupts_resume_iff storingMachine_loaded (show 4 < 2 ^ 28 by decide) .kernel
      (.exception 21 0)).mp resumes
    exact answered.1 rfl

end Brother420.Interrupts
