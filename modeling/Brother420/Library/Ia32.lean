import Mathlib.Algebra.Ring.Nat
import Mathlib.Data.List.Basic
import Mathlib.Logic.Function.Basic

/-! # Interrupts of a 32-bit processor

Memory by bytes, the stack, the descriptors of segments and gates, and what the
processor does to enter an interrupt and to return from it.  Tasks and
virtual-8086 mode are left out, and so are the data segment registers.
-/

namespace Ia32

abbrev Word := BitVec 32

abbrev Selector := BitVec 16

abbrev ByteMemory := Word → BitVec 8

/-- The little-endian word at an address. -/
def word (m : ByteMemory) (a : Word) : Word := m (a + 3) ++ m (a + 2) ++ m (a + 1) ++ m a

def setWord (m : ByteMemory) (a v : Word) : ByteMemory := fun x =>
  if (x - a).toNat < 4 then v.extractLsb' (8 * (x - a).toNat) 8 else m x

/-- What the words from an address on begin with. -/
def Stacked (m : ByteMemory) : Word → List Word → Prop
  | _, [] => True
  | a, v :: l => word m a = v ∧ Stacked m (a + 4) l

section Memory

variable {m : ByteMemory} {a b v : Word} {l : List Word}

theorem setWord_byte (k : Nat) (small : k < 4) :
    setWord m a v (a + BitVec.ofNat 32 k) = v.extractLsb' (8 * k) 8 := by
  have offset : (a + BitVec.ofNat 32 k - a).toNat = k := by bv_omega
  rw [setWord, offset, if_pos small]

theorem word_setWord : word (setWord m a v) a = v := by
  have byte0 : setWord m a v a = v.extractLsb' 0 8 := by simpa using setWord_byte (m := m) (a := a) (v := v) 0
  have byte1 : setWord m a v (a + 1) = v.extractLsb' 8 8 := setWord_byte 1 (by decide)
  have byte2 : setWord m a v (a + 2) = v.extractLsb' 16 8 := setWord_byte 2 (by decide)
  have byte3 : setWord m a v (a + 3) = v.extractLsb' 24 8 := setWord_byte 3 (by decide)
  rw [word, byte0, byte1, byte2, byte3,
    BitVec.extractLsb'_append_extractLsb'_eq_extractLsb' (show 24 = 16 + 8 from rfl),
    BitVec.extractLsb'_append_extractLsb'_eq_extractLsb' (show 16 = 8 + 8 from rfl),
    BitVec.extractLsb'_append_extractLsb'_eq_extractLsb' (show 8 = 0 + 8 from rfl)]
  exact BitVec.extractLsb'_eq_self

theorem setWord_apart (apart : 4 ≤ (b - a).toNat) : setWord m a v b = m b := if_neg (by omega)

theorem word_setWord_apart (above : 4 ≤ (b - a).toNat) (below : 4 ≤ (a - b).toNat) :
    word (setWord m a v) b = word m b := by
  unfold word
  rw [setWord_apart above, setWord_apart (by bv_omega : 4 ≤ (b + 1 - a).toNat),
    setWord_apart (by bv_omega : 4 ≤ (b + 2 - a).toNat), setWord_apart (by bv_omega : 4 ≤ (b + 3 - a).toNat)]

/-- A word below leaves what is stacked alone, as long as the two do not meet around the end of the memory. -/
theorem Stacked.setWord (stacked : Stacked m b l) (above : 4 ≤ (b - a).toNat)
    (room : (b - a).toNat + 4 * l.length ≤ 2 ^ 32) : Stacked (setWord m a v) b l := by
  induction l generalizing b with
  | nil => trivial
  | cons w l ih =>
    simp only [List.length_cons] at room
    refine ⟨(word_setWord_apart above (by bv_omega)).trans stacked.1, ?_⟩
    cases l with
    | nil => trivial
    | cons w' l =>
      simp only [List.length_cons] at room ih
      exact ih stacked.2 (by bv_omega) (by bv_omega)

theorem Stacked.push (stacked : Stacked m a l) (room : l.length < 2 ^ 29) :
    Stacked (Ia32.setWord m (a - 4) v) (a - 4) (v :: l) := by
  refine ⟨word_setWord, ?_⟩
  rw [BitVec.sub_add_cancel]
  exact stacked.setWord (by bv_omega) (by bv_omega)

theorem Stacked.of_append {l' : List Word} (stacked : Stacked m a (l ++ l')) : Stacked m a l := by
  induction l generalizing a with
  | nil => trivial
  | cons w l ih => exact ⟨stacked.1, ih stacked.2⟩

end Memory

/-! ## The processor -/

inductive Reg
  | eax | ecx | edx | ebx | esp | ebp | esi | edi
  deriving DecidableEq

structure Cpu where
  reg : Reg → Word
  eip : Word
  eflags : Word
  cs : Selector
  ss : Selector
  mem : ByteMemory

/-- The lowest two bits of a selector. -/
def privilege (s : Selector) : Nat := s.toNat % 4

namespace Cpu

/-- The current privilege level. -/
def cpl (c : Cpu) : Nat := privilege c.cs

def push (c : Cpu) (v : Word) : Cpu :=
  { c with
    reg := Function.update c.reg .esp (c.reg .esp - 4)
    mem := setWord c.mem (c.reg .esp - 4) v }

def pushes (c : Cpu) (l : List Word) : Cpu := l.foldl push c

def pop (c : Cpu) (r : Reg) : Cpu :=
  { c with reg := Function.update (Function.update c.reg .esp (c.reg .esp + 4)) r (word c.mem (c.reg .esp)) }

/-- The program on another stack. -/
def onStack (c : Cpu) (ss : Selector) (esp : Word) : Cpu := { c with reg := Function.update c.reg .esp esp, ss }

def jump (c : Cpu) (cs : Selector) (eip eflags : Word) : Cpu := { c with cs, eip, eflags }

def addEsp (c : Cpu) (v : Word) : Cpu := { c with reg := Function.update c.reg .esp (c.reg .esp + v) }

def sti (c : Cpu) : Cpu := { c with eflags := c.eflags ||| 0x200 }

/-- `ret`, at the end of a procedure. -/
def ret (c : Cpu) : Cpu :=
  { c with reg := Function.update c.reg .esp (c.reg .esp + 4), eip := word c.mem (c.reg .esp) }

/-- The stack begins with these words. -/
def Top (c : Cpu) (l : List Word) : Prop := Stacked c.mem (c.reg .esp) l

variable {c : Cpu} {v : Word} {l : List Word} {r : Reg}

@[simp] theorem push_eip : (c.push v).eip = c.eip := rfl

@[simp] theorem push_eflags : (c.push v).eflags = c.eflags := rfl

@[simp] theorem push_cs : (c.push v).cs = c.cs := rfl

@[simp] theorem push_ss : (c.push v).ss = c.ss := rfl

@[simp] theorem push_esp : (c.push v).reg .esp = c.reg .esp - 4 := by simp [push]

theorem push_reg (other : r ≠ .esp) : (c.push v).reg r = c.reg r := by simp [push, other]

@[simp] theorem pop_cs : (c.pop r).cs = c.cs := rfl

@[simp] theorem pop_ss : (c.pop r).ss = c.ss := rfl

theorem pop_esp (other : r ≠ .esp) : (c.pop r).reg .esp = c.reg .esp + 4 := by simp [pop, other.symm]

theorem pop_reg {q : Reg} (notEsp : q ≠ .esp) (other : q ≠ r) : (c.pop r).reg q = c.reg q := by
  simp [pop, notEsp, other]

theorem Top.pop_self (top : c.Top (v :: l)) : (c.pop r).reg r = v := by
  simp only [Cpu.pop, Function.update_self]
  exact top.1

theorem Top.push (top : c.Top l) (room : l.length < 2 ^ 29) : (c.push v).Top (v :: l) := by
  have stacked := Stacked.push (v := v) top room
  simpa [Top, Cpu.push] using stacked

theorem top_jump {cs : Selector} {eip eflags : Word} : (c.jump cs eip eflags).Top l ↔ c.Top l := Iff.rfl

theorem Top.of_append {l' : List Word} (top : c.Top (l ++ l')) : c.Top l := Stacked.of_append top

theorem Top.pop (top : c.Top (v :: l)) (other : r ≠ .esp) : (c.pop r).Top l := by
  have rest : Stacked c.mem (c.reg .esp + 4) l := top.2
  rw [Top, pop_esp other]
  exact rest

/-- The stack pointer takes its own place off the stack. -/
theorem Top.pop_stackPointer (top : c.Top (v :: l)) (own : v = c.reg .esp + 4) : (c.pop .esp).Top l := by
  have rest : Stacked c.mem (c.reg .esp + 4) l := top.2
  rw [Top, top.pop_self, own]
  exact rest

@[simp] theorem addEsp_esp : (c.addEsp v).reg .esp = c.reg .esp + v := by simp [addEsp]

theorem addEsp_reg (other : r ≠ .esp) : (c.addEsp v).reg r = c.reg r := by simp [addEsp, other]

theorem Top.addEsp_two {w : Word} (top : c.Top (v :: w :: l)) : (c.addEsp 8).Top l := by
  have rest : Stacked c.mem (c.reg .esp + 4 + 4) l := top.2.2
  rw [Top, addEsp_esp, show c.reg .esp + 8 = c.reg .esp + 4 + 4 by bv_omega]
  exact rest

@[simp] theorem ret_cs : c.ret.cs = c.cs := rfl

@[simp] theorem ret_ss : c.ret.ss = c.ss := rfl

@[simp] theorem ret_esp : c.ret.reg .esp = c.reg .esp + 4 := by simp [ret]

theorem ret_reg (other : r ≠ .esp) : c.ret.reg r = c.reg r := by simp [ret, other]

theorem Top.ret (top : c.Top (v :: l)) : c.ret.Top l := by
  have rest : Stacked c.mem (c.reg .esp + 4) l := top.2
  rw [Top, ret_esp]
  exact rest

/-- The words of the stack, by their number. -/
theorem Top.word {i : Nat} (top : c.Top l) (at_ : l[i]? = some v) :
    Ia32.word c.mem (c.reg .esp + BitVec.ofNat 32 (4 * i)) = v := by
  have stacked (a : Word) (l : List Word) (i : Nat) (top : Stacked c.mem a l) (at_ : l[i]? = some v) :
      Ia32.word c.mem (a + BitVec.ofNat 32 (4 * i)) = v := by
    induction i generalizing a l with
    | zero =>
      cases l with
      | nil => cases at_
      | cons w l =>
        obtain rfl := Option.some.inj at_
        simpa using top.1
    | succ i ih =>
      cases l with
      | nil => cases at_
      | cons w l =>
        have later := ih (a + 4) l top.2 at_
        rwa [show a + 4 + BitVec.ofNat 32 (4 * i) = a + BitVec.ofNat 32 (4 * (i + 1)) by bv_omega] at later
  exact stacked _ _ _ top at_

theorem top_sti : c.sti.Top l ↔ c.Top l := Iff.rfl

@[simp] theorem sti_reg : c.sti.reg = c.reg := rfl

/-- A list of words is pushed, the first one deepest. -/
theorem pushes_spec (top : c.Top l) (l' : List Word) (room : l'.length + l.length < 2 ^ 29) :
    (c.pushes l').Top (l'.reverse ++ l) ∧ (c.pushes l').reg .esp = c.reg .esp - BitVec.ofNat 32 (4 * l'.length) ∧
      (∀ r, r ≠ .esp → (c.pushes l').reg r = c.reg r) ∧ (c.pushes l').ss = c.ss := by
  induction l' generalizing c l with
  | nil => exact ⟨top, by simp [pushes], fun r _ => rfl, rfl⟩
  | cons w l' ih =>
    simp only [List.length_cons] at room
    obtain ⟨top', esp, reg, ss⟩ := ih (top.push (v := w) (by omega)) (by simp only [List.length_cons]; omega)
    refine ⟨?_, ?_, fun r other => (reg r other).trans (push_reg other), ss⟩
    · rw [List.reverse_cons, List.append_assoc]
      exact top'
    rw [pushes, List.foldl_cons]
    refine esp.trans ?_
    rw [push_esp, List.length_cons]
    bv_omega

end Cpu

/-! ## Instructions -/

inductive Instr
  | push (r : Reg)
  | pushImm (v : Word)
  | pop (r : Reg)
  | addEsp (v : Word)
  | sti
  | call

def Instr.isCall : Instr → Bool
  | .call => true
  | _ => false

/-- One instruction, where the procedure that is called is `callee` and the call pushes the address `back`; `none`
where the procedure does not return. -/
def exec (callee : Cpu → Option Cpu) (back : Word) (c : Cpu) : Instr → Option Cpu
  | .push r => some (c.push (c.reg r))
  | .pushImm v => some (c.push v)
  | .pop r => some (c.pop r)
  | .addEsp v => some (c.addEsp v)
  | .sti => some c.sti
  | .call => callee (c.push back)

def run (callee : Cpu → Option Cpu) (back : Word) (l : List Instr) (c : Cpu) : Option Cpu :=
  l.foldlM (exec callee back) c

theorem run_pushImm {callee : Cpu → Option Cpu} {back v : Word} {l : List Instr} {c : Cpu} :
    run callee back (.pushImm v :: l) c = run callee back l (c.push v) := rfl

/-- The registers that belong to the caller of a procedure, by the calling convention. -/
def calleeSaved : List Reg := [.ebx, .ebp, .esi, .edi]

/-- From `c` to `c'` the stack is left as it was, with the `n` words on it, and so are the registers of a list. -/
structure Balanced (kept : List Reg) (n : Nat) (c c' : Cpu) : Prop where
  esp : c'.reg .esp = c.reg .esp
  kept : ∀ r ∈ kept, c'.reg r = c.reg r
  cs : c'.cs = c.cs
  ss : c'.ss = c.ss
  frame : ∀ l, c.Top l → l.length ≤ n → c'.Top l

namespace Balanced

variable {kept : List Reg} {n : Nat} {c c' : Cpu}

theorem refl : Balanced kept n c c := ⟨rfl, fun _ _ => rfl, rfl, rfl, fun _ top _ => top⟩

/-- Around a procedure that is balanced itself, the call and the return are. -/
theorem call {back : Word} (body : Balanced calleeSaved (n + 1) (c.push back) c') (small : n < 2 ^ 29) :
    Balanced calleeSaved n c c'.ret where
  esp := by simp [body.esp, BitVec.sub_add_cancel]
  kept r member := by
    have notEsp : r ≠ .esp := by
      rintro rfl
      simp [calleeSaved] at member
    rw [Cpu.ret_reg notEsp, body.kept r member, Cpu.push_reg notEsp]
  cs := by simp [body.cs]
  ss := by simp [body.ss]
  frame l top short := (body.frame _ (top.push (by omega)) (by simpa using short)).ret

/-- A register that is saved on the stack around the code. -/
theorem saving {r : Reg} (body : Balanced kept (n + 1) (c.push (c.reg r)) c') (small : n < 2 ^ 29) (other : r ≠ .esp)
    (notKept : .esp ∉ kept) : Balanced (r :: kept) n c (c'.pop r) where
  esp := by simp [Cpu.pop_esp other, body.esp, BitVec.sub_add_cancel]
  kept q member := by
    by_cases same : q = r
    · subst same
      have pushed : (c.push (c.reg q)).Top [c.reg q] := Cpu.Top.push (l := []) trivial (by decide)
      exact (body.frame _ pushed (by simp)).pop_self
    · have member := (List.mem_cons.mp member).resolve_left same
      have notEsp : q ≠ .esp := fun isEsp => notKept (isEsp ▸ member)
      rw [Cpu.pop_reg notEsp same, body.kept q member, Cpu.push_reg notEsp]
  cs := by simp [body.cs]
  ss := by simp [body.ss]
  frame l top short := (body.frame _ (top.push (by omega)) (by simpa using short)).pop other

end Balanced

/-! ## Descriptors -/

/-- What the processor reads in the 64 bits of a segment descriptor. -/
structure Segment where
  base : Word
  limit : BitVec 20
  type : BitVec 4
  nonSystem : BitVec 1
  dpl : BitVec 2
  present : BitVec 1

def Segment.ofBits (d : BitVec 64) : Segment where
  base := d.extractLsb' 56 8 ++ d.extractLsb' 32 8 ++ d.extractLsb' 16 16
  limit := d.extractLsb' 48 4 ++ d.extractLsb' 0 16
  type := d.extractLsb' 40 4
  nonSystem := d.extractLsb' 44 1
  dpl := d.extractLsb' 45 2
  present := d.extractLsb' 47 1

namespace Segment

/-- Code that only its own privilege level runs. -/
def Code (s : Segment) : Prop :=
  s.present = 1 ∧ s.nonSystem = 1 ∧ s.type.getLsbD 3 = true ∧ s.type.getLsbD 2 = false

/-- Data that can be written. -/
def Writable (s : Segment) : Prop :=
  s.present = 1 ∧ s.nonSystem = 1 ∧ s.type.getLsbD 3 = false ∧ s.type.getLsbD 1 = true

instance (s : Segment) : Decidable s.Code := inferInstanceAs (Decidable (_ ∧ _))

instance (s : Segment) : Decidable s.Writable := inferInstanceAs (Decidable (_ ∧ _))

end Segment

/-- What the processor reads in the 64 bits of a gate. -/
structure Gate where
  offset : Word
  selector : Selector
  kind : BitVec 3
  wide : BitVec 1
  nonSystem : BitVec 1
  dpl : BitVec 2
  present : BitVec 1

def Gate.ofBits (d : BitVec 64) : Gate where
  offset := d.extractLsb' 48 16 ++ d.extractLsb' 0 16
  selector := d.extractLsb' 16 16
  kind := d.extractLsb' 40 3
  wide := d.extractLsb' 43 1
  nonSystem := d.extractLsb' 44 1
  dpl := d.extractLsb' 45 2
  present := d.extractLsb' 47 1

/-- A 32-bit interrupt gate. -/
def Gate.Interrupt (g : Gate) : Prop := g.kind = 0b110 ∧ g.wide = 1 ∧ g.nonSystem = 0

instance (g : Gate) : Decidable g.Interrupt := inferInstanceAs (Decidable (_ ∧ _))

/-- The tables that the processor has been pointed to, and the base of its task state segment. -/
structure Tables where
  gdt : List (BitVec 64)
  idt : List (BitVec 64)
  task : Word

namespace Tables

variable (t : Tables)

/-- The descriptor that a selector names, in the global table. -/
def segment (s : Selector) : Option Segment :=
  if s.getLsbD 2 ∨ s.toNat / 8 = 0 then none else t.gdt[s.toNat / 8]?.map Segment.ofBits

/-- The stack for a level, as the task state segment has it. -/
def taskEsp (m : ByteMemory) (level : Nat) : Word := word m (t.task + BitVec.ofNat 32 (8 * level + 4))

def taskSs (m : ByteMemory) (level : Nat) : Selector := (word m (t.task + BitVec.ofNat 32 (8 * level + 8))).setWidth 16

/-- The privilege level of the code that a selector names. -/
def codeLevel (s : Selector) : Option Nat := do
  let segment ← t.segment s
  if segment.Code then some segment.dpl.toNat else none

/-- A stack for a privilege level. -/
def StackFor (s : Selector) (level : Nat) : Prop :=
  ∃ segment ∈ t.segment s, segment.Writable ∧ segment.dpl.toNat = level ∧ privilege s = level

instance (s : Selector) (level : Nat) : Decidable (t.StackFor s level) :=
  inferInstanceAs (Decidable (∃ segment ∈ t.segment s, _))

end Tables

/-! ## Interrupts -/

/-- The exceptions that push an error code. -/
def errorCodeVectors : List Nat := [8, 10, 11, 12, 13, 14, 17, 21, 29, 30]

inductive Event
  | software (vector : Fin 256)
  | external (vector : Fin 256)
  | exception (vector : Fin 32) (code : Word)

namespace Event

def vector : Event → Nat
  | software n => n
  | external n => n
  | exception n _ => n

def errorCode : Event → List Word
  | exception n code => if n.val ∈ errorCodeVectors then [code] else []
  | _ => []

def isSoftware : Event → Bool
  | software _ => true
  | _ => false

end Event

/-- The flags that an interrupt gate clears: TF, IF, NT, RF and VM. -/
def clearedFlags : Word := 0x34300

/-- The words that return to the interrupted program, the last one pushed first. -/
def returnFrame (c : Cpu) (outer : Bool) : List Word :=
  [c.eip, c.cs.setWidth 32, c.eflags] ++ if outer then [c.reg .esp, c.ss.setWidth 32] else []

/-- Entering an interrupt through its gate; `none` where the processor raises a fault instead. -/
def deliver (t : Tables) (c : Cpu) (e : Event) : Option Cpu := do
  let gate := Gate.ofBits (← t.idt[e.vector]?)
  if ¬ gate.Interrupt then none
  else if e.isSoftware ∧ gate.dpl.toNat < c.cpl then none
  else if gate.present = 0 then none
  else
    let level ← t.codeLevel gate.selector
    let cs := gate.selector &&& ~~~ 3 ||| BitVec.ofNat 16 level
    let flags := c.eflags &&& ~~~ clearedFlags
    if level = c.cpl then
      some ((c.pushes ((returnFrame c false).reverse ++ e.errorCode)).jump cs gate.offset flags)
    else if level < c.cpl then
      if t.StackFor (t.taskSs c.mem level) level then
        let inner := c.onStack (t.taskSs c.mem level) (t.taskEsp c.mem level)
        some ((inner.pushes ((returnFrame c true).reverse ++ e.errorCode)).jump cs gate.offset flags)
      else none
    else none

/-- `iret`; `none` where the processor raises a fault instead. -/
def iret (t : Tables) (c : Cpu) : Option Cpu := do
  let esp := c.reg .esp
  let cs : Selector := (word c.mem (esp + 4)).setWidth 16
  let level ← t.codeLevel cs
  let back := { c with eip := word c.mem esp, cs, eflags := word c.mem (esp + 8) }
  if level ≠ privilege cs ∨ level < c.cpl then none
  else if level = c.cpl then some { back with reg := Function.update c.reg .esp (esp + 12) }
  else
    let ss : Selector := (word c.mem (esp + 16)).setWidth 16
    if t.StackFor ss level then
      some { back with reg := Function.update c.reg .esp (word c.mem (esp + 12)), ss }
    else none

section Transfer

variable {t : Tables} {c c₀ c' : Cpu} {e : Event} {g : Gate} {level : Nat}

/-- What `deliver` makes of a program that an interrupt may enter. -/
structure Entered (c c' : Cpu) (e : Event) (g : Gate) (level : Nat) : Prop where
  eip : c'.eip = g.offset
  cs : c'.cs = g.selector &&& ~~~ 3 ||| BitVec.ofNat 16 level
  top : c'.Top (e.errorCode ++ returnFrame c (decide (level < c.cpl)))
  reg : ∀ r, r ≠ .esp → c'.reg r = c.reg r
  above : level = c.cpl → ∀ l, l.length < 2 ^ 28 → c.Top l → c'.Top (e.errorCode ++ returnFrame c false ++ l)
  esp : level = c.cpl → c'.reg .esp = c.reg .esp - BitVec.ofNat 32 (12 + 4 * e.errorCode.length)
  ss : level = c.cpl → c'.ss = c.ss

theorem errorCode_length (e : Event) : e.errorCode.length ≤ 1 := by
  unfold Event.errorCode
  split
  · split <;> simp
  · simp

@[simp] theorem returnFrame_length (c : Cpu) (outer : Bool) :
    (returnFrame c outer).length = if outer then 5 else 3 := by
  cases outer <;> rfl

theorem pushedFrame (c : Cpu) (e : Event) (outer : Bool) :
    ((returnFrame c outer).reverse ++ e.errorCode).reverse = e.errorCode ++ returnFrame c outer := by
  have alone : e.errorCode.reverse = e.errorCode := by
    unfold Event.errorCode
    split
    · split <;> rfl
    · rfl
  rw [List.reverse_append, List.reverse_reverse, alone]

theorem deliver_enters (found : (t.idt[e.vector]?).map Gate.ofBits = some g) (interrupt : g.Interrupt)
    (present : g.present = 1) (allowed : e.isSoftware = true → c.cpl ≤ g.dpl.toNat)
    (code : t.codeLevel g.selector = some level) (inner : level ≤ c.cpl)
    (stack : level < c.cpl → t.StackFor (t.taskSs c.mem level) level) :
    ∃ c', deliver t c e = some c' ∧ Entered c c' e g level := by
  obtain ⟨d, entry, rfl⟩ := Option.map_eq_some_iff.mp found
  have permitted : ¬ (e.isSoftware = true ∧ (Gate.ofBits d).dpl.toNat < c.cpl) := fun h => by
    have := allowed h.1
    omega
  have here : (Gate.ofBits d).present ≠ 0 := by rw [present]; decide
  have short := errorCode_length e
  simp only [deliver, entry, Option.bind_eq_bind, Option.bind_some, not_not.mpr interrupt, permitted, here, code,
    ↓reduceIte]
  by_cases same : level = c.cpl
  · have size : 4 * ((returnFrame c false).reverse ++ e.errorCode).length = 12 + 4 * e.errorCode.length := by
      simp [returnFrame]
      omega
    have above (l : List Word) (small : l.length < 2 ^ 28) (top : c.Top l) :=
      (Cpu.pushes_spec top ((returnFrame c false).reverse ++ e.errorCode) (by simp; omega)).1
    simp only [pushedFrame] at above
    obtain ⟨_, esp, reg, ss⟩ := Cpu.pushes_spec (c := c) (l := []) trivial
      ((returnFrame c false).reverse ++ e.errorCode) (by simp; omega)
    rw [if_pos same]
    refine ⟨_, rfl, rfl, rfl, ?_, reg, fun _ l small top => Cpu.top_jump.mpr (above l small top),
      fun _ => size ▸ esp, fun _ => ss⟩
    rw [decide_eq_false (by omega : ¬ level < c.cpl), ← List.append_nil (e.errorCode ++ _)]
    exact Cpu.top_jump.mpr (above [] (by decide) trivial)
  · have outer : level < c.cpl := by omega
    rw [if_neg same, if_pos outer, if_pos (stack outer)]
    obtain ⟨top, _, reg, _⟩ := Cpu.pushes_spec (l := [])
      (c := c.onStack (t.taskSs c.mem level) (t.taskEsp c.mem level)) trivial
      ((returnFrame c true).reverse ++ e.errorCode) (by simp; omega)
    rw [pushedFrame, List.append_nil] at top
    refine ⟨_, rfl, rfl, rfl, ?_, fun r other => (reg r other).trans (Function.update_of_ne other _ _),
      fun less => absurd less same, fun less => absurd less same, fun less => absurd less same⟩
    rw [decide_eq_true outer]
    exact Cpu.top_jump.mpr top

theorem deliver_refused (found : (t.idt[e.vector]?).map Gate.ofBits = some g)
    (refused : ¬ g.Interrupt ∨ e.isSoftware = true ∧ g.dpl.toNat < c.cpl) : deliver t c e = none := by
  obtain ⟨d, entry, rfl⟩ := Option.map_eq_some_iff.mp found
  simp only [deliver, entry, Option.bind_eq_bind, Option.bind_some]
  cases refused with
  | inl other => rw [if_pos other]
  | inr forbidden =>
    by_cases interrupt : (Gate.ofBits d).Interrupt
    · rw [if_neg (not_not.mpr interrupt), if_pos forbidden]
    · rw [if_pos interrupt]

theorem iret_eip (returned : iret t c = some c') : c'.eip = word c.mem (c.reg .esp) := by
  simp only [iret, Option.bind_eq_bind, Option.bind_eq_some_iff] at returned
  obtain ⟨level, _, returned⟩ := returned
  split at returned
  · cases returned
  · split at returned
    · cases returned
      rfl
    · split at returned
      · cases returned
        rfl
      · cases returned

theorem iret_returns (top : c.Top (returnFrame c₀ (decide (c.cpl < c₀.cpl)))) (inner : c.cpl ≤ c₀.cpl)
    (code : t.codeLevel c₀.cs = some c₀.cpl) (stack : t.StackFor c₀.ss c₀.cpl) :
    ∃ c', iret t c = some c' ∧ c'.eip = c₀.eip ∧ c'.cs = c₀.cs ∧ c'.eflags = c₀.eflags ∧
      (∀ r, r ≠ .esp → c'.reg r = c.reg r) ∧
      (c.cpl < c₀.cpl → c'.reg .esp = c₀.reg .esp ∧ c'.ss = c₀.ss) ∧
      (c.cpl = c₀.cpl → c'.reg .esp = c.reg .esp + 12 ∧ c'.ss = c.ss ∧
        ∀ l, c.Top (returnFrame c₀ false ++ l) → c'.Top l) := by
  obtain ⟨eip, cs, eflags, stacked⟩ : word c.mem (c.reg .esp) = c₀.eip ∧
      word c.mem (c.reg .esp + 4) = c₀.cs.setWidth 32 ∧ word c.mem (c.reg .esp + 8) = c₀.eflags ∧
      Stacked c.mem (c.reg .esp + 12) (if c.cpl < c₀.cpl then [c₀.reg .esp, c₀.ss.setWidth 32] else []) := by
    have two : c.reg .esp + 4 + 4 = c.reg .esp + 8 := by bv_omega
    have three : c.reg .esp + 8 + 4 = c.reg .esp + 12 := by bv_omega
    obtain ⟨eip, cs, eflags, rest⟩ := top
    rw [two] at eflags rest
    rw [three] at rest
    refine ⟨eip, cs, eflags, ?_⟩
    simpa using rest
  have selector : ((c₀.cs.setWidth 32).setWidth 16 : Selector) = c₀.cs := by simp
  have valid : ¬ (c₀.cpl ≠ privilege c₀.cs ∨ c₀.cpl < c.cpl) := by
    simp only [Cpu.cpl] at inner ⊢
    omega
  simp only [iret, eip, cs, eflags, selector, code, Option.bind_eq_bind, Option.bind_some, valid, if_false]
  by_cases same : c₀.cpl = c.cpl
  · rw [if_pos same]
    refine ⟨_, rfl, rfl, rfl, rfl, fun r other => Function.update_of_ne other _ _, fun less => ?_,
      fun _ => ⟨?_, rfl, fun l top => ?_⟩⟩
    · omega
    · simp
    · have rest : Stacked c.mem (c.reg .esp + 4 + 4 + 4) l := top.2.2.2
      rw [show c.reg .esp + 4 + 4 + 4 = c.reg .esp + 12 by bv_omega] at rest
      simpa [Cpu.Top] using rest
  · have outer : c.cpl < c₀.cpl := by omega
    rw [if_neg same]
    rw [if_pos outer] at stacked
    have ss : ((word c.mem (c.reg .esp + 16)).setWidth 16 : Selector) = c₀.ss := by
      have four : c.reg .esp + 12 + 4 = c.reg .esp + 16 := by bv_omega
      have kept : word c.mem (c.reg .esp + 16) = c₀.ss.setWidth 32 := four ▸ stacked.2.1
      rw [kept]
      simp
    rw [ss, if_pos stack]
    have esp : word c.mem (c.reg .esp + 12) = c₀.reg .esp := stacked.1
    rw [esp]
    refine ⟨_, rfl, rfl, rfl, rfl, fun r other => Function.update_of_ne other _ _, fun _ => ⟨?_, rfl⟩, fun same => ?_⟩
    · simp
    · omega

end Transfer

end Ia32
