import Brother420.Console.Keyboard

/-! # Keys on the data port

The port shows the scancode of the last key that went down or up until the next
one does.  A run of `keyboard_isr` over printable keys, Backspace and Enter does to
the driver what the presses do one after the other, however they overlap with the
releases and however often the port is read in between, as long as a key that goes
down behind another one is read twice.
-/

namespace Brother420.Console

/-! ## Events -/

/-- The scancode is that of a printable character. -/
def Printable (scancode : UInt8) : Prop := 0x20 ≤ mappedChar scancode ∧ mappedChar scancode ≤ 0x7E

instance (scancode : UInt8) : Decidable (Printable scancode) := inferInstanceAs (Decidable (_ ∧ _))

inductive Key
  | printable (scancode : UInt8) (printable : Printable scancode)
  | backspace

inductive KeyEvent
  | press (key : Key)
  | release (key : Key)

def Key.scancode : Key → UInt8
  | .printable scancode _ => scancode
  | .backspace => 0x0E

def enterScancode : UInt8 := 0x1C

def KeyEvent.byte : KeyEvent → UInt8
  | .press key => key.scancode
  | .release key => key.scancode + 0x80

def KeyEvent.isPress : KeyEvent → Bool
  | .press _ => true
  | .release _ => false

/-- A key that went down goes up before it goes down again. -/
def Follows (e e' : KeyEvent) : Prop := ∀ key, e = .press key → e' ≠ .press key

/-- The reads of one byte. -/
def shown (twice : Bool) (byte : UInt8) (n : Nat) : List UInt8 := List.replicate (if twice then n + 2 else n + 1) byte

/-- What is read while each event is the last one, up to Enter.  Where the event before was a press too, a
    press is read at least twice, and everything else at least once. -/
def portReads : (down : Bool) → List (KeyEvent × Nat) → (n : Nat) → List UInt8
  | down, [], n => shown down enterScancode n
  | down, (e, m) :: events, n => shown (down && e.isPress) e.byte m ++ portReads e.isPress events n

namespace KeyboardDriver

/-- What pressing a key does. -/
def strike (k : KeyboardDriver) : Key → Option KeyboardDriver
  | .printable scancode _ => k.insert (mappedChar scancode)
  | .backspace => k.backspace

def event (k : KeyboardDriver) : KeyEvent → Option KeyboardDriver
  | .press key => k.strike key
  | .release _ => some k

end KeyboardDriver

/-- The keys that are pressed. -/
def presses (events : List (KeyEvent × Nat)) : List Key :=
  events.filterMap fun
    | (.press key, _) => some key
    | (.release _, _) => none

variable {isr isr' : Isr} {e e' : KeyEvent} {k k' : KeyboardDriver} {key : Key} {byte scancode : UInt8} {n : Nat}
  {reads : List UInt8} {events : List (KeyEvent × Nat)}

namespace KeyboardDriver

theorem keyboardInputOn_strike (struck : k.strike key = some k') : k'.keyboardInputOn = k.keyboardInputOn := by
  cases key with
  | printable _ _ => exact keyboardInputOn_insert struck
  | backspace => exact keyboardInputOn_backspace struck

end KeyboardDriver

/-! ## Scancodes -/

/-- No scancode of a key that the loop remembers, and none of Caps Lock. -/
def Plain (byte : UInt8) : Prop := byte ∉ [0x2A, 0x36, 0xAA, 0xB6, 0x1D, 0x9D, 0x38, 0xB8, 0x3A]

instance (byte : UInt8) : Decidable (Plain byte) := inferInstanceAs (Decidable (_ ∉ _))

/-- The map ends with the plus sign. -/
theorem mappedChar_high (high : 79 ≤ byte.toNat) : mappedChar byte = 0 := by
  have length : keyboardScancode1ToAsciiMap.length = 79 := rfl
  rw [mappedChar, List.getD_eq_getElem?_getD, List.getElem?_eq_none (by omega), Option.getD_none]

theorem Printable.lt (printable : Printable scancode) : scancode.toNat < 79 := by
  by_contra high
  rw [Printable, mappedChar_high (by omega)] at printable
  exact absurd printable (by decide)

/-- The printable keys are ordinary ones, and so are their releases. -/
theorem plain_of_lt : ∀ i < 79, Printable (UInt8.ofNat i) →
    Plain (UInt8.ofNat i) ∧ Plain (UInt8.ofNat i + 0x80) ∧ UInt8.ofNat i ≠ 0x0E ∧ UInt8.ofNat i ≠ enterScancode := by
  decide +kernel

theorem Printable.plain (printable : Printable scancode) :
    Plain scancode ∧ Plain (scancode + 0x80) ∧ scancode ≠ 0x0E ∧ scancode ≠ enterScancode := by
  have same : UInt8.ofNat scancode.toNat = scancode := UInt8.ofNat_toNat
  have facts := plain_of_lt scancode.toNat printable.lt
  rw [same] at facts
  exact facts printable

theorem Printable.mappedChar_ne (printable : Printable scancode) :
    mappedChar scancode ≠ backspaceChar ∧ mappedChar scancode ≠ lineFeed ∧ mappedChar scancode ≠ 0 := by
  refine ⟨?_, ?_, ?_⟩ <;>
    · intro same
      rw [Printable, same] at printable
      exact absurd printable (by decide)

theorem Key.scancode_lt (key : Key) : key.scancode.toNat < 79 := by
  cases key with
  | printable _ printable => exact printable.lt
  | backspace => decide

theorem Key.plain (key : Key) : Plain key.scancode ∧ Plain (key.scancode + 0x80) := by
  cases key with
  | printable _ printable => exact ⟨printable.plain.1, printable.plain.2.1⟩
  | backspace => decide

theorem Key.toNat_release (key : Key) : (key.scancode + 0x80).toNat = key.scancode.toNat + 128 := by
  have low := key.scancode_lt
  rw [UInt8.toNat_add]
  exact Nat.mod_eq_of_lt (by simp; omega)

/-! ## One round of the loop -/

namespace Isr

theorem modifiers_plain (plain : Plain byte) : isr.modifiers byte = isr := by
  simp only [Plain, List.mem_cons, List.not_mem_nil, or_false, not_or] at plain
  obtain ⟨left, right, leftUp, rightUp, ctrl, ctrlUp, alt, altUp, _⟩ := plain
  simp [modifiers, left, right, leftUp, rightUp, ctrl, ctrlUp, alt, altUp]

/-- Neither Shift nor Caps Lock is in effect, and the input is on. -/
structure Unmodified (isr : Isr) : Prop where
  shift : isr.shift = false
  capslock : isr.capslock = false
  blocking : isr.terminal.keyboard.keyboardInputOn = true

theorem Unmodified.shiftCase (unmodified : isr.Unmodified) : isr.shiftCase byte = byte := by
  simp [Isr.shiftCase, unmodified.shift, unmodified.capslock]

theorem Unmodified.not_shiftBackspace (unmodified : isr.Unmodified) : ¬ isr.ShiftBackspace byte := by
  rintro ⟨_, shift, _⟩
  rw [unmodified.shift] at shift
  cases shift

/-- A run behind the press of a key, which it finds down. -/
structure Pressed (isr : Isr) (key : Key) (k' : KeyboardDriver) (isr' : Isr) : Prop where
  keyboard : isr'.terminal.keyboard = k'
  shift : isr'.shift = isr.shift
  capslock : isr'.capslock = isr.capslock
  waiting : isr'.waiting = .release key.scancode

/-- A key that is pressed without a modifier. -/
theorem Unmodified.process_press (unmodified : isr.Unmodified) (key : Key) :
    isr.process key.scancode (mappedChar key.scancode) = none ∧ isr.terminal.keyboard.strike key = none ∨
      ∃ k' isr', isr.process key.scancode (mappedChar key.scancode) = some isr' ∧
        isr.terminal.keyboard.strike key = some k' ∧ Pressed isr key k' isr' := by
  have plain : isr.modifiers key.scancode = isr := modifiers_plain key.plain.1
  simp only [process, plain, unmodified.not_shiftBackspace, ↓reduceIte]
  cases key with
  | backspace =>
    have mapped : mappedChar Key.backspace.scancode = backspaceChar := by decide
    simp only [mapped, ↓reduceIte, KeyboardDriver.strike]
    cases pressed : isr.terminal.keyboard.backspace with
    | none => exact .inl ⟨rfl, rfl⟩
    | some k' => exact .inr ⟨k', _, rfl, rfl, ⟨rfl, rfl, rfl, rfl⟩⟩
  | printable scancode printable =>
    obtain ⟨notBackspace, notLineFeed, notZero⟩ := printable.mappedChar_ne
    simp only [Key.scancode, notBackspace, notLineFeed, notZero, ne_eq, not_false_eq_true, ↓reduceIte,
      unmodified.shiftCase, KeyboardDriver.strike]
    cases pressed : isr.terminal.keyboard.insert (mappedChar scancode) with
    | none => exact .inl ⟨rfl, rfl⟩
    | some k' => exact .inr ⟨k', _, rfl, rfl, ⟨rfl, rfl, rfl, rfl⟩⟩

/-! ## The whole run -/

/-- The run at the top of the loop. -/
def top (isr : Isr) : Isr := { isr with waiting := .scancode }

theorem top_of_waiting (waiting : isr.waiting = .scancode) : isr.top = isr := by rw [top, ← waiting]

theorem read_scancode (waiting : isr.waiting = .scancode) (plain : Plain byte) :
    isr.read byte = isr.process byte (mappedChar byte) := by
  have notCapslock : byte ≠ 0x3A := fun same => plain (by simp [same])
  simp only [read, waiting, notCapslock, ↓reduceIte]

theorem loop_cons (blocking : isr.terminal.keyboard.keyboardInputOn = true) :
    isr.loop (byte :: reads) = (isr.read byte).bind fun isr' => isr'.loop reads := by
  rw [loop, KeyboardDriver.isKeyboardBlocking, if_pos blocking]
  rfl

/-- Reads that change nothing. -/
theorem loop_idle (blocking : isr.terminal.keyboard.keyboardInputOn = true) (idle : isr.read byte = some isr) :
    isr.loop (List.replicate n byte ++ reads) = isr.loop reads := by
  induction n with
  | zero => rfl
  | succ n ih => rw [List.replicate_succ, List.cons_append, loop_cons blocking, idle, Option.bind_some, ih]

/-- The read that tells that another key has gone up, or down. -/
theorem loop_waiting (blocking : isr.terminal.keyboard.keyboardInputOn = true)
    (waiting : isr.waiting = .release scancode) (other : scancode ≠ byte) :
    isr.loop (List.replicate (n + 1) byte ++ reads) = isr.top.loop (List.replicate n byte ++ reads) := by
  have first : isr.read byte = some isr.top := by
    simp only [read, waiting, other.symm, ↓reduceIte]
    rfl
  rw [List.replicate_succ, List.cons_append, loop_cons blocking, first, Option.bind_some]

/-- The read that the loop works on. -/
theorem loop_scancode (blocking : isr.terminal.keyboard.keyboardInputOn = true) (waiting : isr.waiting = .scancode)
    (plain : Plain byte) :
    isr.loop (List.replicate (n + 1) byte ++ reads) =
      (isr.process byte (mappedChar byte)).bind fun isr' => isr'.loop (List.replicate n byte ++ reads) := by
  rw [List.replicate_succ, List.cons_append, loop_cons blocking, read_scancode waiting plain]

end Isr

theorem Key.eq_of_scancode {key' : Key} (same : key.scancode = key'.scancode) : key = key' := by
  cases key with
  | backspace =>
    cases key' with
    | backspace => rfl
    | printable _ printable => exact absurd same.symm printable.plain.2.2.1
  | printable _ printable =>
    cases key' with
    | backspace => exact absurd same printable.plain.2.2.1
    | printable _ _ =>
      cases same
      rfl

namespace Isr

/-- The run as it waits behind an event. -/
structure Settled (isr : Isr) (e : KeyEvent) : Prop extends Unmodified isr where
  waiting : isr.waiting = match e with
    | .press key => .release key.scancode
    | .release _ => .scancode

theorem Settled.top (settled : isr.Settled e) : isr.top.Unmodified :=
  ⟨settled.shift, settled.capslock, settled.blocking⟩

/-- A press that is read twice behind another one is worked on, whichever key that was. -/
theorem Settled.loop_press (settled : isr.Settled e) (plain : Plain byte)
    (other : ∀ key, e = .press key → key.scancode ≠ byte) (n : Nat) (reads : List UInt8) :
    isr.loop (shown e.isPress byte n ++ reads) =
      (isr.top.process byte (mappedChar byte)).bind fun isr' => isr'.loop (List.replicate n byte ++ reads) := by
  have waiting := settled.waiting
  cases e with
  | press key =>
    rw [shown, KeyEvent.isPress, if_pos rfl, loop_waiting settled.blocking waiting (other key rfl),
      loop_scancode settled.top.blocking rfl plain]
  | release key =>
    rw [shown, KeyEvent.isPress, if_neg Bool.false_ne_true, loop_scancode settled.blocking waiting plain,
      top_of_waiting waiting]

/-- A release leaves the run at the top of the loop, with one read or more. -/
theorem Settled.loop_release (settled : isr.Settled e) (n : Nat) (reads : List UInt8) :
    isr.loop (shown false (KeyEvent.release key).byte n ++ reads) = isr.top.loop reads := by
  have high : 79 ≤ (key.scancode + 0x80).toNat := by
    rw [key.toNat_release]
    omega
  have skipped : isr.top.process (key.scancode + 0x80) (mappedChar (key.scancode + 0x80)) = some isr.top := by
    simp only [process, modifiers_plain key.plain.2, settled.top.not_shiftBackspace, mappedChar_high high]
    rfl
  have idle : isr.top.loop (List.replicate n (key.scancode + 0x80) ++ reads) = isr.top.loop reads :=
    loop_idle settled.top.blocking ((read_scancode rfl key.plain.2).trans skipped)
  have waiting := settled.waiting
  rw [shown, KeyEvent.byte, if_neg Bool.false_ne_true]
  cases e with
  | press key' =>
    have other : key'.scancode ≠ key.scancode + 0x80 := by
      intro same
      have bytes := congrArg UInt8.toNat same
      have low := key'.scancode_lt
      rw [key.toNat_release] at bytes
      omega
    rw [loop_waiting settled.blocking waiting other, idle]
  | release key' =>
    have same : isr.top = isr := top_of_waiting waiting
    rw [same] at skipped idle
    rw [loop_scancode settled.blocking waiting key.plain.2, skipped, Option.bind_some, idle, same]

/-- What one event does, however often it is read. -/
theorem Settled.loop_event (settled : isr.Settled e) (follows : Follows e e') (n : Nat) (reads : List UInt8) :
    (isr.loop (shown (e.isPress && e'.isPress) e'.byte n ++ reads) = none ∧
        isr.terminal.keyboard.event e' = none) ∨
      ∃ isr' : Isr, isr.loop (shown (e.isPress && e'.isPress) e'.byte n ++ reads) = isr'.loop reads ∧
        isr'.Settled e' ∧ isr.terminal.keyboard.event e' = some isr'.terminal.keyboard := by
  cases e' with
  | press key =>
    have other (key' : Key) (before : e = .press key') : key'.scancode ≠ key.scancode :=
      fun same => follows key' before (Key.eq_of_scancode same ▸ rfl)
    have worked := settled.loop_press key.plain.1 other n reads
    rw [show (KeyEvent.press key).isPress = true from rfl, Bool.and_true, KeyEvent.byte, worked]
    rcases settled.top.process_press key with ⟨failed, failed'⟩ | ⟨k', isr', pressed, struck, effect⟩
    · left
      exact ⟨by rw [failed, Option.bind_none], failed'⟩
    · right
      have on : isr'.terminal.keyboard.keyboardInputOn = true := by
        rw [effect.keyboard]
        exact (KeyboardDriver.keyboardInputOn_strike struck).trans settled.blocking
      have idle : isr'.read key.scancode = some isr' := by
        simp only [read, effect.waiting, ↓reduceIte]
      refine ⟨isr', ?_, ⟨⟨effect.shift.trans settled.shift, effect.capslock.trans settled.capslock, on⟩,
        effect.waiting⟩, ?_⟩
      · rw [pressed, Option.bind_some, loop_idle on idle]
      · rw [effect.keyboard]
        exact struck
  | release key =>
    right
    rw [show (KeyEvent.release key).isPress = false from rfl, Bool.and_false, settled.loop_release n reads]
    exact ⟨isr.top, rfl, ⟨settled.top, rfl⟩, rfl⟩

/-- Enter ends the run. -/
theorem Settled.loop_enter (settled : isr.Settled e) (n : Nat) (reads : List UInt8) :
    ∃ isr', isr.loop (shown e.isPress enterScancode n ++ reads) =
        some (isr', List.replicate n enterScancode ++ reads) ∧
      isr'.terminal.keyboard = isr.terminal.keyboard.enter := by
  have plain : Plain enterScancode := by decide
  have mapped : mappedChar enterScancode = lineFeed := by decide
  have other (key : Key) (_ : e = .press key) : key.scancode ≠ enterScancode := by
    cases key with
    | backspace => decide
    | printable _ printable => exact printable.plain.2.2.2
  have off (isr' : Isr) (reads : List UInt8) (off : isr'.terminal.keyboard.keyboardInputOn = false) :
      isr'.loop reads = some (isr', reads) := by
    cases reads <;> simp [loop, KeyboardDriver.isKeyboardBlocking, off]
  rw [settled.loop_press plain other n reads]
  simp only [process, modifiers_plain plain, settled.top.not_shiftBackspace, mapped, ↓reduceIte]
  rw [if_neg (by decide), Option.bind_some, off _ _ rfl]
  exact ⟨_, rfl, rfl⟩

/-- The driver behind a run is the driver behind the presses.  Induction on the events. -/
theorem Settled.loop_events (settled : isr.Settled e) (n : Nat) (reads : List UInt8)
    (follows : List.IsChain Follows (e :: events.map Prod.fst)) :
    (isr.loop (portReads e.isPress events n ++ reads)).map (·.1.terminal.keyboard) =
      ((presses events).foldlM KeyboardDriver.strike isr.terminal.keyboard).map KeyboardDriver.enter := by
  induction events generalizing isr e with
  | nil =>
    obtain ⟨isr', result, keyboard⟩ := settled.loop_enter n reads
    rw [portReads, result]
    exact congrArg some keyboard
  | cons event events ih =>
    obtain ⟨e', m⟩ := event
    obtain ⟨next, rest⟩ := List.isChain_cons_cons.mp follows
    have keys : (presses ((e', m) :: events)).foldlM KeyboardDriver.strike isr.terminal.keyboard =
        (isr.terminal.keyboard.event e').bind fun k => (presses events).foldlM KeyboardDriver.strike k := by
      cases e' with
      | press key => rfl
      | release key => rfl
    rw [portReads, List.append_assoc, keys]
    rcases settled.loop_event next m (portReads e'.isPress events n ++ reads) with
      ⟨failed, failed'⟩ | ⟨isr', result, settled', event⟩
    · rw [failed, failed']
      rfl
    · rw [result, event, Option.bind_some]
      exact ih settled' rest

end Isr

/-- The driver behind a line of printable keys and Backspace. -/
theorem keyboardIsr_events {t : Terminal} (on : t.keyboard.keyboardInputOn = true)
    (follows : List.IsChain Follows (events.map Prod.fst)) (n : Nat) (reads : List UInt8) :
    (keyboardIsr t (portReads false events n ++ reads)).map (·.1.keyboard) =
      ((presses events).foldlM KeyboardDriver.strike t.keyboard.resetIndex).map KeyboardDriver.enter := by
  -- the loop starts as it goes on behind a release
  have settled : (Isr.start t).Settled (.release .backspace) := ⟨⟨rfl, rfl, on⟩, rfl⟩
  have chain : List.IsChain Follows (.release .backspace :: events.map Prod.fst) := by
    cases events with
    | nil => exact .singleton _
    | cons event events => exact .cons_cons (fun _ same => nomatch same) follows
  have run : ((Isr.start t).loop (portReads false events n ++ reads)).map (·.1.terminal.keyboard) =
      ((presses events).foldlM KeyboardDriver.strike t.keyboard.resetIndex).map KeyboardDriver.enter :=
    settled.loop_events n reads chain
  refine Eq.trans ?_ run
  rw [keyboardIsr, KeyboardDriver.isKeyboardBlocking, if_pos on]
  cases (Isr.start t).loop (portReads false events n ++ reads) <;> rfl

end Brother420.Console
