import Brother420.Memory

/-! # The keyboard driver

`keyboard.c`, with what it draws on the screen.  A run of `keyboard_isr` reads one
byte after the other from the data port; `Isr.read` is what the loop does from
one of these reads to the next.  An index outside `backspaceLine` is the result
`none`.
-/

namespace Brother420.Console

open Packed (Bytes)

/-! ## The screen -/

/-- A call of `framebuffer_write`, `framebuffer_set_cursor` or `framebuffer_clear`, without colours. -/
inductive Draw
  | write (row col c : UInt8)
  | setCursor (row col : UInt8)
  | clear
  deriving DecidableEq

/-! ## The driver -/

/-- The static variables of the position on the screen. -/
structure Cursor where
  row : Int
  col : Int
  backspaceLine : Fin 25 → Int

/-- `keyboardState` and the position. -/
structure KeyboardDriver where
  keyboardInputOn : Bool
  bufferIndex : UInt8
  keyboardBuffer : Bytes 256
  cursor : Cursor

/-- The driver and what has been drawn so far. -/
structure Terminal where
  keyboard : KeyboardDriver
  screen : List Draw

def ascii (chars : List Char) : List UInt8 := chars.map Char.toUInt8

def backspaceChar : UInt8 := 0x08

def lineFeed : UInt8 := 0x0A

def blank : UInt8 := ' '.toUInt8

/-- The entries behind the last one are 0. -/
def keyboardScancode1ToAsciiMap : List UInt8 :=
  [0, 0x1B] ++ ascii ['1', '2', '3', '4', '5', '6', '7', '8', '9', '0', '-', '='] ++ [backspaceChar, 0x09] ++
  ascii ['q', 'w', 'e', 'r', 't', 'y', 'u', 'i', 'o', 'p', '[', ']'] ++ [lineFeed, 0] ++ ascii ['a', 's'] ++
  ascii ['d', 'f', 'g', 'h', 'j', 'k', 'l', ';'] ++ [0x27, 0x60, 0, 0x5C] ++ ascii ['z', 'x', 'c', 'v'] ++
  ascii ['b', 'n', 'm', ',', '.', '/'] ++ [0] ++ ascii ['*'] ++ [0] ++ ascii [' '] ++ List.replicate 6 0 ++
  List.replicate 10 0 ++ ascii ['-'] ++ [0, 0, 0] ++ ascii ['+']

def mappedChar (scancode : UInt8) : UInt8 := keyboardScancode1ToAsciiMap.getD scancode.toNat 0

namespace Cursor

/-- The element of `backspaceLine` for a row. -/
def line (row : Int) : Option (Fin 25) := if h : 0 ≤ row ∧ row < 25 then some ⟨row.toNat, by omega⟩ else none

/-- The next row; the last one stays. -/
def rowBelow (row : Int) : Int := if row ≥ 24 then 24 else row + 1

/-- The position behind a character that is typed. -/
def advance (c : Cursor) : Option Cursor :=
  if c.col ≥ 79 then some { c with row := rowBelow c.row, col := 0 }
  else do
    let i ← line c.row
    some { c with col := c.col + 1, backspaceLine := Function.update c.backspaceLine i (c.backspaceLine i + 1) }

/-- One column back. -/
def back (c : Cursor) : Option Cursor := do
  let i ← line c.row
  some { c with col := c.col - 1, backspaceLine := Function.update c.backspaceLine i (c.backspaceLine i - 1) }

/-- From column 0 to the row above, behind the characters that it counts. -/
def up (c : Cursor) : Option Cursor :=
  if c.row ≤ 0 then some { c with row := 0 }
  else do
    let i ← line (c.row - 1)
    some { c with row := c.row - 1, col := c.backspaceLine i }

/-- A character at the position. -/
def write (c : Cursor) (char : UInt8) : Draw := .write (UInt8.ofInt c.row) (UInt8.ofInt c.col) char

def setCursor (c : Cursor) : Draw := .setCursor (UInt8.ofInt c.row) (UInt8.ofInt c.col)

end Cursor

namespace KeyboardDriver

def keyboardStateActivate (k : KeyboardDriver) : KeyboardDriver := { k with keyboardInputOn := true }

def keyboardStateDeactivate (k : KeyboardDriver) : KeyboardDriver := { k with keyboardInputOn := false }

def clearKeyboardBuffer (k : KeyboardDriver) : KeyboardDriver := { k with keyboardBuffer := fun _ => 0 }

def getKeyboardBuffer (k : KeyboardDriver) : Bytes 256 := k.keyboardBuffer

def isKeyboardBlocking (k : KeyboardDriver) : Bool := k.keyboardInputOn

def addRow (k : KeyboardDriver) (n : Int) : KeyboardDriver := { k with cursor.row := k.cursor.row + n }

def setRow (k : KeyboardDriver) (n : Int) : KeyboardDriver := { k with cursor.row := n }

def setCol (k : KeyboardDriver) (cols : UInt8) : KeyboardDriver :=
  { k with cursor.col := if cols ≥ 80 then 0 else cols.toNat }

/-- A run starts with no characters. -/
def resetIndex (k : KeyboardDriver) : KeyboardDriver := { k with bufferIndex := 0 }

/-- The last character is given up; its place in the buffer keeps it. -/
def erase (k : KeyboardDriver) : Option KeyboardDriver := do
  let cursor ← k.cursor.back
  some { k with bufferIndex := k.bufferIndex - 1, cursor }

/-- Nothing is given up in column 0. -/
def backspace (k : KeyboardDriver) : Option KeyboardDriver :=
  if k.bufferIndex = 0 then some k
  else if k.cursor.col ≠ 0 then k.erase
  else do
    let cursor ← k.cursor.up
    some { k with cursor }

def enter (k : KeyboardDriver) : KeyboardDriver :=
  keyboardStateDeactivate { k.resetIndex with cursor.row := Cursor.rowBelow k.cursor.row }

def insert (k : KeyboardDriver) (char : UInt8) : Option KeyboardDriver := do
  let cursor ← k.cursor.advance
  some { k with
    keyboardBuffer := Function.update k.keyboardBuffer k.bufferIndex.toFin char
    bufferIndex := k.bufferIndex + 1
    cursor }

end KeyboardDriver

/-! ## The interrupt -/

/-- Which `in` the run is about to execute. -/
inductive Waiting
  /-- At the top of the loop. -/
  | scancode
  /-- Behind Caps Lock. -/
  | capslock
  /-- Behind a key that is still down. -/
  | release (scancode : UInt8)

/-- A run of `keyboard_isr` between two reads. -/
structure Isr where
  terminal : Terminal
  alt : Bool
  ctrl : Bool
  shift : Bool
  capslock : Bool
  waiting : Waiting

namespace Isr

def start (t : Terminal) : Isr :=
  ⟨{ t with keyboard := t.keyboard.resetIndex }, false, false, false, false, .scancode⟩

/-- The driver and what is drawn, after one round of the loop. -/
def continue_ (isr : Isr) (keyboard : KeyboardDriver) (drawn : List Draw) (waiting : Waiting) : Isr :=
  { isr with terminal := ⟨keyboard, isr.terminal.screen ++ drawn⟩, waiting }

/-- The keys that are only remembered. -/
def modifiers (isr : Isr) (scancode : UInt8) : Isr :=
  { isr with
    shift := if scancode = 0x2A ∨ scancode = 0x36 then true
      else if scancode = 0xAA ∨ scancode = 0xB6 then false else isr.shift
    ctrl := if scancode = 0x1D then true else if scancode = 0x9D then false else isr.ctrl
    alt := if scancode = 0x38 then true else if scancode = 0xB8 then false else isr.alt }

/-- There is a character before the index that Shift and Backspace remove. -/
def ShiftBackspace (isr : Isr) (scancode : UInt8) : Prop :=
  scancode = 0x0E ∧ isr.shift ∧ isr.terminal.keyboard.bufferIndex > 0 ∧
    isr.terminal.keyboard.keyboardBuffer (isr.terminal.keyboard.bufferIndex - 1).toFin ≠ blank

instance (isr : Isr) (scancode : UInt8) : Decidable (isr.ShiftBackspace scancode) := by
  unfold ShiftBackspace
  infer_instance

def shiftCase (isr : Isr) (mapped : UInt8) : UInt8 :=
  if isr.capslock && !isr.shift || !isr.capslock && isr.shift then
    if mapped ≥ 'a'.toUInt8 ∧ mapped ≤ 'z'.toUInt8 then mapped - 32 else mapped
  else if isr.capslock && isr.shift then
    if mapped ≥ 'A'.toUInt8 ∧ mapped ≤ 'Z'.toUInt8 then mapped + 32 else mapped
  else mapped

/-- Where the hardware cursor goes behind a character. -/
def cursorBehind (c : Cursor) : Draw :=
  if c.col ≥ 79 ∧ c.row < 24 then .setCursor (UInt8.ofInt (c.row + 1)) 0
  else if c.row ≥ 24 then .setCursor 24 0
  else c.setCursor

/-- The rest of the round, for a scancode and the character that was looked up for it. -/
def process (isr : Isr) (scancode mapped : UInt8) : Option Isr :=
  let isr := isr.modifiers scancode
  let k := isr.terminal.keyboard
  if isr.ShiftBackspace scancode then do
    let k ← k.erase
    some (isr.continue_ k [k.cursor.write 0, k.cursor.setCursor] .scancode)
  else if mapped = backspaceChar then do
    let k ← k.backspace
    some (isr.continue_ k [k.cursor.write 0, k.cursor.setCursor] (.release 0x0E))
  else if mapped = lineFeed then
    let below : Draw := .setCursor (UInt8.ofInt (k.cursor.row + 1)) (UInt8.ofInt k.cursor.col)
    some (isr.continue_ k.enter [below] .scancode)
  else if mapped ≠ 0 then do
    let char := isr.shiftCase mapped
    let k' ← k.insert char
    let isr := isr.continue_ k' [k.cursor.write char, cursorBehind k'.cursor] (.release scancode)
    some { isr with ctrl := isr.alt, alt := isr.alt }
  else some { isr with waiting := .scancode }

def read (isr : Isr) (byte : UInt8) : Option Isr :=
  match isr.waiting with
  | .scancode =>
    if byte = 0x3A then some { isr with capslock := !isr.capslock, waiting := .capslock }
    else isr.process byte (mappedChar byte)
  -- the character is still that of Caps Lock
  | .capslock => if byte = 0x3A then some isr else isr.process byte (mappedChar 0x3A)
  | .release scancode => some (if byte = scancode then isr else { isr with waiting := .scancode })

/-- The run up to the end of the input, with the reads that it leaves.  A run that goes on
    is `none`. -/
def loop (isr : Isr) : List UInt8 → Option (Isr × List UInt8)
  | [] => if isr.terminal.keyboard.isKeyboardBlocking then none else some (isr, [])
  | byte :: reads =>
    if isr.terminal.keyboard.isKeyboardBlocking then do
      let isr ← isr.read byte
      loop isr reads
    else some (isr, byte :: reads)

end Isr

/-- The character that the loop looks up when it reads `byte`; a read that it only waits with looks up none. -/
def Isr.lookup (isr : Isr) (byte : UInt8) : Option UInt8 :=
  match isr.waiting with
  | .scancode => if byte = 0x3A then none else some (mappedChar byte)
  | .capslock => if byte = 0x3A then none else some (mappedChar 0x3A)
  | .release _ => none

/-- What the interrupt does while the input is off. -/
def Terminal.ignore (t : Terminal) : Terminal := ⟨t.keyboard.resetIndex, t.screen ++ [.write 21 11 'L'.toUInt8]⟩

def keyboardIsr (t : Terminal) (reads : List UInt8) : Option (Terminal × List UInt8) :=
  if t.keyboard.isKeyboardBlocking then do
    let (isr, reads) ← (Isr.start t).loop reads
    some (isr.terminal, reads)
  else some (t.ignore, reads)

/-! ## What a key does -/

namespace KeyboardDriver

variable {k k' : KeyboardDriver} {char : UInt8}

theorem erase_cases (erased : k.erase = some k') :
    ∃ cursor, k.cursor.back = some cursor ∧ k' = { k with bufferIndex := k.bufferIndex - 1, cursor } := by
  obtain ⟨cursor, moved, same⟩ := Option.bind_eq_some_iff.mp erased
  exact ⟨cursor, moved, (Option.some.inj same).symm⟩

theorem insert_cases (inserted : k.insert char = some k') :
    ∃ cursor, k.cursor.advance = some cursor ∧ k' = { k with
      keyboardBuffer := Function.update k.keyboardBuffer k.bufferIndex.toFin char
      bufferIndex := k.bufferIndex + 1
      cursor } := by
  obtain ⟨cursor, moved, same⟩ := Option.bind_eq_some_iff.mp inserted
  exact ⟨cursor, moved, (Option.some.inj same).symm⟩

/-- Backspace does nothing before the first character; in column 0 it moves the position only. -/
theorem backspace_cases (pressed : k.backspace = some k') :
    k.bufferIndex = 0 ∧ k' = k ∨
      (k.bufferIndex ≠ 0 ∧ k.cursor.col ≠ 0 ∧ k.erase = some k') ∨
      k.bufferIndex ≠ 0 ∧ k.cursor.col = 0 ∧ ∃ cursor, k.cursor.up = some cursor ∧ k' = { k with cursor } := by
  unfold backspace at pressed
  split at pressed
  · rename_i empty
    cases pressed
    exact .inl ⟨empty, rfl⟩
  · rename_i notEmpty
    split at pressed
    · rename_i right
      exact .inr (.inl ⟨notEmpty, right, pressed⟩)
    · rename_i zero
      obtain ⟨cursor, moved, same⟩ := Option.bind_eq_some_iff.mp pressed
      exact .inr (.inr ⟨notEmpty, not_not.mp zero, cursor, moved, (Option.some.inj same).symm⟩)

theorem keyboardInputOn_erase (erased : k.erase = some k') : k'.keyboardInputOn = k.keyboardInputOn := by
  obtain ⟨cursor, _, rfl⟩ := erase_cases erased
  rfl

theorem keyboardInputOn_backspace (pressed : k.backspace = some k') : k'.keyboardInputOn = k.keyboardInputOn := by
  rcases backspace_cases pressed with ⟨_, rfl⟩ | ⟨_, _, erased⟩ | ⟨_, _, cursor, _, rfl⟩
  · rfl
  · exact keyboardInputOn_erase erased
  · rfl

theorem keyboardInputOn_insert (inserted : k.insert char = some k') : k'.keyboardInputOn = k.keyboardInputOn := by
  obtain ⟨cursor, _, rfl⟩ := insert_cases inserted
  rfl

end KeyboardDriver

/-! ## What a read does -/

/-- The driver that a read leaves, and what it draws. -/
inductive Isr.Effect (isr : Isr) (byte : UInt8) : KeyboardDriver → List Draw → Prop
  | quiet : isr.Effect byte isr.terminal.keyboard []
  | shiftBackspace {k : KeyboardDriver} {mapped : UInt8} : isr.lookup byte = some mapped →
      (isr.modifiers byte).ShiftBackspace byte → isr.terminal.keyboard.erase = some k →
      isr.Effect byte k [k.cursor.write 0, k.cursor.setCursor]
  | backspace {k : KeyboardDriver} : isr.lookup byte = some backspaceChar →
      ¬ (isr.modifiers byte).ShiftBackspace byte → isr.terminal.keyboard.backspace = some k →
      isr.Effect byte k [k.cursor.write 0, k.cursor.setCursor]
  | enter {row col : UInt8} : isr.lookup byte = some lineFeed →
      isr.Effect byte isr.terminal.keyboard.enter [.setCursor row col]
  | insert {k : KeyboardDriver} {mapped char : UInt8} : isr.lookup byte = some mapped → mapped ≠ backspaceChar →
      mapped ≠ lineFeed → mapped ≠ 0 → isr.terminal.keyboard.insert char = some k →
      isr.Effect byte k [isr.terminal.keyboard.cursor.write char, cursorBehind k.cursor]

namespace Isr

variable {isr isr' : Isr} {byte mapped : UInt8}

theorem process_effect (looked : isr.lookup byte = some mapped) (read : isr.process byte mapped = some isr') :
    ∃ drawn, isr.Effect byte isr'.terminal.keyboard drawn ∧
      isr'.terminal.screen = isr.terminal.screen ++ drawn := by
  unfold process at read
  dsimp only at read
  split at read
  · rename_i shifted
    obtain ⟨k, erased, same⟩ := Option.bind_eq_some_iff.mp read
    cases same
    exact ⟨_, .shiftBackspace looked shifted erased, rfl⟩
  · rename_i notShifted
    split at read
    · rename_i isBackspace
      subst isBackspace
      obtain ⟨k, pressed, same⟩ := Option.bind_eq_some_iff.mp read
      cases same
      exact ⟨_, .backspace looked notShifted pressed, rfl⟩
    · rename_i notBackspace
      split at read
      · rename_i isLineFeed
        subst isLineFeed
        cases read
        exact ⟨_, .enter looked, rfl⟩
      · rename_i notLineFeed
        split at read
        · rename_i notZero
          obtain ⟨k, inserted, same⟩ := Option.bind_eq_some_iff.mp read
          cases same
          exact ⟨_, .insert looked notBackspace notLineFeed notZero inserted, rfl⟩
        · cases read
          exact ⟨[], .quiet, (List.append_nil _).symm⟩

/-- A read that looks up no character leaves the terminal as it is. -/
theorem read_cases (isr : Isr) (byte : UInt8) :
    (isr.lookup byte = none ∧ ∃ isr', isr.read byte = some isr' ∧ isr'.terminal = isr.terminal) ∨
      ∃ mapped, isr.lookup byte = some mapped ∧ isr.read byte = isr.process byte mapped := by
  unfold Isr.read lookup
  cases isr.waiting with
  | scancode =>
    dsimp only
    split
    · exact .inl ⟨rfl, _, rfl, rfl⟩
    · exact .inr ⟨_, rfl, rfl⟩
  | capslock =>
    dsimp only
    split
    · exact .inl ⟨rfl, _, rfl, rfl⟩
    · exact .inr ⟨_, rfl, rfl⟩
  | release scancode =>
    refine .inl ⟨rfl, _, rfl, ?_⟩
    split <;> rfl

/-- Everything that one read can do. -/
theorem read_effect (read : isr.read byte = some isr') :
    ∃ drawn, isr.Effect byte isr'.terminal.keyboard drawn ∧
      isr'.terminal.screen = isr.terminal.screen ++ drawn := by
  rcases isr.read_cases byte with ⟨_, isr₁, quiet, same⟩ | ⟨mapped, looked, worked⟩
  · cases read.symm.trans quiet
    rw [same]
    exact ⟨[], .quiet, (List.append_nil _).symm⟩
  · exact process_effect looked (worked.symm.trans read)

end Isr

end Brother420.Console
