import Brother420.Console.Editing
import Brother420.Console.Bounds

/-! # The index and the position

While a line is typed, the index into the buffer should be the distance, cell by cell,
from where the run of the interrupt started.  Printable characters keep it so up to 255
of them, and across the end of a row; Backspace and Shift with Backspace do behind column
0 only.
-/

namespace Brother420.Console

open Runs (Run)

/-! ## What is pressed -/

/-- A printable key, Backspace or Shift goes down or up. -/
def KeyByte (byte : UInt8) : Prop :=
  (∃ key : Key, byte = key.scancode ∨ byte = key.scancode + 0x80) ∨ byte ∈ [0x2A, 0x36, 0xAA, 0xB6]

/-- One of these keys, and no character behind the last cell of the last row. -/
structure Isr.OnPage (isr : Isr) (byte : UInt8) : Prop where
  key : KeyByte byte
  room : ∀ mapped, isr.lookup byte = some mapped → mapped ≠ backspaceChar → mapped ≠ 0 →
    isr.terminal.keyboard.cursor.row < 24 ∨ isr.terminal.keyboard.cursor.col < 79

variable {isr isr' : Isr} {byte mapped : UInt8} {k k' : KeyboardDriver} {c : Cursor} {drawn : List Draw}

/-- None of these keys is Enter. -/
theorem KeyByte.mappedChar_ne (key : KeyByte byte) : mappedChar byte ≠ lineFeed := by
  rcases key with ⟨key, rfl | rfl⟩ | shift
  · cases key with
    | printable _ printable => exact printable.mappedChar_ne.2.1
    | backspace => decide
  · have high : 79 ≤ (key.scancode + 0x80).toNat := by
      rw [key.toNat_release]
      omega
    rw [mappedChar_high high]
    decide
  · have each : ∀ byte ∈ [0x2A, 0x36, 0xAA, 0xB6], mappedChar byte ≠ lineFeed := by decide +kernel
    exact each byte shift

theorem Isr.OnPage.lookup_ne (onPage : isr.OnPage byte) : isr.lookup byte ≠ some lineFeed := by
  unfold lookup
  cases isr.waiting with
  | scancode =>
    dsimp only
    split
    · simp
    · exact fun same => onPage.key.mappedChar_ne (Option.some.inj same)
  | capslock =>
    dsimp only
    split
    · simp
    · decide
  | release scancode => simp

/-! ## The distance -/

/-- The index is the distance from `c`, and the column is none to the left of the screen. -/
structure Together (c : Cursor) (k : KeyboardDriver) : Prop where
  distance : (k.bufferIndex.toNat : Int) = 80 * k.cursor.row + k.cursor.col - (80 * c.row + c.col)
  col : 0 ≤ k.cursor.col

/-- Such a position in one of the rows; column 80 is the cell behind the row. -/
structure Placed (c : Cursor) (k : KeyboardDriver) : Prop extends Together c k where
  row : 0 ≤ k.cursor.row ∧ k.cursor.row ≤ 24
  wide : k.cursor.col ≤ 80

/-- What keeps the two together: a character that the index can count, in a column of the screen; with Shift and
    Backspace a column to the left; and with Backspace the same, or a row above that is counted as full. -/
structure Isr.KeepsDistance (isr : Isr) (byte : UInt8) : Prop where
  insert : ∀ mapped, isr.lookup byte = some mapped → mapped ≠ backspaceChar → mapped ≠ 0 →
    isr.terminal.keyboard.bufferIndex ≠ 255 ∧ isr.terminal.keyboard.cursor.col ≤ 79
  shiftBackspace : ∀ mapped, isr.lookup byte = some mapped → (isr.modifiers byte).ShiftBackspace byte →
    isr.terminal.keyboard.cursor.col ≠ 0
  backspace : isr.lookup byte = some backspaceChar → ¬ (isr.modifiers byte).ShiftBackspace byte →
    isr.terminal.keyboard.bufferIndex ≠ 0 → isr.terminal.keyboard.cursor.col = 0 →
    ∀ i, Cursor.line (isr.terminal.keyboard.cursor.row - 1) = some i →
      isr.terminal.keyboard.cursor.backspaceLine i = 80

/-! ## One key -/

theorem toNat_sub_one {index : UInt8} (notZero : index ≠ 0) : (index - 1).toNat + 1 = index.toNat := by
  have one : (1 : UInt8) ≤ index := by
    rw [UInt8.le_iff_toNat_le]
    exact Nat.one_le_iff_ne_zero.mpr fun zero => notZero (UInt8.toNat_inj.mp zero)
  rw [UInt8.toNat_sub_of_le _ _ one]
  exact Nat.sub_add_cancel (UInt8.le_iff_toNat_le.mp one)

theorem toNat_add_one_eq (index : UInt8) : (index + 1).toNat = if index = 255 then 0 else index.toNat + 1 := by
  rw [UInt8.toNat_add]
  have small := index.toNat_lt
  split
  · rename_i last
    rw [last]
    rfl
  · rename_i notLast
    have below : index.toNat ≠ 255 := fun same => notLast (UInt8.toNat_inj.mp same)
    exact Nat.mod_eq_of_lt (by simp; omega)

theorem Placed.erase (placed : Placed c k) (erased : k.erase = some k') (notEmpty : k.bufferIndex ≠ 0) :
    (Together c k' ↔ k.cursor.col ≠ 0) ∧ (k.cursor.col ≠ 0 → Placed c k') := by
  obtain ⟨cursor, moved, rfl⟩ := KeyboardDriver.erase_cases erased
  obtain ⟨i, _, same⟩ := Option.bind_eq_some_iff.mp moved
  cases same
  have index := toNat_sub_one notEmpty
  obtain ⟨⟨distance, col⟩, row, wide⟩ := placed
  have together (right : k.cursor.col ≠ 0) : Together c { k with
      bufferIndex := k.bufferIndex - 1
      cursor := { k.cursor with
        col := k.cursor.col - 1
        backspaceLine := Function.update k.cursor.backspaceLine i (k.cursor.backspaceLine i - 1) } } := by
    constructor <;> dsimp only <;> omega
  refine ⟨⟨fun after => ?_, together⟩, fun right => ⟨together right, row, ?_⟩⟩
  · have left := after.col
    dsimp only at left
    omega
  · dsimp only
    omega

theorem Placed.up (placed : Placed c k) {cursor : Cursor} (moved : k.cursor.up = some cursor)
    (first : k.cursor.col = 0) :
    (Together c { k with cursor } ↔ ∀ i, Cursor.line (k.cursor.row - 1) = some i → k.cursor.backspaceLine i = 80) ∧
      (Together c { k with cursor } → Placed c { k with cursor }) := by
  obtain ⟨⟨distance, col⟩, row, wide⟩ := placed
  unfold Cursor.up at moved
  split at moved
  · rename_i top
    cases moved
    have nothing : Cursor.line (k.cursor.row - 1) = none := dif_neg (by omega)
    have stays : k.cursor.row = 0 := by omega
    have placed : Placed c { k with cursor := { k.cursor with row := 0 } } := by
      refine ⟨⟨?_, col⟩, ⟨Int.le_refl 0, Int.zero_le_ofNat 24⟩, wide⟩
      dsimp only
      omega
    refine ⟨⟨fun _ i found => ?_, fun _ => placed.toTogether⟩, fun _ => placed⟩
    rw [nothing] at found
    cases found
  · rename_i below
    obtain ⟨i, found, same⟩ := Option.bind_eq_some_iff.mp moved
    cases same
    have full (together : Together c { k with
        cursor := { k.cursor with row := k.cursor.row - 1, col := k.cursor.backspaceLine i } }) :
        k.cursor.backspaceLine i = 80 := by
      have after := together.distance
      dsimp only at after
      omega
    refine ⟨⟨fun together j found' => ?_, fun above => ?_⟩, fun together => ⟨together, ?_, ?_⟩⟩
    · cases found.symm.trans found'
      exact full together
    · have here := above i found
      constructor <;> dsimp only <;> omega
    · dsimp only
      omega
    · exact (full together).le

theorem Placed.insert (placed : Placed c k) {char : UInt8} (inserted : k.insert char = some k')
    (room : k.cursor.row < 24 ∨ k.cursor.col < 79) :
    (Together c k' ↔ k.bufferIndex ≠ 255 ∧ k.cursor.col ≤ 79) ∧ (Together c k' → Placed c k') := by
  obtain ⟨cursor, moved, rfl⟩ := KeyboardDriver.insert_cases inserted
  obtain ⟨⟨distance, col⟩, row, wide⟩ := placed
  have next := toNat_add_one_eq k.bufferIndex
  have cells : 80 * cursor.row + cursor.col = 80 * k.cursor.row + (if k.cursor.col = 80 then 80 else k.cursor.col + 1) ∧
      0 ≤ cursor.col ∧ cursor.col ≤ 80 ∧ 0 ≤ cursor.row ∧ cursor.row ≤ 24 := by
    unfold Cursor.advance at moved
    split at moved
    · cases moved
      have below : Cursor.rowBelow k.cursor.row = k.cursor.row + 1 := if_neg (by omega)
      simp only [below]
      split <;> omega
    · obtain ⟨i, _, same⟩ := Option.bind_eq_some_iff.mp moved
      cases same
      dsimp only
      split <;> omega
  obtain ⟨cells, left, wide', row'⟩ := cells
  refine ⟨⟨fun after => ?_, fun fits => ⟨?_, left⟩⟩, fun after => ⟨after, row', wide'⟩⟩
  · have distance' := after.distance
    dsimp only at distance'
    by_cases last : k.bufferIndex = 255
    · rw [if_pos last] at next
      rw [last] at distance
      have value : (255 : UInt8).toNat = 255 := rfl
      split at cells <;> omega
    · rw [if_neg last] at next
      refine ⟨last, ?_⟩
      split at cells <;> omega
  · rw [if_neg fits.1] at next
    dsimp only
    split at cells <;> omega

theorem Placed.backspace (placed : Placed c k) (pressed : k.backspace = some k') :
    (Together c k' ↔ (k.bufferIndex ≠ 0 → k.cursor.col = 0 →
      ∀ i, Cursor.line (k.cursor.row - 1) = some i → k.cursor.backspaceLine i = 80)) ∧
      (Together c k' → Placed c k') := by
  rcases KeyboardDriver.backspace_cases pressed with ⟨empty, rfl⟩ | ⟨notEmpty, right, erased⟩ |
    ⟨notEmpty, first, cursor, moved, rfl⟩
  · exact ⟨⟨fun _ notEmpty => absurd empty notEmpty, fun _ => placed.toTogether⟩, fun _ => placed⟩
  · obtain ⟨_, after⟩ := placed.erase erased notEmpty
    exact ⟨⟨fun _ _ first => absurd first right, fun _ => (after right).toTogether⟩, fun _ => after right⟩
  · obtain ⟨exactly, after⟩ := placed.up moved first
    exact ⟨exactly.trans ⟨fun above _ _ => above, fun above => above notEmpty first⟩, after⟩

/-! ## One read -/

namespace Isr

/-- The scancode of Backspace is that of no other character. -/
theorem ShiftBackspace.lookup (shifted : (isr.modifiers byte).ShiftBackspace byte)
    (looked : isr.lookup byte = some mapped) : mapped = backspaceChar ∨ mapped = 0 := by
  have here : byte = 0x0E := shifted.1
  subst here
  unfold Isr.lookup at looked
  cases waiting : isr.waiting with
  | scancode =>
    rw [waiting] at looked
    exact .inl (Option.some.inj looked).symm
  | capslock =>
    rw [waiting] at looked
    exact .inr (Option.some.inj looked).symm
  | release scancode =>
    rw [waiting] at looked
    cases looked

/-- The condition, for each of the things that a read does. -/
theorem keepsDistance_shiftBackspace (looked : isr.lookup byte = some mapped)
    (shifted : (isr.modifiers byte).ShiftBackspace byte) :
    isr.KeepsDistance byte ↔ isr.terminal.keyboard.cursor.col ≠ 0 := by
  refine ⟨fun keeps => keeps.shiftBackspace mapped looked shifted, fun right => ⟨?_, fun _ _ _ => right, ?_⟩⟩
  · intro mapped' looked' notBackspace notZero
    exact absurd (shifted.lookup looked') (not_or.mpr ⟨notBackspace, notZero⟩)
  · exact fun _ notShifted => absurd shifted notShifted

theorem keepsDistance_backspace (looked : isr.lookup byte = some backspaceChar)
    (notShifted : ¬ (isr.modifiers byte).ShiftBackspace byte) :
    isr.KeepsDistance byte ↔
      (isr.terminal.keyboard.bufferIndex ≠ 0 → isr.terminal.keyboard.cursor.col = 0 →
        ∀ i, Cursor.line (isr.terminal.keyboard.cursor.row - 1) = some i →
          isr.terminal.keyboard.cursor.backspaceLine i = 80) := by
  refine ⟨fun keeps => keeps.backspace looked notShifted, fun above => ⟨?_, ?_, fun _ _ => above⟩⟩
  · intro mapped looked' notBackspace
    cases looked.symm.trans looked'
    exact absurd rfl notBackspace
  · exact fun _ _ shifted => absurd shifted notShifted

theorem keepsDistance_insert (looked : isr.lookup byte = some mapped) (notBackspace : mapped ≠ backspaceChar)
    (notZero : mapped ≠ 0) (notShifted : ¬ (isr.modifiers byte).ShiftBackspace byte) :
    isr.KeepsDistance byte ↔
      isr.terminal.keyboard.bufferIndex ≠ 255 ∧ isr.terminal.keyboard.cursor.col ≤ 79 := by
  refine ⟨fun keeps => keeps.insert mapped looked notBackspace notZero, fun fits => ⟨fun _ _ _ _ => fits, ?_, ?_⟩⟩
  · exact fun _ _ shifted => absurd shifted notShifted
  · intro looked'
    exact absurd (Option.some.inj (looked.symm.trans looked')) notBackspace

theorem keepsDistance_idle (idle : ∀ mapped, isr.lookup byte = some mapped → mapped = 0)
    (notShifted : ∀ mapped, isr.lookup byte = some mapped → ¬ (isr.modifiers byte).ShiftBackspace byte) :
    isr.KeepsDistance byte where
  insert mapped looked _ notZero := absurd (idle mapped looked) notZero
  shiftBackspace mapped looked shifted := absurd shifted (notShifted mapped looked)
  backspace looked := absurd (idle _ looked) (by decide)

/-- A read keeps index and position together exactly under the condition. -/
theorem OnPage.together_iff (onPage : isr.OnPage byte) (placed : Placed c isr.terminal.keyboard)
    (read : isr.read byte = some isr') :
    (Together c isr'.terminal.keyboard ↔ isr.KeepsDistance byte) ∧
      (Together c isr'.terminal.keyboard → Placed c isr'.terminal.keyboard) := by
  rcases isr.read_cases byte with ⟨none, isr₁, quiet, same⟩ | ⟨mapped, looked, worked⟩
  · cases read.symm.trans quiet
    have idle : isr.KeepsDistance byte := keepsDistance_idle (by simp [none]) (by simp [none])
    rw [same]
    exact ⟨⟨fun _ => idle, fun _ => placed.toTogether⟩, fun _ => placed⟩
  · rw [worked] at read
    unfold process at read
    dsimp only at read
    split at read
    · rename_i shifted
      obtain ⟨k', erased, same⟩ := Option.bind_eq_some_iff.mp read
      cases same
      have notEmpty : isr.terminal.keyboard.bufferIndex ≠ 0 := UInt8.pos_iff_ne_zero.mp shifted.2.2.1
      obtain ⟨exactly, after⟩ := placed.erase erased notEmpty
      rw [keepsDistance_shiftBackspace looked shifted]
      exact ⟨exactly, fun together => after (exactly.mp together)⟩
    · rename_i notShifted
      split at read
      · rename_i isBackspace
        subst isBackspace
        obtain ⟨k', pressed, same⟩ := Option.bind_eq_some_iff.mp read
        cases same
        rw [keepsDistance_backspace looked notShifted]
        exact placed.backspace pressed
      · rename_i notBackspace
        have notLineFeed : mapped ≠ lineFeed := fun same => onPage.lookup_ne (same ▸ looked)
        rw [if_neg notLineFeed] at read
        split at read
        · rename_i notZero
          obtain ⟨k', inserted, same⟩ := Option.bind_eq_some_iff.mp read
          cases same
          rw [keepsDistance_insert looked notBackspace notZero notShifted]
          exact placed.insert inserted (onPage.room mapped looked notBackspace notZero)
        · rename_i zero
          cases read
          have idle : isr.KeepsDistance byte := keepsDistance_idle
            (fun _ looked' => (Option.some.inj (looked'.symm.trans looked)).trans (not_not.mp zero))
            (fun _ _ => notShifted)
          exact ⟨⟨fun _ => idle, fun _ => placed.toTogether⟩, fun _ => placed⟩

end Isr

/-! ## Runs -/

namespace Isr

def perform (isr : Isr) (byte : UInt8) : Option (Unit × Isr) := (isr.read byte).map ((), ·)

variable {t : Terminal} {history : List (UInt8 × Unit)}

/-- The invariant of a run from `c`. -/
def Kept (isr : Isr) (c : Cursor) : Prop := Placed c isr.terminal.keyboard

theorem start_kept (onScreen : t.keyboard.cursor.OnScreen) (isr : Isr) (first : isr = start t) :
    isr.Kept t.keyboard.cursor := by
  subst first
  have range := onScreen.col
  refine ⟨⟨?_, range.1⟩, onScreen.row, ?_⟩
  · exact (Int.sub_self _).symm
  · change t.keyboard.cursor.col ≤ 80
    omega

theorem perform_kept (c : Cursor) (isr : Isr) (byte : UInt8) (code : Unit) (isr' : Isr) (kept : isr.Kept c)
    (keeps : isr.OnPage byte ∧ isr.KeepsDistance byte) (performed : isr.perform byte = some (code, isr')) :
    isr'.Kept c := by
  obtain ⟨isr₁, read, same⟩ := Option.map_eq_some_iff.mp performed
  cases same
  obtain ⟨exactly, after⟩ := keeps.1.together_iff kept read
  exact after (exactly.mpr keeps.2)

/-- In a run of careful keys, index and position are together, and the next key keeps them so exactly if it
    is one. -/
theorem run_together (onScreen : t.keyboard.cursor.OnScreen)
    (run : Run perform (fun isr byte => isr.OnPage byte ∧ isr.KeepsDistance byte) (· = start t) history isr) :
    Together t.keyboard.cursor isr.terminal.keyboard ∧
      ∀ byte isr', isr.OnPage byte → isr.read byte = some isr' →
        (Together t.keyboard.cursor isr'.terminal.keyboard ↔ isr.KeepsDistance byte) := by
  have placed := run.preserved (start_kept onScreen) (perform_kept t.keyboard.cursor)
  exact ⟨placed.toTogether, fun byte isr' onPage read => (onPage.together_iff placed read).1⟩

/-- The reads of a list behind the prompt of the root, if each passes the check. -/
def followKeys (check : Isr → UInt8 → Bool) (bytes : List UInt8) : Option Isr :=
  bytes.foldlM (fun isr byte => if check isr byte then (perform isr byte).map Prod.snd else none) (start promptTerminal)

theorem run_promptTerminal {α : Type} {guard : Isr → UInt8 → Prop} {check : Isr → UInt8 → Bool} {bytes : List UInt8}
    {out : α} (f : Isr → α) (sound : ∀ isr byte, check isr byte = true → guard isr byte)
    (computed : (followKeys check bytes).map f = some out) :
    ∃ history isr, Run perform guard (· = start promptTerminal) history isr ∧ f isr = out := by
  obtain ⟨isr, followed, shown⟩ := Option.map_eq_some_iff.mp computed
  have first : Run perform guard (· = start promptTerminal) [] (start promptTerminal) := .start rfl
  obtain ⟨history, run⟩ := first.follow sound followed
  exact ⟨history, isr, run, shown⟩

/-- The letter a and Backspace, going down or up, above the last row. -/
def pageCheck (isr : Isr) (byte : UInt8) : Bool :=
  byte ∈ [0x1E, 0x9E, 0x0E, 0x8E] ∧ isr.terminal.keyboard.cursor.row < 24

theorem onPage_of_check (checked : isr.pageCheck byte = true) : isr.OnPage byte := by
  obtain ⟨member, above⟩ := of_decide_eq_true checked
  refine ⟨.inl ?_, fun _ _ _ _ => .inl above⟩
  simp only [List.mem_cons, List.not_mem_nil, or_false] at member
  rcases member with rfl | rfl | rfl | rfl
  · exact ⟨keyA, .inl rfl⟩
  · exact ⟨keyA, .inr rfl⟩
  · exact ⟨.backspace, .inl rfl⟩
  · exact ⟨.backspace, .inr rfl⟩

def keepsCheck (isr : Isr) (byte : UInt8) : Bool :=
  isr.pageCheck byte && (isr.terminal.keyboard.bufferIndex ≠ 255 ∧ isr.terminal.keyboard.cursor.col ≠ 0 ∧
    isr.terminal.keyboard.cursor.col ≤ 79)

theorem keepsDistance_of_check (checked : isr.keepsCheck byte = true) : isr.OnPage byte ∧ isr.KeepsDistance byte := by
  obtain ⟨page, rest⟩ := Bool.and_eq_true_iff.mp checked
  obtain ⟨room, right, inside⟩ := of_decide_eq_true rest
  exact ⟨onPage_of_check page, fun _ _ _ _ => ⟨room, inside⟩, fun _ _ _ => right,
    fun _ _ _ first => absurd first right⟩

/-- Two letters, of which Backspace takes one. -/
theorem run_together_letters : promptTerminal.keyboard.cursor.OnScreen ∧ ∃ history isr,
    Run perform (fun isr byte => isr.OnPage byte ∧ isr.KeepsDistance byte) (· = start promptTerminal) history isr ∧
      isr.terminal.keyboard.bufferIndex = 1 ∧ Together promptTerminal.keyboard.cursor isr.terminal.keyboard := by
  have onScreen : promptTerminal.keyboard.cursor.OnScreen := ⟨by decide, by decide⟩
  have computed : (followKeys keepsCheck [0x1E, 0x9E, 0x1E, 0x9E, 0x0E, 0x8E]).map
      (·.terminal.keyboard.bufferIndex) = some 1 := by decide +kernel
  obtain ⟨history, isr, run, index⟩ := run_promptTerminal _ (fun _ _ => keepsDistance_of_check) computed
  exact ⟨onScreen, history, isr, run, index, (run_together onScreen run).1⟩

/-- The last of 66 letters is in column 79.  Backspace then goes back to column 65, which `backspaceLine` counts,
    and gives up no character. -/
theorem backspace_not_together : ∃ history isr, Run perform OnPage (· = start promptTerminal) history isr ∧
    ¬ Together promptTerminal.keyboard.cursor isr.terminal.keyboard := by
  have computed : (followKeys pageCheck ((List.replicate 66 [0x1E, 0x9E]).flatten ++ [0x0E])).map
      (fun isr => (isr.terminal.keyboard.bufferIndex, isr.terminal.keyboard.cursor.row,
        isr.terminal.keyboard.cursor.col)) = some (66, 0, 65) := by
    decide +kernel
  obtain ⟨history, isr, run, shown⟩ := run_promptTerminal _ (fun _ _ => onPage_of_check) computed
  refine ⟨history, isr, run, fun together => ?_⟩
  simp only [Prod.mk.injEq] at shown
  obtain ⟨index, row, col⟩ := shown
  have distance := together.distance
  rw [index, row, col] at distance
  exact absurd distance (by decide)

end Isr

end Brother420.Console
