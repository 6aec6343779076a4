import Brother420.Console.Session

/-! # The row of the prompt

The shell counts one row for every line that is read, and the driver counts the
rows that the position on the screen goes through.  The two agree as long as no
line leaves the row of its prompt.
-/

namespace Brother420.Console

open Packed (Bytes)
open Fat32 Shell
open Runs (Run)

namespace Session

/-- Where main is about to draw the prompt, the driver is in that row. -/
def RowsAgree (s : Session) : Prop :=
  ∀ t, s.control = .prompt t → t.keyboard.cursor.row = s.rowShell.toNat

end Session

/-! ## What moves the row -/

/-- The read moves the position to no other row, unless it is Enter, and then there is a row below. -/
structure Isr.KeepsRow (isr : Isr) (byte : UInt8) : Prop where
  backspace : isr.lookup byte = some backspaceChar → ¬ (isr.modifiers byte).ShiftBackspace byte →
    isr.terminal.keyboard.bufferIndex ≠ 0 → 0 < isr.terminal.keyboard.cursor.row →
    isr.terminal.keyboard.cursor.col ≠ 0
  insert : ∀ mapped, isr.lookup byte = some mapped → mapped ≠ backspaceChar → mapped ≠ lineFeed → mapped ≠ 0 →
    isr.terminal.keyboard.cursor.row < 24 → isr.terminal.keyboard.cursor.col < 79
  enter : isr.lookup byte = some lineFeed → isr.terminal.keyboard.cursor.row < 24

/-- Lines stay in the row of their prompt, and outputs on the screen. -/
def Session.Tame (s : Session) (action : Action) : Prop :=
  match s.control, action with
  | .typing isr, .read byte => isr.KeepsRow byte
  | .command t buf, .command answers =>
    t.keyboard.cursor.row + outputRows (s.rowShell + 1) (Session.lineOf buf) answers ≤ 24
  | _, _ => True

variable {c c' : Cursor} {k k' : KeyboardDriver} {isr isr' : Isr} {byte : UInt8} {t t' : Terminal}
  {rowShell rowShell' : UInt8} {line : Memory} {answers : Answers}

theorem Cursor.back_row (moved : c.back = some c') : c'.row = c.row := by
  obtain ⟨i, _, same⟩ := Option.bind_eq_some_iff.mp moved
  cases same
  rfl

theorem Cursor.advance_row (moved : c.advance = some c') (inside : c.row < 24 → c.col < 79) (bound : c.row ≤ 24) :
    c'.row = c.row := by
  unfold advance at moved
  split at moved
  · cases moved
    change rowBelow c.row = c.row
    unfold rowBelow
    split <;> omega
  · obtain ⟨i, _, same⟩ := Option.bind_eq_some_iff.mp moved
    cases same
    rfl

namespace KeyboardDriver

theorem erase_row (erased : k.erase = some k') : k'.cursor.row = k.cursor.row := by
  obtain ⟨cursor, moved, rfl⟩ := erase_cases erased
  exact Cursor.back_row moved

theorem backspace_row (pressed : k.backspace = some k')
    (inside : k.bufferIndex ≠ 0 → 0 < k.cursor.row → k.cursor.col ≠ 0) (range : 0 ≤ k.cursor.row) :
    k'.cursor.row = k.cursor.row := by
  rcases backspace_cases pressed with ⟨_, rfl⟩ | ⟨_, _, erased⟩ | ⟨notEmpty, zero, cursor, moved, rfl⟩
  · rfl
  · exact erase_row erased
  · have top : k.cursor.row ≤ 0 := by
      by_contra below
      exact inside notEmpty (by omega) zero
    rw [Cursor.up, if_pos top] at moved
    cases moved
    exact Int.le_antisymm range top

theorem insert_row {char : UInt8} (inserted : k.insert char = some k')
    (inside : k.cursor.row < 24 → k.cursor.col < 79) (bound : k.cursor.row ≤ 24) :
    k'.cursor.row = k.cursor.row := by
  obtain ⟨cursor, moved, rfl⟩ := insert_cases inserted
  exact Cursor.advance_row moved inside bound

end KeyboardDriver

/-- Enter ends the input one row below, and every other read stays in the row. -/
theorem Isr.KeepsRow.read (keeps : isr.KeepsRow byte) (read : isr.read byte = some isr')
    (range : 0 ≤ isr.terminal.keyboard.cursor.row) (bound : isr.terminal.keyboard.cursor.row ≤ 24) :
    (isr'.terminal.keyboard.cursor.row = isr.terminal.keyboard.cursor.row ∧
        isr'.terminal.keyboard.keyboardInputOn = isr.terminal.keyboard.keyboardInputOn) ∨
      isr'.terminal.keyboard.cursor.row = isr.terminal.keyboard.cursor.row + 1 ∧
        isr'.terminal.keyboard.cursor.row ≤ 24 ∧ isr'.terminal.keyboard.keyboardInputOn = false := by
  obtain ⟨drawn, effect, _⟩ := read_effect read
  generalize isr'.terminal.keyboard = k' at effect
  cases effect with
  | quiet => exact .inl ⟨rfl, rfl⟩
  | shiftBackspace _ _ erased =>
    exact .inl ⟨KeyboardDriver.erase_row erased, KeyboardDriver.keyboardInputOn_erase erased⟩
  | backspace looked notShifted pressed =>
    exact .inl ⟨KeyboardDriver.backspace_row pressed (keeps.backspace looked notShifted) range,
      KeyboardDriver.keyboardInputOn_backspace pressed⟩
  | enter looked =>
    have below := keeps.enter looked
    have row : isr.terminal.keyboard.enter.cursor.row = isr.terminal.keyboard.cursor.row + 1 := by
      change Cursor.rowBelow isr.terminal.keyboard.cursor.row = _
      rw [Cursor.rowBelow, if_neg (by omega)]
    exact .inr ⟨row, by omega, rfl⟩
  | insert looked notBackspace notLineFeed notZero inserted =>
    exact .inl ⟨KeyboardDriver.insert_row inserted (keeps.insert _ looked notBackspace notLineFeed notZero) bound,
      KeyboardDriver.keyboardInputOn_insert inserted⟩

/-! ## Commands -/

/-- What a command does to the two rows. -/
structure Moves (t t' : Terminal) (rowShell rowShell' : UInt8) (rows : Nat) : Prop where
  row : t'.keyboard.cursor.row = t.keyboard.cursor.row + rows
  rowShell : rowShell' = rowShell + UInt8.ofNat rows

theorem showListing_moves (t : Terminal) (table : FAT32DirectoryTable) (type : Nat) (rowShell : UInt8) :
    Moves t (showListing t table type rowShell).1 rowShell (showListing t table type rowShell).2
      (commandCallLs table type rowShell).rowAddNeeded :=
  ⟨rfl, (commandCallLs_listed table type rowShell).1⟩

theorem putsLongText_moves (t : Terminal) (str : Memory) (len : Nat) (rowShell : UInt8)
    (small : (longText str len rowShell).k < 256) :
    Moves t (putsLongText t str len rowShell).1 rowShell (putsLongText t str len rowShell).2
      ((longText str len rowShell).k + 1) := by
  constructor
  · change t.keyboard.cursor.row + (((longText str len rowShell).k % 256 : Nat) + 1 : Int) = _
    rw [Nat.mod_eq_of_lt small]
    rfl
  · change (longText str len rowShell).rowShells + 1 = _
    rw [(longText_printed str len rowShell).row, UInt8.ofNat_add, ← UInt8.add_assoc]
    rfl

theorem clearScreen_row {cwd : Int → UInt8} (cleared : clearScreen t cwd = some t') : t'.keyboard.cursor.row = 0 := by
  obtain ⟨shown, drawn, same⟩ := Option.bind_eq_some_iff.mp cleared
  obtain ⟨cols, keyboard⟩ := template_keyboard drawn
  cases same
  change shown.keyboard.cursor.row = 0
  rw [keyboard]
  rfl

/-- Both rows go on by the rows of the output, or start again in the first one. -/
theorem command_moves (done : Session.command rowShell t line answers = some (t', rowShell'))
    (small : outputRows rowShell line answers ≤ 256) :
    Moves t t' rowShell rowShell' (outputRows rowShell line answers) ∨
      t'.keyboard.cursor.row = 0 ∧ rowShell' = 0 := by
  unfold Session.command at done
  unfold outputRows at small ⊢
  cases shown : shows (getCommandInput line 16) with
  | listing type =>
    simp only [shown] at done
    cases done
    exact .inl (showListing_moves t answers.table type rowShell)
  | text =>
    simp only [shown] at done small
    have result := Option.some.inj done
    unfold showText at result
    cases parsed : parseCat line with
    | none =>
      simp only [parsed] at result
      cases result
      exact .inl ⟨(Int.add_zero _).symm, (UInt8.add_zero _).symm⟩
    | some names =>
      obtain ⟨name, ext⟩ := names
      simp only [parsed] at result small
      have moves := putsLongText_moves t answers.cbuf (catSize answers.table name ext).toNat rowShell (by omega)
      rw [result] at moves
      exact .inl moves
  | cleared =>
    simp only [shown] at done
    obtain ⟨cleared, screen, same⟩ := Option.bind_eq_some_iff.mp done
    cases same
    exact .inr ⟨clearScreen_row screen, rfl⟩
  | nothing =>
    simp only [shown] at done
    cases done
    exact .inl ⟨(Int.add_zero _).symm, (UInt8.add_zero _).symm⟩

/-! ## Runs -/

namespace Session

/-- The rows in every part of a round: behind a line, the driver is one ahead. -/
def InStep (s : Session) : Prop :=
  s.terminal.keyboard.cursor.row ≤ 24 ∧
    match s.control with
    | .prompt t => t.keyboard.cursor.row = s.rowShell.toNat
    | .input t => t.keyboard.cursor.row = s.rowShell.toNat ∧ t.keyboard.keyboardInputOn = true
    | .typing isr =>
      isr.terminal.keyboard.cursor.row = s.rowShell.toNat ∧ isr.terminal.keyboard.keyboardInputOn = true
    | .command t _ => t.keyboard.cursor.row = s.rowShell.toNat + 1

variable {s s' : Session} {action : Action} {history : List (Action × Unit)} {code : Unit}

/-- Behind the output of a command the two rows are equal again. -/
theorem InStep.command {rowShell rowShell' : UInt8} {t t' : Terminal} {buf : Bytes 256} {answers : Answers}
    (inStep : InStep ⟨rowShell, .command t buf⟩)
    (fits : t.keyboard.cursor.row + outputRows (rowShell + 1) (lineOf buf) answers ≤ 24)
    (done : Session.command (rowShell + 1) t (lineOf buf) answers = some (t', rowShell')) :
    t'.keyboard.cursor.row ≤ 24 ∧ t'.keyboard.cursor.row = rowShell'.toNat := by
  have row : t.keyboard.cursor.row = rowShell.toNat + 1 := inStep.2
  have next : (rowShell + 1).toNat = rowShell.toNat + 1 := by
    rw [UInt8.toNat_add]
    exact Nat.mod_eq_of_lt (by simp; omega)
  have small : outputRows (rowShell + 1) (lineOf buf) answers ≤ 256 := by omega
  rcases command_moves done small with moves | ⟨first, zero⟩
  · have row' := moves.row
    have counted : rowShell'.toNat = rowShell.toNat + 1 + outputRows (rowShell + 1) (lineOf buf) answers := by
      have value := UInt8.toNat_ofNat_of_lt' (show outputRows (rowShell + 1) (lineOf buf) answers < 256 by omega)
      rw [moves.rowShell, UInt8.toNat_add, next, value]
      exact Nat.mod_eq_of_lt (by simp; omega)
    omega
  · rw [first, zero]
    decide

theorem InStep.perform (inStep : s.InStep) (tame : s.Tame action) (step : Step s action s') : s'.InStep := by
  obtain ⟨bound, rows⟩ := inStep
  cases step with
  | prompt drawn =>
    obtain ⟨cols, keyboard⟩ := template_keyboard drawn
    rw [keyboard]
    exact ⟨bound, rows, rfl⟩
  | start => exact ⟨bound, rows⟩
  | @goOn rowShell isr isr' byte read on =>
    have keeps : isr.KeepsRow byte := tame
    rcases keeps.read read (rows.1 ▸ Int.natCast_nonneg _) bound with ⟨same, _⟩ | ⟨_, _, off⟩
    · exact ⟨same.trans_le bound, same.trans rows.1, on⟩
    · rw [on] at off
      cases off
  | @handOut rowShell isr isr' byte read off =>
    have keeps : isr.KeepsRow byte := tame
    rcases keeps.read read (rows.1 ▸ Int.natCast_nonneg _) bound with ⟨_, same⟩ | ⟨below, inside, _⟩
    · rw [off, rows.2] at same
      cases same
    · exact ⟨inside, below.trans (congrArg (· + 1) rows.1)⟩
  | @command rowShell rowShell' t t' buf answers done =>
    have behind : t'.keyboard.cursor.row ≤ 24 ∧ t'.keyboard.cursor.row = rowShell'.toNat :=
      InStep.command ⟨bound, rows⟩ tame done
    exact behind
  | ignorePrompt => exact ⟨bound, rows⟩
  | ignoreCommand => exact ⟨bound, rows⟩

theorem Start.inStep (start : s.Start) : s.InStep := by
  obtain ⟨t, control⟩ := start.control
  have cursor : t.keyboard.cursor = ⟨0, 0, fun _ => 0⟩ := by
    rw [← start.cursor, terminal, control]
    rfl
  refine ⟨?_, ?_⟩
  · rw [start.cursor]
    decide
  · rw [control, start.rowShell]
    exact congrArg Cursor.row cursor

/-- In a session of tame lines and outputs, the prompt is drawn where the driver is. -/
theorem tame_run_rowsAgree (run : Run perform Tame Start history s) : s.RowsAgree := by
  have inStep : s.InStep := run.preserved (fun _ start => start.inStep)
    fun _ _ _ _ inStep tame performed => inStep.perform tame (perform_iff.mp performed)
  intro t control
  have rows := inStep.2
  rw [control] at rows
  exact rows

/-- Inside the columns 1 to 78, and above the last row, every read is tame. -/
theorem keepsRow_inside (below : isr.terminal.keyboard.cursor.row < 24) (left : 0 < isr.terminal.keyboard.cursor.col)
    (right : isr.terminal.keyboard.cursor.col < 79) : isr.KeepsRow byte where
  backspace _ _ _ _ := by omega
  insert _ _ _ _ _ _ := right
  enter _ := below

/-- A test for it. -/
def tameCheck (s : Session) (action : Action) : Bool :=
  match s.control, action with
  | .typing isr, .read _ => isr.terminal.keyboard.cursor.row < 24 ∧ 0 < isr.terminal.keyboard.cursor.col ∧
      isr.terminal.keyboard.cursor.col < 79
  | .command t buf, .command answers =>
    t.keyboard.cursor.row + outputRows (s.rowShell + 1) (lineOf buf) answers ≤ 24
  | _, _ => true

theorem tame_of_check (checked : tameCheck s action = true) : s.Tame action := by
  obtain ⟨rowShell, control⟩ := s
  cases control <;> cases action <;> simp only [Tame]
  case typing.read isr byte =>
    obtain ⟨below, left, right⟩ := of_decide_eq_true checked
    exact keepsRow_inside below left right
  case command.command t buf answers => exact of_decide_eq_true checked

/-- The line `ls`, and the prompt behind it. -/
theorem tame_run_rowsAgree_ls :
    ∃ history s, Run perform Tame Start history s ∧ s.rows = some (2, 2) ∧ s.RowsAgree := by
  obtain ⟨history, s, run, shown⟩ := run_freshSession rows (fun _ _ => tame_of_check)
    (show (follow tameCheck (typedLine [0x26, 0x1F])).map rows = some (some (2, 2)) by decide +kernel)
  exact ⟨history, s, run, shown, tame_run_rowsAgree run⟩

/-- A line of 66 letters leaves the first row: the prompt comes to row 1, the position is in row 2. -/
theorem long_line_apart :
    ∃ history s, Run perform (fun _ _ => True) Start history s ∧ s.rows = some (2, 1) ∧ ¬ s.RowsAgree := by
  have computed : (follow (fun _ _ => true) (typedLine (List.replicate 66 0x1E))).map rows = some (some (2, 1)) := by
    decide +kernel
  obtain ⟨history, s, run, shown⟩ := run_freshSession rows (fun _ _ _ => trivial) computed
  refine ⟨history, s, run, shown, fun agree => ?_⟩
  obtain ⟨rowShell, control⟩ := s
  cases control with
  | prompt t =>
    obtain ⟨row, shell⟩ := Prod.mk.inj (Option.some.inj shown)
    have same := agree t rfl
    rw [row, shell] at same
    exact absurd same (by decide)
  | input t => cases shown
  | typing isr => cases shown
  | command t buf => cases shown

end Session

end Brother420.Console
