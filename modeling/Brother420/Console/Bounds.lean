import Brother420.Console.Session

/-! # The bounds of the screen

Nothing keeps the row of the shell, or the row that `addRow` sets, on the screen,
and Backspace with Shift goes to the left of column 0.  A session that stays clear
of these draws on the screen only.
-/

namespace Brother420.Console

open Packed (Bytes)
open Fat32 Shell
open Runs (Run)

def Draw.OnScreen : Draw → Prop
  | .write row col _ => row < 25 ∧ col < 80
  | .setCursor _ _ => True
  | .clear => True

structure Cursor.OnScreen (c : Cursor) : Prop where
  row : 0 ≤ c.row ∧ c.row ≤ 24
  col : 0 ≤ c.col ∧ c.col ≤ 79

/-- The position is on the screen, and so is everything that has been drawn. -/
structure Terminal.OnScreen (t : Terminal) : Prop where
  cursor : t.keyboard.cursor.OnScreen
  screen : ∀ d ∈ t.screen, d.OnScreen

/-! ## What should be respected -/

/-- The path and the three characters behind it fit in the columns from 10 on. -/
def ShortPath (cwd : Int → UInt8) : Prop := ∃ len ≤ 67, cwd (len : Nat) = 0 ∧ ∀ i < len, cwd (i : Nat) ≠ 0

/-- Backspace with Shift has a column to its left, and Backspace in column 0 finds a column of the screen in
    the row above. -/
structure Isr.Careful (isr : Isr) (byte : UInt8) : Prop where
  shiftBackspace : ∀ mapped, isr.lookup byte = some mapped → (isr.modifiers byte).ShiftBackspace byte →
    isr.terminal.keyboard.cursor.col ≠ 0
  backspace : isr.lookup byte = some backspaceChar → ¬ (isr.modifiers byte).ShiftBackspace byte →
    isr.terminal.keyboard.bufferIndex ≠ 0 → isr.terminal.keyboard.cursor.col = 0 →
    ∀ i, Cursor.line (isr.terminal.keyboard.cursor.row - 1) = some i →
      0 ≤ isr.terminal.keyboard.cursor.backspaceLine i ∧ isr.terminal.keyboard.cursor.backspaceLine i ≤ 79

/-- An output ends on the screen, for the shell and for the driver. -/
def FitsBelow (rowShell : UInt8) (t : Terminal) (input : Memory) (answers : Answers) : Prop :=
  match shows (getCommandInput input 16) with
  | .cleared => ShortPath answers.cwd
  | .nothing => True
  | _ => rowShell.toNat + outputRows (rowShell + 1) input answers ≤ 24 ∧
      t.keyboard.cursor.row + outputRows (rowShell + 1) input answers ≤ 24

/-- Prompts and outputs stay on the screen, and the action is one that can come next. -/
def Session.Careful (s : Session) (action : Action) : Prop :=
  match s.control, action with
  | .prompt _, .prompt cwd => s.rowShell < 25 ∧ ShortPath cwd
  | .typing isr, .read byte => isr.Careful byte
  | .command t buf, .command answers => FitsBelow s.rowShell t (Session.lineOf buf) answers
  | .prompt _, .interrupt => True
  | .input _, .interrupt => True
  | .command _ _, .interrupt => True
  | _, _ => False

variable {c c' : Cursor} {k k' : KeyboardDriver} {isr isr' : Isr} {byte char : UInt8} {t t' : Terminal}
  {rowShell rowShell' : UInt8} {input : Memory} {answers : Answers} {cwd : Int → UInt8} {drawn : List Draw}

/-! ## The position -/

/-- Cells by their numbers. -/
theorem write_onScreen {row col : Nat} (below : row < 25) (inside : col < 80) (char : UInt8) :
    Draw.OnScreen (.write (UInt8.ofNat row) (UInt8.ofNat col) char) := by
  change UInt8.ofNat row < 25 ∧ UInt8.ofNat col < 80
  have rowValue : (UInt8.ofNat row).toNat = row := UInt8.toNat_ofNat_of_lt' (show row < 256 by omega)
  have colValue : (UInt8.ofNat col).toNat = col := UInt8.toNat_ofNat_of_lt' (show col < 256 by omega)
  rw [UInt8.lt_iff_toNat_lt, UInt8.lt_iff_toNat_lt, rowValue, colValue]
  exact ⟨below, inside⟩

namespace Cursor

theorem line_of_range (row : Int) (range : 0 ≤ row ∧ row < 25) : ∃ i, line row = some i := ⟨_, dif_pos range⟩

theorem OnScreen.write (onScreen : c.OnScreen) (char : UInt8) : (c.write char).OnScreen := by
  obtain ⟨row, col⟩ := onScreen
  have below : (c.row % 2 ^ 8).toNat < 25 := by omega
  have inside : (c.col % 2 ^ 8).toNat < 80 := by omega
  exact write_onScreen below inside char

theorem OnScreen.advance (onScreen : c.OnScreen) : ∃ c', c.advance = some c' ∧ c'.OnScreen := by
  obtain ⟨row, col⟩ := onScreen
  unfold Cursor.advance
  split
  · refine ⟨_, rfl, ?_, Int.le_refl 0, Int.zero_le_ofNat 79⟩
    change 0 ≤ rowBelow c.row ∧ rowBelow c.row ≤ 24
    unfold rowBelow
    split <;> omega
  · obtain ⟨i, found⟩ := line_of_range c.row (by omega)
    rw [found]
    refine ⟨_, rfl, row, ?_⟩
    change 0 ≤ c.col + 1 ∧ c.col + 1 ≤ 79
    omega

theorem OnScreen.back (onScreen : c.OnScreen) (room : c.col ≠ 0) : ∃ c', c.back = some c' ∧ c'.OnScreen := by
  obtain ⟨row, col⟩ := onScreen
  obtain ⟨i, found⟩ := line_of_range c.row (by omega)
  rw [Cursor.back, found]
  refine ⟨_, rfl, row, ?_⟩
  change 0 ≤ c.col - 1 ∧ c.col - 1 ≤ 79
  omega

theorem OnScreen.up (onScreen : c.OnScreen)
    (above : ∀ i, line (c.row - 1) = some i → 0 ≤ c.backspaceLine i ∧ c.backspaceLine i ≤ 79) :
    ∃ c', c.up = some c' ∧ c'.OnScreen := by
  obtain ⟨row, col⟩ := onScreen
  unfold Cursor.up
  split
  · exact ⟨_, rfl, ⟨Int.le_refl 0, Int.zero_le_ofNat 24⟩, col⟩
  · obtain ⟨i, found⟩ := line_of_range (c.row - 1) (by omega)
    rw [found]
    refine ⟨_, rfl, ?_, above i found⟩
    change 0 ≤ c.row - 1 ∧ c.row - 1 ≤ 24
    omega

end Cursor

/-! ## The keyboard -/

namespace Terminal

theorem OnScreen.draw (onScreen : t.OnScreen) (inside : ∀ d ∈ drawn, d.OnScreen) (cursor : k.cursor.OnScreen) :
    OnScreen ⟨k, t.screen ++ drawn⟩ :=
  ⟨cursor, fun d member => (List.mem_append.mp member).elim (onScreen.screen d) (inside d)⟩

theorem OnScreen.ignore (onScreen : t.OnScreen) : t.ignore.OnScreen := by
  refine onScreen.draw (fun d member => ?_) onScreen.cursor
  obtain rfl := List.mem_singleton.mp member
  exact ⟨by decide, by decide⟩

end Terminal

namespace KeyboardDriver

theorem erase_onScreen (onScreen : k.cursor.OnScreen) (room : k.cursor.col ≠ 0) :
    ∃ k', k.erase = some k' ∧ k'.cursor.OnScreen := by
  obtain ⟨c', moved, onScreen'⟩ := onScreen.back room
  exact ⟨_, by rw [erase, moved]; rfl, onScreen'⟩

theorem backspace_onScreen (onScreen : k.cursor.OnScreen)
    (above : k.bufferIndex ≠ 0 → k.cursor.col = 0 → ∀ i, Cursor.line (k.cursor.row - 1) = some i →
      0 ≤ k.cursor.backspaceLine i ∧ k.cursor.backspaceLine i ≤ 79) :
    ∃ k', k.backspace = some k' ∧ k'.cursor.OnScreen := by
  unfold backspace
  split
  · exact ⟨k, rfl, onScreen⟩
  · rename_i notEmpty
    split
    · rename_i room
      exact erase_onScreen onScreen room
    · rename_i zero
      obtain ⟨c', moved, onScreen'⟩ := onScreen.up (above notEmpty (not_not.mp zero))
      exact ⟨_, by rw [moved]; rfl, onScreen'⟩

theorem insert_onScreen (onScreen : k.cursor.OnScreen) (char : UInt8) :
    ∃ k', k.insert char = some k' ∧ k'.cursor.OnScreen := by
  obtain ⟨c', moved, onScreen'⟩ := onScreen.advance
  exact ⟨_, by rw [insert, moved]; rfl, onScreen'⟩

theorem enter_onScreen (onScreen : k.cursor.OnScreen) : k.enter.cursor.OnScreen := by
  obtain ⟨row, col⟩ := onScreen
  refine ⟨?_, col⟩
  change 0 ≤ Cursor.rowBelow k.cursor.row ∧ Cursor.rowBelow k.cursor.row ≤ 24
  unfold Cursor.rowBelow
  split <;> omega

end KeyboardDriver

namespace Isr

/-- A character and a position for the hardware cursor. -/
theorem pair_onScreen {cursor : Draw} (onScreen : c.OnScreen) (free : cursor.OnScreen) (char : UInt8) :
    ∀ d ∈ [c.write char, cursor], d.OnScreen := by
  intro d member
  rcases List.mem_cons.mp member with rfl | last
  · exact onScreen.write char
  · obtain rfl := List.mem_singleton.mp last
    exact free

theorem setCursor_onScreen (c : Cursor) : c.setCursor.OnScreen := trivial

theorem cursorBehind_onScreen (c : Cursor) : (cursorBehind c).OnScreen := by
  unfold cursorBehind
  split
  · trivial
  · split <;> trivial

theorem Careful.process (careful : isr.Careful byte) {mapped : UInt8} (looked : isr.lookup byte = some mapped)
    (onScreen : isr.terminal.OnScreen) : ∃ isr', isr.process byte mapped = some isr' ∧ isr'.terminal.OnScreen := by
  unfold Isr.process
  dsimp only
  split
  · rename_i shifted
    obtain ⟨k', erased, cursor⟩ :=
      KeyboardDriver.erase_onScreen onScreen.cursor (careful.shiftBackspace mapped looked shifted)
    refine ⟨_, by rw [show (isr.modifiers byte).terminal = isr.terminal from rfl, erased]; rfl, ?_⟩
    exact onScreen.draw (pair_onScreen cursor (setCursor_onScreen _) 0) cursor
  · rename_i notShifted
    split
    · rename_i isBackspace
      subst isBackspace
      obtain ⟨k', pressed, cursor⟩ :=
        KeyboardDriver.backspace_onScreen onScreen.cursor (careful.backspace looked notShifted)
      refine ⟨_, by rw [show (isr.modifiers byte).terminal = isr.terminal from rfl, pressed]; rfl, ?_⟩
      exact onScreen.draw (pair_onScreen cursor (setCursor_onScreen _) 0) cursor
    · split
      · refine ⟨_, rfl, onScreen.draw (fun d member => ?_) (KeyboardDriver.enter_onScreen onScreen.cursor)⟩
        obtain rfl := List.mem_singleton.mp member
        trivial
      · split
        · obtain ⟨k', inserted, cursor⟩ :=
            KeyboardDriver.insert_onScreen onScreen.cursor ((isr.modifiers byte).shiftCase mapped)
          refine ⟨_, by rw [show (isr.modifiers byte).terminal = isr.terminal from rfl, inserted]; rfl, ?_⟩
          exact onScreen.draw (pair_onScreen onScreen.cursor (cursorBehind_onScreen _) _) cursor
        · exact ⟨_, rfl, onScreen⟩

theorem Careful.read (careful : isr.Careful byte) (onScreen : isr.terminal.OnScreen) :
    ∃ isr', isr.read byte = some isr' ∧ isr'.terminal.OnScreen := by
  rcases isr.read_cases byte with ⟨_, isr', quiet, same⟩ | ⟨mapped, looked, worked⟩
  · exact ⟨isr', quiet, same ▸ onScreen⟩
  · rw [worked]
    exact careful.process looked onScreen

end Isr

/-! ## Printing -/

/-- Cells in a row that is counted from the row of the shell. -/
theorem write_add_onScreen {rows col : Nat} (below : rowShell.toNat + rows < 25) (inside : col < 80) (char : UInt8) :
    Draw.OnScreen (.write (rowShell + UInt8.ofNat rows) (UInt8.ofNat col) char) := by
  have same : rowShell + UInt8.ofNat rows = UInt8.ofNat (rowShell.toNat + rows) := by
    rw [UInt8.ofNat_add, UInt8.ofNat_toNat]
  rw [same]
  exact write_onScreen below inside char

theorem puts_onScreen {str : Memory} {len : Nat} (below : rowShell.toNat < 25) (short : len ≤ 80) :
    ∀ d ∈ puts str len rowShell, d.OnScreen := by
  intro d member
  obtain ⟨i, inside, rfl⟩ := List.mem_map.mp member
  have inside := List.mem_range.mp inside
  have cell := write_onScreen below (show i < 80 by omega) (str i)
  rwa [UInt8.ofNat_toNat] at cell

theorem longText_onScreen (str : Memory) (len : Nat) (below : rowShell.toNat + (longText str len rowShell).k < 25) :
    ∀ d ∈ (longText str len rowShell).drawn, d.OnScreen := by
  intro d member
  obtain ⟨m, last, j, inside, c, rfl⟩ := (longText_printed str len rowShell).drawn d member
  exact write_add_onScreen (by omega) inside c

theorem putsLine_onScreen {str : Memory} {row col : Nat} (below : row < 25) (inside : col + 12 ≤ 80) :
    ∀ d ∈ putsLine str row col 12, d.OnScreen := by
  intro d member
  obtain ⟨i, short, rfl⟩ := List.mem_map.mp member
  have short := List.mem_range.mp short
  exact write_onScreen below (by omega) (str i)

theorem setCol_range (k : KeyboardDriver) (cols : UInt8) :
    0 ≤ (k.setCol cols).cursor.col ∧ (k.setCol cols).cursor.col ≤ 79 := by
  change 0 ≤ (if cols ≥ 80 then (0 : Int) else cols.toNat) ∧ (if cols ≥ 80 then (0 : Int) else cols.toNat) ≤ 79
  split
  · decide
  · rename_i low
    have inside : cols.toNat < 80 := by simpa [UInt8.le_iff_toNat_le] using low
    omega

/-- The loop over a short path ends behind it. -/
theorem templatePath_onScreen {len : Nat} (rounds i : Nat) (below : rowShell.toNat < 25) (short : len ≤ 67)
    (stop : cwd len = 0) (before : ∀ j < len, cwd (j : Nat) ≠ 0) (bound : i ≤ len) (enough : len < i + rounds) :
    ∃ drawn, templatePath rowShell cwd rounds (UInt8.ofNat (10 + i)) = some (UInt8.ofNat (10 + len), drawn) ∧
      ∀ d ∈ drawn, d.OnScreen := by
  induction rounds generalizing i with
  | zero => omega
  | succ rounds ih =>
    have value : (UInt8.ofNat (10 + i)).toNat = 10 + i := UInt8.toNat_ofNat_of_lt' (show 10 + i < 256 by omega)
    have index : ((UInt8.ofNat (10 + i)).toNat : Int) - 10 = (i : Nat) := by
      rw [value]
      omega
    rw [templatePath, index]
    by_cases last : i = len
    · subst last
      exact ⟨[], by simp [stop], List.forall_mem_nil _⟩
    · obtain ⟨drawn, rest, onScreen⟩ := ih (i + 1) (by omega) (by omega)
      have next : UInt8.ofNat (10 + i) + 1 = UInt8.ofNat (10 + (i + 1)) := by
        rw [← Nat.add_assoc, UInt8.ofNat_add (10 + i) 1]
        rfl
      have cell := write_onScreen below (show 10 + i < 80 by omega) (cwd (i : Nat))
      rw [UInt8.ofNat_toNat] at cell
      refine ⟨.write rowShell (UInt8.ofNat (10 + i)) (cwd (i : Nat)) :: drawn, ?_,
        List.forall_mem_cons.mpr ⟨cell, onScreen⟩⟩
      simp only [before i (by omega), ↓reduceIte, next, rest, Option.bind_eq_bind, Option.bind_some]

/-- A prompt on the screen with a short path. -/
theorem template_onScreen (onScreen : t.OnScreen) (below : rowShell.toNat < 25) (path : ShortPath cwd) :
    ∃ t', template t rowShell cwd = some t' ∧ t'.OnScreen := by
  obtain ⟨len, short, stop, before⟩ := path
  obtain ⟨drawn, loop, inside⟩ := templatePath_onScreen 256 0 below short stop before (Nat.zero_le _) (by omega)
  have first : UInt8.ofNat (10 + 0) = 10 := rfl
  rw [first] at loop
  rw [template, loop]
  refine ⟨_, rfl, ⟨onScreen.cursor.row, setCol_range _ _⟩, ?_⟩
  have behind (n : Nat) (small : n ≤ 2) (char : UInt8) :
      Draw.OnScreen (.write rowShell (UInt8.ofNat (10 + len) + UInt8.ofNat n) char) := by
    have cell := write_onScreen below (show 10 + len + n < 80 by omega) char
    rwa [UInt8.ofNat_toNat, UInt8.ofNat_add] at cell
  have slash := behind 0 (by decide) '/'.toUInt8
  rw [show UInt8.ofNat 0 = 0 from rfl, UInt8.add_zero] at slash
  intro d member
  simp only [Terminal.draw, List.mem_append, List.mem_cons, List.not_mem_nil, or_false] at member
  rcases member with old | ((name | path) | rfl | rfl | rfl | rfl)
  · exact onScreen.screen d old
  · exact puts_onScreen below (by decide) d name
  · exact inside d path
  · exact slash
  · exact behind 1 (by decide) _
  · exact behind 2 (by decide) _
  · trivial

/-! ## Commands -/

theorem toNat_add_one_le (rowShell : UInt8) : (rowShell + 1).toNat ≤ rowShell.toNat + 1 := by
  rw [UInt8.toNat_add]
  exact Nat.mod_le _ _

theorem addRow_onScreen {n : Int} (onScreen : k.cursor.OnScreen) (more : 0 ≤ n) (below : k.cursor.row + n ≤ 24) :
    (k.addRow n).cursor.OnScreen := by
  refine ⟨?_, onScreen.col⟩
  have range := onScreen.row
  change 0 ≤ k.cursor.row + n ∧ k.cursor.row + n ≤ 24
  omega

theorem showListing_onScreen {table : FAT32DirectoryTable} {type : Nat} (onScreen : t.OnScreen)
    (shell : rowShell.toNat + (commandCallLs table type (rowShell + 1)).rowAddNeeded ≤ 24)
    (driver : t.keyboard.cursor.row + (commandCallLs table type (rowShell + 1)).rowAddNeeded ≤ 24) :
    (showListing t table type (rowShell + 1)).1.OnScreen := by
  have cursor := addRow_onScreen onScreen.cursor (Int.natCast_nonneg _) driver
  refine onScreen.draw (fun d member => ?_) cursor
  obtain ⟨print, printed, drawn⟩ := List.mem_flatMap.mp member
  obtain ⟨inside, m, last, row⟩ := (commandCallLs_listed table type (rowShell + 1)).2 print printed
  have below : print.row.toNat < 25 := by
    have next := toNat_add_one_le rowShell
    have value : (UInt8.ofNat m).toNat = m := UInt8.toNat_ofNat_of_lt' (show m < 256 by omega)
    rw [row, UInt8.toNat_add, value]
    exact Nat.lt_of_le_of_lt (Nat.mod_le _ _) (by omega)
  exact putsLine_onScreen below inside d drawn

theorem putsLongText_onScreen {str : Memory} {len : Nat} (onScreen : t.OnScreen)
    (shell : rowShell.toNat + ((longText str len (rowShell + 1)).k + 1) ≤ 24)
    (driver : t.keyboard.cursor.row + ((longText str len (rowShell + 1)).k + 1 : Nat) ≤ 24) :
    (putsLongText t str len (rowShell + 1)).1.OnScreen := by
  have reduced := Nat.mod_le (longText str len (rowShell + 1)).k 256
  have next := toNat_add_one_le rowShell
  have cursor : (t.keyboard.addRow (((longText str len (rowShell + 1)).k % 256 : Nat) + 1)).cursor.OnScreen :=
    addRow_onScreen onScreen.cursor (by omega) (by omega)
  exact onScreen.draw (longText_onScreen str len (by omega)) cursor

theorem clearScreen_onScreen (onScreen : t.OnScreen) (path : ShortPath cwd) :
    ∃ t', clearScreen t cwd = some t' ∧ t'.OnScreen := by
  have cleared : Terminal.OnScreen (({ t with keyboard := t.keyboard.setRow 0 } : Terminal).draw [.clear]) := by
    refine onScreen.draw (fun d member => ?_) ⟨⟨Int.le_refl 0, Int.zero_le_ofNat 24⟩, onScreen.cursor.col⟩
    obtain rfl := List.mem_singleton.mp member
    trivial
  obtain ⟨shown, drawn, onScreen'⟩ := template_onScreen cleared (show (0 : UInt8).toNat < 25 by decide) path
  refine ⟨{ shown with keyboard := shown.keyboard.clearKeyboardBuffer }, ?_, onScreen'.cursor, onScreen'.screen⟩
  rw [clearScreen, drawn]
  rfl

/-- A command whose output fits, from the row behind the prompt. -/
theorem command_onScreen (onScreen : t.OnScreen) (fits : FitsBelow rowShell t input answers) :
    ∃ t' rowShell', Session.command (rowShell + 1) t input answers = some (t', rowShell') ∧ t'.OnScreen := by
  unfold Session.command
  unfold FitsBelow outputRows at fits
  cases shown : shows (getCommandInput input 16) with
  | listing type =>
    simp only [shown] at fits
    exact ⟨_, _, rfl, showListing_onScreen onScreen fits.1 fits.2⟩
  | text =>
    simp only [shown] at fits
    have onScreen' : (showText t input answers.table answers.cbuf (rowShell + 1)).1.OnScreen := by
      unfold showText
      cases parsed : parseCat input with
      | none => exact onScreen
      | some names =>
        obtain ⟨name, ext⟩ := names
        simp only [parsed] at fits
        exact putsLongText_onScreen onScreen fits.1 fits.2
    exact ⟨_, _, rfl, onScreen'⟩
  | cleared =>
    simp only [shown] at fits
    obtain ⟨t', cleared, onScreen'⟩ := clearScreen_onScreen onScreen fits
    exact ⟨t', 0, by simp [cleared], onScreen'⟩
  | nothing => exact ⟨t, rowShell + 1, rfl, onScreen⟩

/-! ## Runs -/

namespace Session

variable {s s' : Session} {action : Action} {history : List (Action × Unit)}

def OnScreen (s : Session) : Prop := s.terminal.OnScreen

theorem Start.onScreen (start : s.Start) : s.OnScreen := by
  constructor
  · rw [start.cursor]
    exact ⟨by decide, by decide⟩
  · intro d member
    rcases start.screen with empty | shown
    · rw [empty] at member
      cases member
    · rw [shown] at member
      exact puts_onScreen (by decide) (by decide) d member

/-- A careful action is carried out, and keeps to the screen. -/
theorem Careful.step (careful : s.Careful action) (onScreen : s.OnScreen) :
    ∃ s', Step s action s' ∧ s'.OnScreen := by
  obtain ⟨rowShell, control⟩ := s
  cases control <;> cases action
  case prompt.prompt t cwd =>
    obtain ⟨below, path⟩ := careful
    obtain ⟨t', drawn, onScreen'⟩ := template_onScreen onScreen (UInt8.lt_iff_toNat_lt.mp below) path
    exact ⟨_, .prompt drawn, onScreen'.cursor, onScreen'.screen⟩
  case typing.read isr byte =>
    have careful : isr.Careful byte := careful
    obtain ⟨isr', read, onScreen'⟩ := careful.read onScreen
    cases on : isr'.terminal.keyboard.keyboardInputOn with
    | true => exact ⟨_, .goOn read on, onScreen'⟩
    | false => exact ⟨_, .handOut read on, onScreen'⟩
  case command.command t buf answers =>
    obtain ⟨t', rowShell', done, onScreen'⟩ := command_onScreen onScreen careful
    exact ⟨_, .command done, onScreen'.draw (puts_onScreen (by decide) (by decide)) onScreen'.cursor⟩
  case prompt.interrupt t => exact ⟨_, .ignorePrompt, onScreen.ignore⟩
  case input.interrupt t => exact ⟨_, .start, onScreen.cursor, onScreen.screen⟩
  case command.interrupt t buf => exact ⟨_, .ignoreCommand, onScreen.ignore⟩
  all_goals exact careful.elim

/-- In a careful session everything is on the screen, and no step looks outside `backspaceLine`. -/
theorem careful_run_onScreen (run : Run perform Careful Start history s) :
    s.OnScreen ∧ ∀ action, s.Careful action → ∃ s', Step s action s' := by
  have inductive_ : Runs.Inductive perform Careful Start OnScreen :=
    { start := fun _ start => start.onScreen
      step := fun s action onScreen careful => by
        obtain ⟨s', step, onScreen'⟩ := careful.step onScreen
        exact ⟨(), s', perform_iff.mpr step, onScreen'⟩ }
  have onScreen := run.invariant inductive_
  refine ⟨onScreen, fun action careful => ?_⟩
  obtain ⟨s', step, _⟩ := careful.step onScreen
  exact ⟨s', step⟩

/-- To the right of column 0 every read is careful. -/
theorem careful_inside (right : isr.terminal.keyboard.cursor.col ≠ 0) : isr.Careful byte where
  shiftBackspace _ _ _ := right
  backspace _ _ _ zero := absurd zero right

/-- A test for sessions in the root. -/
def carefulCheck (s : Session) (action : Action) : Bool :=
  match s.control, action with
  | .prompt _, .prompt cwd => s.rowShell < 25 ∧ cwd 0 = 0
  | .typing isr, .read _ => isr.terminal.keyboard.cursor.col ≠ 0
  | .command t buf, .command answers =>
    match shows (getCommandInput (lineOf buf) 16) with
    | .cleared => answers.cwd 0 = 0
    | .nothing => true
    | _ => s.rowShell.toNat + outputRows (s.rowShell + 1) (lineOf buf) answers ≤ 24 ∧
        t.keyboard.cursor.row + outputRows (s.rowShell + 1) (lineOf buf) answers ≤ 24
  | .prompt _, .interrupt => true
  | .input _, .interrupt => true
  | .command _ _, .interrupt => true
  | _, _ => false

theorem shortPath_root (root : cwd 0 = 0) : ShortPath cwd :=
  ⟨0, by decide, root, fun i below => absurd below i.not_lt_zero⟩

theorem careful_of_check (checked : carefulCheck s action = true) : s.Careful action := by
  obtain ⟨rowShell, control⟩ := s
  cases control <;> cases action
  case prompt.prompt t cwd =>
    obtain ⟨below, root⟩ := of_decide_eq_true checked
    exact ⟨below, shortPath_root root⟩
  case typing.read isr byte => exact careful_inside (of_decide_eq_true checked)
  case command.command t buf answers =>
    simp only [carefulCheck] at checked
    simp only [Careful, FitsBelow]
    cases shown : shows (getCommandInput (lineOf buf) 16) <;> simp only [shown] at checked ⊢
    case cleared => exact shortPath_root (of_decide_eq_true checked)
    all_goals exact of_decide_eq_true checked
  all_goals trivial

/-- The line `ls`, and the prompt behind it. -/
theorem careful_run_onScreen_ls :
    ∃ history s, Run perform Careful Start history s ∧ s.rows = some (2, 2) ∧ s.OnScreen := by
  obtain ⟨history, s, run, shown⟩ := run_freshSession rows (fun _ _ => careful_of_check)
    (show (follow carefulCheck (typedLine [0x26, 0x1F])).map rows = some (some (2, 2)) by decide +kernel)
  exact ⟨history, s, run, shown, (careful_run_onScreen run).1⟩

/-- Behind 25 empty lines the prompt is drawn below the screen. -/
theorem empty_lines_leave_screen :
    ∃ history s, Run perform (fun _ _ => True) Start history s ∧
      Draw.write 25 0 'b'.toUInt8 ∈ s.terminal.screen ∧ ¬ s.OnScreen := by
  have computed : (follow (fun _ _ => true) ((List.replicate 25 (typedLine [])).flatten ++ [.prompt fun _ => 0])).map
      (fun s => decide (Draw.write 25 0 'b'.toUInt8 ∈ s.terminal.screen)) = some true := by decide +kernel
  obtain ⟨history, s, run, shown⟩ := run_freshSession _ (fun _ _ _ => trivial) computed
  have drawn := of_decide_eq_true shown
  exact ⟨history, s, run, drawn, fun onScreen => absurd (onScreen.screen _ drawn).1 (by decide)⟩

end Session

end Brother420.Console
