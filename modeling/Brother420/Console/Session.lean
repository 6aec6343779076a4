import Brother420.Library.Runs
import Brother420.Console.Printing
import Brother420.Shell.Listing

/-! # The main loop

`main` of the shell and the keyboard interrupt as one machine.  Main waits in
system call 4 until the interrupt has read a line, and then goes on to the command
that the line names.  What the file system answers to a command is part of the
action that carries it out.
-/

namespace Brother420.Console

open Packed (Bytes)
open Fat32 Shell
open Runs (Run)

/-! ## The command of a line -/

def commandNames : List (List Char) :=
  [['c', 'd', ' '], ['l', 's', ' ', '-', 'a'], ['m', 'k', 'd', 'i', 'r', ' '], ['c', 'a', 't', ' '], ['c', 'p', ' '],
    ['r', 'm', ' '], ['m', 'v', ' '], ['w', 'h', 'e', 'r', 'e', 'i', 's', ' '], ['l', 's', ' ', '-', 'f', 'f'],
    ['l', 's', ' ', '-', 'F'], ['l', 's', ' ', '-', 'f'], ['l', 's'], ['c', 'l', 's']]

/-- The first command whose name the line starts with. -/
def getCommandInput (input : Memory) (len : Nat) : Nat :=
  let named (name : List Char) : Bool := len ≥ name.length ∧ memcmp (input.bytes 0 name.length) (text name) = 0
  (commandNames.findIdx? named).getD 255

/-- What a branch of `main` shows. -/
inductive Shows
  | listing (type : Nat)
  | text
  | cleared
  | nothing

/-- `cd`, `mkdir`, `cp`, `rm`, `mv` and `whereis` print nothing. -/
def shows (command : Nat) : Shows :=
  match command with
  | 1 => .listing 4
  | 3 => .text
  | 8 => .listing 3
  | 9 => .listing 1
  | 10 => .listing 2
  | 11 => .listing 0
  | 12 => .cleared
  | _ => .nothing

/-! ## What is shown -/

/-- The listing, and system call 7. -/
def showListing (t : Terminal) (table : FAT32DirectoryTable) (type : Nat) (rowShell : UInt8) : Terminal × UInt8 :=
  let listing := commandCallLs table type rowShell
  let line (print : Print) : List Draw :=
    putsLine (Memory.store (fun _ => 0) 0 print.text) print.row.toNat print.col 12
  let t := t.draw (listing.prints.flatMap line)
  ({ t with keyboard := t.keyboard.addRow listing.rowAddNeeded }, listing.rowShell)

/-- `cbuf` is the buffer behind the call of `read`. -/
def showText (t : Terminal) (line : Memory) (table : FAT32DirectoryTable) (cbuf : Memory) (rowShell : UInt8) :
    Terminal × UInt8 :=
  match parseCat line with
  | none => (t, rowShell)
  | some (name, ext) => putsLongText t cbuf (catSize table name ext).toNat rowShell

/-- System call 17. -/
def clearScreen (t : Terminal) (cwd : Int → UInt8) : Option Terminal := do
  let t ← template ({ t with keyboard := t.keyboard.setRow 0 }.draw [.clear]) 0 cwd
  some { t with keyboard := t.keyboard.clearKeyboardBuffer }

/-! ## The machine -/

/-- What a command finds: the path that `main` has built, the table of the current directory, and what is in
    the buffer of `cat` when it is printed. -/
structure Answers where
  cwd : Int → UInt8
  table : FAT32DirectoryTable
  cbuf : Memory

/-- Where `main` and the interrupt are. -/
inductive Control
  /-- Before system call 4. -/
  | prompt (t : Terminal)
  /-- In system call 4. -/
  | input (t : Terminal)
  /-- In the interrupt. -/
  | typing (isr : Isr)
  /-- Behind system call 4. -/
  | command (t : Terminal) (buf : Bytes 256)

structure Session where
  rowShell : UInt8
  control : Control

inductive Action
  /-- Main issues system call 4 with the path. -/
  | prompt (cwd : Int → UInt8)
  /-- A key goes down or up. -/
  | interrupt
  /-- The interrupt reads the data port. -/
  | read (byte : UInt8)
  /-- Main carries out the command. -/
  | command (answers : Answers)

def Control.terminal : Control → Terminal
  | .prompt t => t
  | .input t => t
  | .typing isr => isr.terminal
  | .command t _ => t

namespace Session

abbrev terminal (s : Session) : Terminal := s.control.terminal

def prompt (rowShell : UInt8) (t : Terminal) (cwd : Int → UInt8) : Option Session := do
  let t ← template t rowShell cwd
  some ⟨rowShell, .input { t with keyboard := t.keyboard.clearKeyboardBuffer.keyboardStateActivate }⟩

/-- A read of the interrupt, which returns when the input is off. -/
def read (rowShell : UInt8) (isr : Isr) (byte : UInt8) : Option Session := do
  let isr ← isr.read byte
  if isr.terminal.keyboard.isKeyboardBlocking then some ⟨rowShell, .typing isr⟩
  else some ⟨rowShell, .command isr.terminal isr.terminal.keyboard.getKeyboardBuffer⟩

/-- The memory of a line that was handed out, with zeros behind it. -/
def lineOf (buf : Bytes 256) : Memory := Memory.store (fun _ => 0) 0 buf

/-- The rest of a round of `main`, with the row of the shell behind the prompt. -/
def command (rowShell : UInt8) (t : Terminal) (line : Memory) (answers : Answers) : Option (Terminal × UInt8) :=
  match shows (getCommandInput line 16) with
  | .listing type => some (showListing t answers.table type rowShell)
  | .text => some (showText t line answers.table answers.cbuf rowShell)
  | .cleared => do
    let t ← clearScreen t answers.cwd
    some (t, 0)
  | .nothing => some (t, rowShell)

def perform (s : Session) (action : Action) : Option (Unit × Session) :=
  match s.control, action with
  | .prompt t, .prompt cwd => (prompt s.rowShell t cwd).map ((), ·)
  | .input t, .interrupt => some ((), ⟨s.rowShell, .typing (Isr.start t)⟩)
  | .typing isr, .read byte => (read s.rowShell isr byte).map ((), ·)
  | .command t buf, .command answers => do
    let (t, rowShell) ← command (s.rowShell + 1) t (lineOf buf) answers
    some ((), ⟨rowShell, .prompt (t.draw (puts2 (lineOf buf) 0x20))⟩)
  -- the input is off then
  | .prompt t, .interrupt => some ((), ⟨s.rowShell, .prompt t.ignore⟩)
  | .command t buf, .interrupt => some ((), ⟨s.rowShell, .command t.ignore buf⟩)
  | _, _ => none

/-- What one action does. -/
inductive Step : Session → Action → Session → Prop
  | prompt {rowShell : UInt8} {t t' : Terminal} {cwd : Int → UInt8} : template t rowShell cwd = some t' →
      Step ⟨rowShell, .prompt t⟩ (.prompt cwd)
        ⟨rowShell, .input { t' with keyboard := t'.keyboard.clearKeyboardBuffer.keyboardStateActivate }⟩
  | start {rowShell : UInt8} {t : Terminal} :
      Step ⟨rowShell, .input t⟩ .interrupt ⟨rowShell, .typing (Isr.start t)⟩
  | goOn {rowShell : UInt8} {isr isr' : Isr} {byte : UInt8} : isr.read byte = some isr' →
      isr'.terminal.keyboard.keyboardInputOn = true →
      Step ⟨rowShell, .typing isr⟩ (.read byte) ⟨rowShell, .typing isr'⟩
  | handOut {rowShell : UInt8} {isr isr' : Isr} {byte : UInt8} : isr.read byte = some isr' →
      isr'.terminal.keyboard.keyboardInputOn = false →
      Step ⟨rowShell, .typing isr⟩ (.read byte)
        ⟨rowShell, .command isr'.terminal isr'.terminal.keyboard.getKeyboardBuffer⟩
  | command {rowShell rowShell' : UInt8} {t t' : Terminal} {buf : Bytes 256} {answers : Answers} :
      Session.command (rowShell + 1) t (lineOf buf) answers = some (t', rowShell') →
      Step ⟨rowShell, .command t buf⟩ (.command answers)
        ⟨rowShell', .prompt (t'.draw (puts2 (lineOf buf) 0x20))⟩
  | ignorePrompt {rowShell : UInt8} {t : Terminal} :
      Step ⟨rowShell, .prompt t⟩ .interrupt ⟨rowShell, .prompt t.ignore⟩
  | ignoreCommand {rowShell : UInt8} {t : Terminal} {buf : Bytes 256} :
      Step ⟨rowShell, .command t buf⟩ .interrupt ⟨rowShell, .command t.ignore buf⟩

theorem perform_iff {s s' : Session} {action : Action} {code : Unit} :
    s.perform action = some (code, s') ↔ Step s action s' := by
  constructor
  · intro performed
    obtain ⟨rowShell, control⟩ := s
    cases control <;> cases action
    case prompt.prompt t cwd =>
      obtain ⟨s₁, prompted, same⟩ := Option.map_eq_some_iff.mp performed
      cases same
      obtain ⟨t', drawn, same⟩ := Option.bind_eq_some_iff.mp prompted
      cases same
      exact .prompt drawn
    case typing.read isr byte =>
      obtain ⟨s₁, done, same⟩ := Option.map_eq_some_iff.mp performed
      cases same
      obtain ⟨isr', read, rest⟩ := Option.bind_eq_some_iff.mp done
      split at rest
      · rename_i on
        cases rest
        exact .goOn read on
      · rename_i off
        cases rest
        exact .handOut read (Bool.eq_false_iff.mpr off)
    case command.command t buf answers =>
      obtain ⟨⟨t', rowShell'⟩, done, same⟩ := Option.bind_eq_some_iff.mp performed
      cases same
      exact .command done
    all_goals cases performed
    · exact .ignorePrompt
    · exact .start
    · exact .ignoreCommand
  · intro step
    cases step with
    | prompt drawn => simp [perform, Session.prompt, drawn]
    | start => rfl
    | goOn read on => simp [perform, Session.read, read, KeyboardDriver.isKeyboardBlocking, on]
    | handOut read off => simp [perform, Session.read, read, KeyboardDriver.isKeyboardBlocking, off]
    | command done => simp [perform, done]
    | ignorePrompt => rfl
    | ignoreCommand => rfl

/-- The shell starts in the first row of the screen, where no key has been typed, and has shown four
    characters if it could read its test file. -/
structure Start (s : Session) : Prop where
  rowShell : s.rowShell = 0
  control : ∃ t, s.control = .prompt t
  cursor : s.terminal.keyboard.cursor = ⟨0, 0, fun _ => 0⟩
  screen : s.terminal.screen = [] ∨
    s.terminal.screen = puts2 (fun i => (ascii ['e', 's', 'w', 'o', 's', 's']).getD i lineFeed) 4

end Session

/-- The shell as it starts, with empty static variables. -/
def freshSession : Session := ⟨0, .prompt ⟨⟨false, 0, fun _ => 0, ⟨0, 0, fun _ => 0⟩⟩, []⟩⟩

theorem start_freshSession : Session.Start freshSession := ⟨rfl, ⟨_, rfl⟩, rfl, .inl rfl⟩

/-- The session that the actions lead to, if each passes the check. -/
def Session.follow (check : Session → Action → Bool) (actions : List Action) : Option Session :=
  actions.foldlM (fun s action => if check s action then (s.perform action).map Prod.snd else none) freshSession

/-- A session that was computed is one that a run reaches. -/
theorem Session.run_freshSession {α : Type} {guard : Session → Action → Prop} {check : Session → Action → Bool}
    {actions : List Action} {out : α} (f : Session → α) (sound : ∀ s action, check s action = true → guard s action)
    (computed : (follow check actions).map f = some out) :
    ∃ history s, Run perform guard Start history s ∧ f s = out := by
  obtain ⟨s, followed, shown⟩ := Option.map_eq_some_iff.mp computed
  obtain ⟨history, run⟩ := (Run.start start_freshSession).follow sound followed
  exact ⟨history, s, run, shown⟩

/-- A line that is typed at the prompt of the root, with a key down and up for every scancode, and its command
    in an empty directory. -/
def typedLine (scancodes : List UInt8) : List Action :=
  [.prompt (fun _ => 0), .interrupt] ++ (scancodes.flatMap fun scancode => [.read scancode, .read (scancode + 0x80)]) ++
    [.read 0x1C, .command ⟨fun _ => 0, fun _ => .zero, fun _ => 0⟩]

/-- The row of the driver and the row of the shell, where the prompt is due. -/
def Session.rows (s : Session) : Option (Int × UInt8) :=
  match s.control with
  | .prompt t => some (t.keyboard.cursor.row, s.rowShell)
  | _ => none

/-- The rows that the output of a command takes. -/
def outputRows (rowShell : UInt8) (line : Memory) (answers : Answers) : Nat :=
  match shows (getCommandInput line 16) with
  | .listing type => (commandCallLs answers.table type rowShell).rowAddNeeded
  | .text =>
    match parseCat line with
    | none => 0
    | some (name, ext) => (longText answers.cbuf (catSize answers.table name ext).toNat rowShell).k + 1
  | _ => 0

end Brother420.Console
