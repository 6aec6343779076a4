import Brother420.Console.Keyboard

/-! # Printing

The functions of `interrupt.c` that write on the screen for the shell.
-/

namespace Brother420.Console

open Packed (Bytes)

namespace Terminal

def draw (t : Terminal) (drawn : List Draw) : Terminal := { t with screen := t.screen ++ drawn }

end Terminal

/-- The first `len` characters in row `rowShells`, from column 0 on. -/
def puts (str : Memory) (len : Nat) (rowShells : UInt8) : List Draw :=
  (List.range len).map fun i => .write rowShells (UInt8.ofNat i) (str i)

def puts2 (str : Memory) (len : Nat) : List Draw := puts str len 24

def putsLine (input : Memory) (row col length : Nat) : List Draw :=
  (List.range length).map fun i => .write (UInt8.ofNat row) (UInt8.ofNat (col + i)) (input i)

/-! ## Long texts -/

/-- The variables of the loop; `k`, the rows that are done, is reduced to 8 bits where it is used. -/
structure LongText where
  j : Nat
  k : Nat
  rowShells : UInt8
  drawn : List Draw

def LongText.nextRow (st : LongText) : LongText := { st with j := 0, k := st.k + 1, rowShells := st.rowShells + 1 }

def LongText.char (st : LongText) (c : UInt8) : LongText :=
  let st := if st.j = 80 then st.nextRow else st
  if c = lineFeed then st.nextRow
  else { st with j := st.j + 1, drawn := st.drawn ++ [.write st.rowShells (UInt8.ofNat st.j) c] }

def longText (str : Memory) (len : Nat) (rowShells : UInt8) : LongText :=
  (List.range len).foldl (fun st i => st.char (str i)) ⟨0, 0, rowShells, []⟩

/-- The text, and where the shell goes on. -/
def putsLongText (t : Terminal) (str : Memory) (len : Nat) (rowShells : UInt8) : Terminal × UInt8 :=
  let st := longText str len rowShells
  let t := t.draw st.drawn
  ({ t with keyboard := t.keyboard.addRow (st.k % 256 + 1) }, st.rowShells + 1)

/-- The rows that are done are those that the shell has moved on, and every character is in one of them, or in
    the row that is being printed. -/
structure LongText.Printed (rowShells : UInt8) (st : LongText) : Prop where
  col : st.j ≤ 80
  row : st.rowShells = rowShells + UInt8.ofNat st.k
  drawn : ∀ d ∈ st.drawn, ∃ m ≤ st.k, ∃ j < 80, ∃ c, d = .write (rowShells + UInt8.ofNat m) (UInt8.ofNat j) c

namespace LongText

variable {rowShells : UInt8} {st : LongText}

theorem Printed.nextRow (printed : Printed rowShells st) : Printed rowShells st.nextRow where
  col := Nat.zero_le _
  row := by
    rw [LongText.nextRow, printed.row, UInt8.ofNat_add, ← UInt8.add_assoc]
    rfl
  drawn d member := by
    obtain ⟨m, below, rest⟩ := printed.drawn d member
    exact ⟨m, Nat.le_succ_of_le below, rest⟩

theorem Printed.char (printed : Printed rowShells st) (c : UInt8) : Printed rowShells (st.char c) := by
  unfold LongText.char
  have inside : Printed rowShells (if st.j = 80 then st.nextRow else st) ∧
      (if st.j = 80 then st.nextRow else st).j < 80 := by
    split
    · exact ⟨printed.nextRow, Nat.zero_lt_succ _⟩
    · rename_i notFull
      exact ⟨printed, Nat.lt_of_le_of_ne printed.col notFull⟩
  obtain ⟨printed, small⟩ := inside
  dsimp only
  split
  · exact printed.nextRow
  · refine ⟨small, printed.row, ?_⟩
    intro d member
    rcases List.mem_append.mp member with old | new
    · exact printed.drawn d old
    · obtain rfl := List.mem_singleton.mp new
      exact ⟨_, Nat.le_refl _, _, small, c, by rw [printed.row]⟩

end LongText

theorem longText_printed (str : Memory) (len : Nat) (rowShells : UInt8) :
    (longText str len rowShells).Printed rowShells := by
  have loop (indices : List Nat) (st : LongText) (printed : st.Printed rowShells) :
      (indices.foldl (fun st i => st.char (str i)) st).Printed rowShells := by
    induction indices generalizing st with
    | nil => exact printed
    | cons i indices ih => exact ih _ (printed.char _)
  exact loop _ _ ⟨Nat.zero_le _, (UInt8.add_zero _).symm, List.forall_mem_nil _⟩

/-! ## The prompt -/

/-- The loop over the path.  The column has 8 bits: after 256 rounds it is where it was, and the loop
    never ends. -/
def templatePath (rowShells : UInt8) (cwd : Int → UInt8) : (rounds : Nat) → UInt8 → Option (UInt8 × List Draw)
  | 0, _ => none
  | rounds + 1, tempCol =>
    let c := cwd (tempCol.toNat - 10)
    if c = 0 then some (tempCol, [])
    else do
      let (last, drawn) ← templatePath rowShells cwd rounds (tempCol + 1)
      some (last, .write rowShells tempCol c :: drawn)

/-- `cwd i` is the byte `i` behind the address of the path, or before it. -/
def template (t : Terminal) (rowShells : UInt8) (cwd : Int → UInt8) : Option Terminal := do
  let name := puts (fun i => (ascii ['b', 'r', 'o', 't', 'h', 'e', 'r', '4', '2', '0']).getD i 0) 10 rowShells
  let (tempCol, path) ← templatePath rowShells cwd 256 10
  let t := t.draw (name ++ path ++
    [.write rowShells tempCol '/'.toUInt8, .write rowShells (tempCol + 1) ':'.toUInt8,
      .write rowShells (tempCol + 2) '$'.toUInt8, .setCursor rowShells (tempCol + 4)])
  some { t with keyboard := t.keyboard.setCol (tempCol + 4) }

/-- The prompt moves the column of the driver and nothing else. -/
theorem template_keyboard {t t' : Terminal} {rowShells : UInt8} {cwd : Int → UInt8}
    (drawn : template t rowShells cwd = some t') : ∃ cols, t'.keyboard = t.keyboard.setCol cols := by
  obtain ⟨⟨tempCol, path⟩, _, same⟩ := Option.bind_eq_some_iff.mp drawn
  cases same
  exact ⟨tempCol + 4, rfl⟩

end Brother420.Console
