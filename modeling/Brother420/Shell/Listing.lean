import Brother420.Shell.Commands

/-! # ls

`command_call_ls` with what it prints.  Its five types are the numbers that `main`
passes: 0 for `ls`, 1 for `-F`, 2 for `-f`, 3 for `-ff` and 4 for `-a`.
-/

namespace Brother420.Shell

open Packed (Bytes)
open Fat32

/-- System call 6: twelve characters from column `col` of row `row` on. -/
structure Print where
  row : UInt8
  col : Nat
  text : Bytes 12

structure Listing where
  col : Nat
  rowShell : UInt8
  rowAddNeeded : Nat
  prints : List Print

/-- An entry with an extension counts as a file. -/
def isFile (e : FAT32DirectoryEntry) : Bool := memcmp e.ext noExt ≠ 0

/-- The name, and behind it a dot and the extension of a file. -/
def aprinter (e : FAT32DirectoryEntry) : Bytes 12 := fun i =>
  if h : i.val < 8 then e.name ⟨i, h⟩
  else if h : i.val = 8 then if isFile e then dot else 0
  else e.ext ⟨i - 9, by omega⟩

def nprinter (e : FAT32DirectoryEntry) : Bytes 12 := fun i => if h : i.val < 8 then e.name ⟨i, h⟩ else 0

/-- What is printed of an entry, and the width of the columns. -/
def lsPrinter (type : Nat) (e : FAT32DirectoryEntry) : Option (Bytes 12 × Nat) :=
  match type with
  | 0 => some (nprinter e, 16)
  | 1 => some (if isFile e then fun _ => 0 else nprinter e, 16)
  | 2 => some (if isFile e then nprinter e else fun _ => 0, 16)
  | 3 => some (if isFile e then aprinter e else fun _ => 0, 20)
  | 4 => some (aprinter e, 20)
  | _ => none

/-- The line is full: four columns for the types from 3 on, otherwise five. -/
def lsWrap (type : Nat) (st : Listing) : Listing :=
  if st.col = 4 ∧ 3 ≤ type ∨ st.col = 5 then
    { st with col := 0, rowShell := st.rowShell + 1, rowAddNeeded := st.rowAddNeeded + 1 }
  else st

def lsPrint (type : Nat) (st : Listing) (e : FAT32DirectoryEntry) : Listing :=
  match lsPrinter type e with
  | some (text, width) => { st with prints := st.prints ++ [⟨st.rowShell, st.col * width, text⟩] }
  | none => st

/-- Whether the column moves on behind the entry. -/
def lsCounts (type : Nat) (e : FAT32DirectoryEntry) : Bool :=
  isFile e && type != 1 || !isFile e && type == 1 || type == 0 || type == 4

/-- The body of the loop over the slots. -/
def lsEntry (type : Nat) (st : Listing) (e : FAT32DirectoryEntry) : Listing :=
  if e.Live then
    let st := lsPrint type (lsWrap type st) e
    if lsCounts type e then { st with col := st.col + 1 } else st
  else st

/-- `rowAddNeeded` is what system call 7 then adds to the row of the keyboard driver. -/
def commandCallLs (table : FAT32DirectoryTable) (type : Nat) (rowShell : UInt8) : Listing :=
  let st := (List.finRange 64).tail.foldl (fun st i => lsEntry type st (table i)) ⟨0, rowShell, 1, []⟩
  { st with rowShell := st.rowShell + 1 }

/-! ## Rows and columns -/

/-- The loop is in the last of the rows that it has counted, and has printed in these rows and inside the 80
    columns. -/
structure Listed (type : Nat) (rowShell : UInt8) (st : Listing) : Prop where
  col : st.col ≤ 5
  wide : 3 ≤ type → st.col ≤ 4
  row : ∃ m, st.rowAddNeeded = m + 1 ∧ st.rowShell = rowShell + UInt8.ofNat m
  prints : ∀ print ∈ st.prints, print.col + 12 ≤ 80 ∧
    ∃ m < st.rowAddNeeded, print.row = rowShell + UInt8.ofNat m

variable {type : Nat} {rowShell : UInt8} {st : Listing} {e : FAT32DirectoryEntry} {table : FAT32DirectoryTable}

theorem Listed.wrap (listed : Listed type rowShell st) :
    Listed type rowShell (lsWrap type st) ∧ (lsWrap type st).col ≤ 4 ∧ (3 ≤ type → (lsWrap type st).col ≤ 3) := by
  obtain ⟨m, count, row⟩ := listed.row
  unfold lsWrap
  split
  · refine ⟨⟨Nat.zero_le _, fun _ => Nat.zero_le _, ⟨m + 1, by rw [count], ?_⟩, ?_⟩, Nat.zero_le _,
      fun _ => Nat.zero_le _⟩
    · rw [row, UInt8.ofNat_add, ← UInt8.add_assoc]
      rfl
    · intro print member
      obtain ⟨inside, m', below, row'⟩ := listed.prints print member
      exact ⟨inside, m', Nat.lt_succ_of_lt below, row'⟩
  · rename_i notFull
    have col := listed.col
    have wide := listed.wide
    exact ⟨listed, by omega, by omega⟩

theorem Listed.print (listed : Listed type rowShell st) (small : st.col ≤ 4) (wide : 3 ≤ type → st.col ≤ 3) :
    Listed type rowShell (lsPrint type st e) ∧ (lsPrint type st e).col = st.col := by
  obtain ⟨m, count, row⟩ := listed.row
  unfold lsPrint
  split
  · rename_i text width printed
    refine ⟨⟨listed.col, listed.wide, listed.row, ?_⟩, rfl⟩
    intro print member
    rcases List.mem_append.mp member with old | new
    · exact listed.prints print old
    · obtain rfl := List.mem_singleton.mp new
      have last : m < st.rowAddNeeded := by omega
      refine ⟨?_, m, last, row⟩
      -- four columns of 20, or five of 16
      change st.col * width + 12 ≤ 80
      unfold lsPrinter at printed
      split at printed
      all_goals cases printed
      all_goals omega
  · exact ⟨listed, rfl⟩

theorem Listed.entry (listed : Listed type rowShell st) : Listed type rowShell (lsEntry type st e) := by
  unfold lsEntry
  split
  · obtain ⟨wrapped, small, wide⟩ := listed.wrap
    obtain ⟨printed, same⟩ := wrapped.print (e := e) small wide
    dsimp only
    split
    · have col : (lsPrint type (lsWrap type st) e).col + 1 ≤ 5 := by omega
      have wideCol : 3 ≤ type → (lsPrint type (lsWrap type st) e).col + 1 ≤ 4 := by omega
      exact ⟨col, wideCol, printed.row, printed.prints⟩
    · exact printed
  · exact listed

theorem commandCallLs_listed (table : FAT32DirectoryTable) (type : Nat) (rowShell : UInt8) :
    let listing := commandCallLs table type rowShell
    listing.rowShell = rowShell + UInt8.ofNat listing.rowAddNeeded ∧
      ∀ print ∈ listing.prints, print.col + 12 ≤ 80 ∧
        ∃ m < listing.rowAddNeeded, print.row = rowShell + UInt8.ofNat m := by
  have loop (slots : List (Fin 64)) (st : Listing) (listed : Listed type rowShell st) :
      Listed type rowShell (slots.foldl (fun st i => lsEntry type st (table i)) st) := by
    induction slots generalizing st with
    | nil => exact listed
    | cons i slots ih => exact ih _ listed.entry
  have start : Listed type rowShell ⟨0, rowShell, 1, []⟩ :=
    ⟨Nat.zero_le _, fun _ => Nat.zero_le _, ⟨0, rfl, (UInt8.add_zero _).symm⟩, List.forall_mem_nil _⟩
  have listed := loop (List.finRange 64).tail _ start
  obtain ⟨m, count, row⟩ := listed.row
  refine ⟨?_, listed.prints⟩
  have rows : (commandCallLs table type rowShell).rowAddNeeded = m + 1 := count
  rw [rows, UInt8.ofNat_add, ← UInt8.add_assoc, ← row]
  rfl

end Brother420.Shell
