import Brother420.Library.Folds
import Brother420.Console.Session

/-! # The names that ls leaves on the screen

The calls of `framebuffer_write` carried out on the frame buffer.  What an entry
prints goes to the field behind the names that are already there, so a blank is
overwritten by the next name, and a name by nothing.  Nothing stops the rows at
the last one of the screen: a name behind it goes to memory that is not shown.
-/

namespace Brother420.Console

open Packed (Bytes)
open Fat32 Shell

/-! ## The frame buffer -/

/-- The characters, one for each cell; the cells behind the last row are the memory behind the screen. -/
def framebufferWrite (mfb : Memory) (row col c : UInt8) : Memory :=
  Function.update mfb (row.toNat * 80 + col.toNat) c

def framebufferClear (mfb : Memory) : Memory := fun index => if index < 80 * 25 then 0 else mfb index

def Draw.apply (mfb : Memory) : Draw → Memory
  | .write row col c => framebufferWrite mfb row col c
  | .setCursor _ _ => mfb
  | .clear => framebufferClear mfb

def frameBuffer (mfb : Memory) (drawn : List Draw) : Memory := drawn.foldl Draw.apply mfb

theorem frameBuffer_append (mfb : Memory) (drawn more : List Draw) :
    frameBuffer mfb (drawn ++ more) = frameBuffer (frameBuffer mfb drawn) more :=
  List.foldl_append

/-- A line of text is in the cells from its column on, and nowhere else. -/
theorem frameBuffer_putsLine (mfb text : Memory) (row : UInt8) {col len : Nat} (inside : col + len ≤ 80)
    (index : Nat) :
    frameBuffer mfb (putsLine text row.toNat col len) index =
      if row.toNat * 80 + col ≤ index ∧ index < row.toNat * 80 + col + len then text (index - (row.toNat * 80 + col))
      else mfb index := by
  rw [frameBuffer, putsLine, List.foldl_map]
  refine Folds.foldl_range
    (fun done (cells : Memory) => cells index =
      if row.toNat * 80 + col ≤ index ∧ index < row.toNat * 80 + col + done then
        text (index - (row.toNat * 80 + col))
      else mfb index) ?_ ?_
  · rw [if_neg (by omega)]
  · intro i cells below before
    have column : (UInt8.ofNat (col + i)).toNat = col + i := UInt8.toNat_ofNat_of_lt' (show col + i < 256 by omega)
    simp only [Draw.apply, framebufferWrite, UInt8.ofNat_toNat, column]
    by_cases here : index = row.toNat * 80 + (col + i)
    · subst here
      rw [Function.update_self, if_pos (by omega)]
      congr 1
      omega
    · rw [Function.update_of_ne here, before]
      by_cases earlier : row.toNat * 80 + col ≤ index ∧ index < row.toNat * 80 + col + i
      · rw [if_pos earlier, if_pos (by omega)]
      · rw [if_neg earlier, if_neg (by omega)]

/-! ## Fields -/

/-- Four or five columns in a line, as `lsWrap` has them. -/
def perLine (type : Nat) : Nat := if 3 ≤ type then 4 else 5

def width (type : Nat) : Nat := if 3 ≤ type then 20 else 16

def fieldCol (type k : Nat) : Nat := k % perLine type * width type

/-- The first cell of the field with number `k`. -/
def field (type : Nat) (rowShell : UInt8) (k : Nat) : Nat :=
  (rowShell + UInt8.ofNat (k / perLine type)).toNat * 80 + fieldCol type k

theorem fieldCol_inside (type k : Nat) : fieldCol type k + 12 ≤ 80 := by
  unfold fieldCol perLine width
  split
  · have small := Nat.mod_lt k (show 0 < 4 by decide)
    omega
  · have small := Nat.mod_lt k (show 0 < 5 by decide)
    omega

/-- Two fields share no cell. -/
theorem field_apart {type : Nat} {rowShell : UInt8} {k l i j : Nat} (distinct : k ≠ l) (smallK : k < 64)
    (smallL : l < 64) (shortI : i < 12) (shortJ : j < 12) : field type rowShell k + i ≠ field type rowShell l + j := by
  intro same
  have insideK := fieldCol_inside type k
  have insideL := fieldCol_inside type l
  unfold field at same
  have row : rowShell + UInt8.ofNat (k / perLine type) = rowShell + UInt8.ofNat (l / perLine type) :=
    UInt8.toNat_inj.mp (by omega)
  have divK := Nat.div_le_self k (perLine type)
  have divL := Nat.div_le_self l (perLine type)
  have line : k / perLine type = l / perLine type := by
    have value := congrArg UInt8.toNat (UInt8.add_right_inj rowShell |>.mp row)
    rwa [UInt8.toNat_ofNat_of_lt' (show k / perLine type < 256 by omega),
      UInt8.toNat_ofNat_of_lt' (show l / perLine type < 256 by omega)] at value
  have column : k % perLine type = l % perLine type := by
    rw [row] at same
    unfold fieldCol width at same
    split at same <;> omega
  exact distinct (by rw [← Nat.div_add_mod k (perLine type), ← Nat.div_add_mod l (perLine type), line, column])

/-! ## Selected entries -/

/-- `ls` and `ls -a` select every live entry, `-F` the folders, `-f` and `-ff` the files. -/
def Selects (type : Nat) (e : FAT32DirectoryEntry) : Prop :=
  e.Live ∧ (type = 1 → e.ext = noExt) ∧ (type = 2 ∨ type = 3 → e.ext ≠ noExt)

instance (type : Nat) (e : FAT32DirectoryEntry) : Decidable (Selects type e) :=
  inferInstanceAs (Decidable (_ ∧ _ ∧ _))

/-- The selected entries of the slots behind the first one, in their order. -/
def selected (table : FAT32DirectoryTable) (type : Nat) : List FAT32DirectoryEntry :=
  ((List.finRange 64).tail.map table).filter (Selects type ·)

/-- The text of a selected entry. -/
def shownText (type : Nat) (e : FAT32DirectoryEntry) : Bytes 12 := if 3 ≤ type then aprinter e else nprinter e

theorem shownText_name (type : Nat) (e : FAT32DirectoryEntry) (i : Fin 8) :
    shownText type e (i.castLE (by decide)) = e.name i := by
  unfold shownText
  split <;> simp [aprinter, nprinter]

theorem lsCounts_iff {type : Nat} {e : FAT32DirectoryEntry} (five : type ≤ 4) (live : e.Live) :
    lsCounts type e = true ↔ Selects type e := by
  have file : isFile e = true ↔ e.ext ≠ noExt := by simp [isFile, memcmp_eq_zero_iff]
  obtain rfl | rfl | rfl | rfl | rfl : type = 0 ∨ type = 1 ∨ type = 2 ∨ type = 3 ∨ type = 4 := by omega
  all_goals simp [lsCounts, Selects, live, file, ← Bool.not_eq_true]

/-- A selected entry prints its text, another one a blank. -/
theorem lsPrinter_eq {type : Nat} (five : type ≤ 4) (e : FAT32DirectoryEntry) :
    lsPrinter type e = some (if lsCounts type e then shownText type e else fun _ => 0, width type) := by
  obtain rfl | rfl | rfl | rfl | rfl : type = 0 ∨ type = 1 ∨ type = 2 ∨ type = 3 ∨ type = 4 := by omega
  all_goals cases file : isFile e <;> simp [lsPrinter, lsCounts, shownText, width, file]

/-! ## The loop -/

def printLine (print : Print) : List Draw :=
  putsLine (Memory.store (fun _ => 0) 0 print.text) print.row.toNat print.col 12

/-- The prints of the loop on the frame buffer. -/
def painted (mfb : Memory) (st : Listing) : Memory := frameBuffer mfb (st.prints.flatMap printLine)

/-- After the entries of which `shown` are selected: these stand in the first fields, everything else is as it
    was or blank, and the loop is behind the last of them. -/
structure Painted (mfb : Memory) (type : Nat) (rowShell : UInt8) (shown : List FAT32DirectoryEntry) (st : Listing) :
    Prop where
  col : st.col ≤ perLine type
  row : ∃ m, st.rowAddNeeded = m + 1 ∧ st.rowShell = rowShell + UInt8.ofNat m ∧
    shown.length = m * perLine type + st.col
  texts : ∀ k (below : k < shown.length) (i : Fin 12),
    painted mfb st (field type rowShell k + i) = shownText type shown[k] i
  rest : ∀ index, (∀ k < shown.length, ∀ i < 12, index ≠ field type rowShell k + i) →
    painted mfb st index = mfb index ∨ painted mfb st index = 0

variable {mfb : Memory} {type : Nat} {rowShell : UInt8} {shown : List FAT32DirectoryEntry} {st : Listing}
  {e : FAT32DirectoryEntry}

theorem Painted.wrap (p : Painted mfb type rowShell shown st) :
    Painted mfb type rowShell shown (lsWrap type st) ∧ (lsWrap type st).col < perLine type := by
  obtain ⟨m, count, row, total⟩ := p.row
  have col := p.col
  have full : (st.col = 4 ∧ 3 ≤ type ∨ st.col = 5) ↔ st.col = perLine type := by
    unfold perLine at col ⊢
    by_cases wide : 3 ≤ type
    · rw [if_pos wide] at col ⊢
      omega
    · rw [if_neg wide] at col ⊢
      omega
  have some : 0 < perLine type := by
    unfold perLine
    split <;> decide
  unfold lsWrap
  split
  · rename_i wraps
    have last := full.mp wraps
    have next : st.rowShell + 1 = rowShell + UInt8.ofNat (m + 1) := by
      rw [row, UInt8.ofNat_add, ← UInt8.add_assoc]
      rfl
    have behind : shown.length = (m + 1) * perLine type + 0 := by
      rw [total, last, Nat.add_mul, Nat.one_mul, Nat.add_zero]
    exact ⟨⟨Nat.zero_le _, ⟨m + 1, congrArg (· + 1) count, next, behind⟩, p.texts, p.rest⟩, some⟩
  · rename_i fits
    exact ⟨p, Nat.lt_of_le_of_ne col fun last => fits (full.mpr last)⟩

/-- What is printed is in the field behind the names. -/
theorem Painted.print (p : Painted mfb type rowShell shown st) (fits : st.col < perLine type) {text : Bytes 12}
    (printer : lsPrinter type e = some (text, width type)) :
    (∀ i : Fin 12, painted mfb (lsPrint type st e) (field type rowShell shown.length + i) = text i) ∧
      ∀ index, (∀ i < 12, index ≠ field type rowShell shown.length + i) →
        painted mfb (lsPrint type st e) index = painted mfb st index := by
  obtain ⟨m, count, row, total⟩ := p.row
  have line : shown.length / perLine type = m := by
    rw [total, Nat.mul_comm, Nat.mul_add_div (Nat.zero_lt_of_lt fits), Nat.div_eq_of_lt fits, Nat.add_zero]
  have column : shown.length % perLine type = st.col := by
    rw [total, Nat.mul_add_mod_self_right, Nat.mod_eq_of_lt fits]
  have start : field type rowShell shown.length = st.rowShell.toNat * 80 + st.col * width type := by
    rw [field, fieldCol, line, column, row]
  have inside := fieldCol_inside type shown.length
  rw [fieldCol, column] at inside
  have cells (index : Nat) : painted mfb (lsPrint type st e) index =
      frameBuffer (painted mfb st) (putsLine (Memory.store (fun _ => 0) 0 text) st.rowShell.toNat
        (st.col * width type) 12) index := by
    simp only [painted, lsPrint, printer, List.flatMap_append, frameBuffer_append, List.flatMap_cons, List.flatMap_nil,
      List.append_nil, printLine]
  constructor
  · intro i
    rw [cells, frameBuffer_putsLine _ _ _ inside, start, if_pos (by omega), Nat.add_sub_cancel_left,
      Memory.store_inside (Nat.zero_le _) (by omega)]
    rfl
  · intro index outside
    rw [cells, frameBuffer_putsLine _ _ _ inside, if_neg]
    rintro ⟨lower, upper⟩
    exact outside (index - (st.rowShell.toNat * 80 + st.col * width type)) (by omega) (by omega)

/-- The print behind the names touches none of them. -/
theorem Painted.kept (p : Painted mfb type rowShell shown st) (short : shown.length < 63)
    (elsewhere : ∀ index, (∀ i < 12, index ≠ field type rowShell shown.length + i) →
      painted mfb (lsPrint type st e) index = painted mfb st index) {k : Nat} (below : k < shown.length) (i : Fin 12) :
    painted mfb (lsPrint type st e) (field type rowShell k + i) = shownText type shown[k] i := by
  rw [elsewhere _ fun j shortJ => field_apart (Nat.ne_of_lt below) (by omega) (by omega) i.isLt shortJ]
  exact p.texts k below i

/-- The printed text of a selected entry becomes the last name. -/
theorem Painted.select (p : Painted mfb type rowShell shown st) (fits : st.col < perLine type)
    (short : shown.length < 63) (printer : lsPrinter type e = some (shownText type e, width type)) :
    Painted mfb type rowShell (shown ++ [e]) { lsPrint type st e with col := st.col + 1 } := by
  obtain ⟨here, elsewhere⟩ := p.print fits printer
  obtain ⟨m, count, row, total⟩ := p.row
  have printed : lsPrint type st e = { st with prints := (lsPrint type st e).prints } := by rw [lsPrint, printer]
  refine ⟨fits, ⟨m, ?_, ?_, ?_⟩, ?_, ?_⟩
  · rw [printed]
    exact count
  · rw [printed]
    exact row
  · rw [List.length_append, total]
    rfl
  · intro k below i
    by_cases earlier : k < shown.length
    · rw [List.getElem_append_left earlier]
      exact p.kept short elsewhere earlier i
    · obtain rfl : k = shown.length := by
        rw [List.length_append, List.length_singleton] at below
        omega
      rw [List.getElem_concat_length rfl]
      exact here i
  · intro index outside
    rw [List.length_append, List.length_singleton] at outside
    have untouched := elsewhere index (outside shown.length (Nat.lt_succ_self _))
    have before := p.rest index fun k below => outside k (Nat.lt_succ_of_lt below)
    rwa [← untouched] at before

/-- A blank is behind the names, where the next name goes. -/
theorem Painted.skip (p : Painted mfb type rowShell shown st) (fits : st.col < perLine type)
    (short : shown.length < 63) (printer : lsPrinter type e = some (fun _ => 0, width type)) :
    Painted mfb type rowShell shown (lsPrint type st e) := by
  obtain ⟨here, elsewhere⟩ := p.print fits printer
  have printed : lsPrint type st e = { st with prints := (lsPrint type st e).prints } := by rw [lsPrint, printer]
  refine ⟨?_, ?_, fun k below => p.kept short elsewhere below, ?_⟩
  · rw [printed]
    exact p.col
  · rw [printed]
    exact p.row
  · intro index outside
    by_cases blank : ∃ i : Fin 12, index = field type rowShell shown.length + i
    · obtain ⟨i, rfl⟩ := blank
      exact .inr (here i)
    · have untouched := elsewhere index fun i short same => blank ⟨⟨i, short⟩, same⟩
      have before := p.rest index outside
      rwa [← untouched] at before

/-- The step of the loop. -/
theorem Painted.entry (p : Painted mfb type rowShell shown st) (five : type ≤ 4) (short : shown.length < 63)
    (e : FAT32DirectoryEntry) :
    Painted mfb type rowShell (shown ++ [e].filter (Selects type ·)) (lsEntry type st e) := by
  unfold lsEntry
  split
  · rename_i live
    obtain ⟨wrapped, fits⟩ := p.wrap
    have printer := lsPrinter_eq five e
    dsimp only
    by_cases selects : Selects type e
    · have counts := (lsCounts_iff five live).mpr selects
      have next : [e].filter (Selects type ·) = [e] := by simp [selects]
      rw [if_pos counts] at printer ⊢
      rw [next]
      have col : (lsPrint type (lsWrap type st) e).col = (lsWrap type st).col := by rw [lsPrint, printer]
      rw [col]
      exact wrapped.select fits short printer
    · have idle : lsCounts type e ≠ true := fun counts => selects ((lsCounts_iff five live).mp counts)
      have none : [e].filter (Selects type ·) = [] := by simp [selects]
      rw [if_neg idle] at printer ⊢
      rw [none, List.append_nil]
      exact wrapped.skip fits short printer
  · rename_i free
    have idle : ¬ Selects type e := fun selects => free selects.1
    simpa [idle] using p

theorem Painted.entries (p : Painted mfb type rowShell shown st) (five : type ≤ 4) (entries : List FAT32DirectoryEntry)
    (short : shown.length + entries.length ≤ 63) :
    Painted mfb type rowShell (shown ++ entries.filter (Selects type ·)) (entries.foldl (lsEntry type) st) := by
  induction entries generalizing shown st with
  | nil => simpa using p
  | cons e entries ih =>
    rw [List.length_cons] at short
    have one := List.length_filter_le (Selects type ·) [e]
    have step := p.entry five (by omega) e
    have run := ih step (by
      rw [List.length_append]
      exact Nat.le_trans (Nat.add_le_add_right (Nat.add_le_add_left one _) _) (by simp; omega))
    rw [List.append_assoc, ← List.filter_append] at run
    exact run

/-- The loop over the slots behind the first. -/
def lsLoop (table : FAT32DirectoryTable) (type : Nat) (rowShell : UInt8) : Listing :=
  ((List.finRange 64).tail.map table).foldl (lsEntry type) ⟨0, rowShell, 1, []⟩

theorem commandCallLs_eq (table : FAT32DirectoryTable) (type : Nat) (rowShell : UInt8) :
    commandCallLs table type rowShell =
      { lsLoop table type rowShell with rowShell := (lsLoop table type rowShell).rowShell + 1 } := by
  rw [lsLoop, List.foldl_map]
  rfl

theorem lsLoop_painted (mfb : Memory) (table : FAT32DirectoryTable) (five : type ≤ 4) (rowShell : UInt8) :
    Painted mfb type rowShell (selected table type) (lsLoop table type rowShell) := by
  have start : Painted mfb type rowShell [] ⟨0, rowShell, 1, []⟩ :=
    ⟨Nat.zero_le _, ⟨0, rfl, (UInt8.add_zero _).symm, by simp⟩, fun _ below => absurd below (Nat.not_lt_zero _),
      fun _ _ => .inl rfl⟩
  exact start.entries five ((List.finRange 64).tail.map table) (by simp)

/-! ## ls -/

/-- The entries stand one behind the other in fields of their own; the rest of the frame buffer is as it was
    before, or blank. -/
structure ListingShown (type : Nat) (rowShell : UInt8) (entries : List FAT32DirectoryEntry) (before after : Memory) :
    Prop where
  names : ∀ k (below : k < entries.length) (i : Fin 8), after (field type rowShell k + i) = entries[k].name i
  texts : ∀ k (below : k < entries.length) (i : Fin 12),
    after (field type rowShell k + i) = shownText type entries[k] i
  inside : ∀ k < entries.length, fieldCol type k + 12 ≤ 80
  apart : ∀ k < entries.length, ∀ l < entries.length, k ≠ l →
    ∀ i < 12, ∀ j < 12, field type rowShell k + i ≠ field type rowShell l + j
  order : ∀ k l, k < l → l < entries.length →
    k / perLine type < l / perLine type ∨ k / perLine type = l / perLine type ∧ fieldCol type k < fieldCol type l
  rest : ∀ index, (∀ k < entries.length, ∀ i < 12, index ≠ field type rowShell k + i) →
    after index = before index ∨ after index = 0

theorem selected_length (table : FAT32DirectoryTable) (type : Nat) : (selected table type).length ≤ 63 := by
  have all := List.length_filter_le (Selects type ·) ((List.finRange 64).tail.map table)
  simpa [selected] using all

/-- A later field is in a later line, or behind in the same line. -/
theorem field_order {k l : Nat} (later : k < l) :
    k / perLine type < l / perLine type ∨ k / perLine type = l / perLine type ∧ fieldCol type k < fieldCol type l := by
  rcases Nat.lt_or_eq_of_le (Nat.div_le_div_right (c := perLine type) (Nat.le_of_lt later)) with line | line
  · exact .inl line
  · have behind : k % perLine type < l % perLine type := by
      have first := Nat.div_add_mod k (perLine type)
      have second := Nat.div_add_mod l (perLine type)
      rw [line] at first
      omega
    have wide : 0 < width type := by
      unfold width
      split <;> decide
    exact .inr ⟨line, Nat.mul_lt_mul_of_pos_right behind wide⟩

/-- `ls` shows the selected entries, and moves both rows on by the lines that it has used. -/
theorem showListing_shown (mfb : Memory) (t : Terminal) (table : FAT32DirectoryTable) (five : type ≤ 4)
    (rowShell : UInt8) :
    ListingShown type rowShell (selected table type) (frameBuffer mfb t.screen)
        (frameBuffer mfb (showListing t table type rowShell).1.screen) ∧
      ∃ rows ≤ 16, (showListing t table type rowShell).2 = rowShell + UInt8.ofNat rows ∧
        (showListing t table type rowShell).1.keyboard.cursor.row = t.keyboard.cursor.row + rows ∧
        ∀ k < (selected table type).length, k / perLine type < rows := by
  have p := lsLoop_painted (frameBuffer mfb t.screen) table five rowShell
  have small := selected_length table type
  have drawn : frameBuffer mfb (showListing t table type rowShell).1.screen =
      painted (frameBuffer mfb t.screen) (lsLoop table type rowShell) := by
    rw [showListing, commandCallLs_eq]
    exact frameBuffer_append _ _ _
  constructor
  · rw [drawn]
    refine ⟨?_, p.texts, fun k _ => fieldCol_inside type k, ?_, fun k l later _ => field_order later, p.rest⟩
    · intro k below i
      rw [← shownText_name type]
      exact p.texts k below (i.castLE (by decide))
    · intro k belowK l belowL distinct i shortI j shortJ
      exact field_apart distinct (by omega) (by omega) shortI shortJ
  · obtain ⟨m, count, row, total⟩ := p.row
    have col := p.col
    have four : 4 ≤ perLine type := by
      unfold perLine
      split <;> decide
    have used : m * 4 ≤ m * perLine type := Nat.mul_le_mul_left m four
    refine ⟨m + 1, by omega, ?_, ?_, ?_⟩
    · rw [showListing, commandCallLs_eq, UInt8.ofNat_add, ← UInt8.add_assoc, ← row]
      rfl
    · rw [showListing, commandCallLs_eq, ← count]
      rfl
    · intro k below
      rw [Nat.div_lt_iff_lt_mul (by omega), Nat.add_mul]
      omega

/-! ## The last row of the screen -/

/-- The selected entries are shown one behind the other in fields of the screen, nothing else is, and both rows move
    on by the same number. -/
structure ListingVisible (mfb : Memory) (t : Terminal) (table : FAT32DirectoryTable) (type : Nat) (rowShell : UInt8) :
    Prop where
  shown : ListingShown type rowShell (selected table type) (frameBuffer mfb t.screen)
    (frameBuffer mfb (showListing t table type rowShell).1.screen)
  onScreen : ∀ k < (selected table type).length, ∀ i < 12, field type rowShell k + i < 25 * 80
  rows : ∃ rows, (showListing t table type rowShell).2 = rowShell + UInt8.ofNat rows ∧
    (showListing t table type rowShell).1.keyboard.cursor.row = t.keyboard.cursor.row + rows

theorem field_onScreen_iff {k : Nat} :
    (∀ i < 12, field type rowShell k + i < 25 * 80) ↔ (rowShell + UInt8.ofNat (k / perLine type)).toNat < 25 := by
  have inside := fieldCol_inside type k
  unfold field
  constructor
  · intro onScreen
    have first := onScreen 0 (by decide)
    omega
  · intro row i short
    omega

/-- The row of a line, as long as the counter does not wrap around. -/
theorem row_toNat {m : Nat} (small : rowShell.toNat + m < 256) :
    (rowShell + UInt8.ofNat m).toNat = rowShell.toNat + m := by
  rw [UInt8.toNat_add, UInt8.toNat_ofNat']
  omega

/-- The names are in rows of the screen exactly if the last line is: the lines follow one another, so the first one
    that is not comes right behind the last row. -/
theorem fields_onScreen_iff {n : Nat} (small : n ≤ 63) :
    (∀ k < n, (rowShell + UInt8.ofNat (k / perLine type)).toNat < 25) ↔
      n = 0 ∨ rowShell.toNat + (n - 1) / perLine type < 25 := by
  have positive : 0 < perLine type := by
    unfold perLine
    split <;> decide
  constructor
  · intro rows
    by_contra outside
    obtain ⟨some, behind⟩ := not_or.mp outside
    have first := rows 0 (by omega)
    have byte := rowShell.toNat_lt
    rw [Nat.zero_div, row_toNat (by omega), Nat.add_zero] at first
    -- the first field of the line in row 25
    have early : (25 - rowShell.toNat) * perLine type ≤ n - 1 := (Nat.le_div_iff_mul_le positive).mp (by omega)
    have row := rows ((25 - rowShell.toNat) * perLine type) (by omega)
    rw [Nat.mul_div_cancel _ positive, row_toNat (by omega)] at row
    omega
  · rintro (rfl | fits) k below
    · omega
    · have line : k / perLine type ≤ (n - 1) / perLine type := Nat.div_le_div_right (by omega)
      rw [row_toNat (by omega)]
      omega

/-- `ls` shows the selected entries, and moves both rows on alike, exactly if nothing is selected or the last line that
    the names take is a row of the screen. -/
theorem showListing_visible_iff (mfb : Memory) (t : Terminal) (table : FAT32DirectoryTable) (five : type ≤ 4)
    (rowShell : UInt8) : ListingVisible mfb t table type rowShell ↔
      (selected table type).length = 0 ∨ rowShell.toNat + ((selected table type).length - 1) / perLine type < 25 := by
  rw [← fields_onScreen_iff (selected_length table type)]
  simp only [← field_onScreen_iff]
  constructor
  · exact fun visible => visible.onScreen
  · intro onScreen
    obtain ⟨shown, rows, _, shell, driver, _⟩ := showListing_shown mfb t table five rowShell
    exact ⟨shown, onScreen, rows, shell, driver⟩

/-- A file, and a folder behind it. -/
def mixedTable : FAT32DirectoryTable := fun i =>
  if i = 1 then { FAT32DirectoryEntry.zero with name := text ['a'], ext := text ['t'], userAttribute := uattrNotEmpty }
  else if i = 2 then { FAT32DirectoryEntry.zero with name := text ['d'], userAttribute := uattrNotEmpty }
  else .zero

theorem showListing_visible_iff_mixed : ListingVisible (fun _ => 0) freshSession.terminal mixedTable 1 4 := by
  have only : selected mixedTable 1 = [mixedTable 2] := rfl
  refine (showListing_visible_iff (fun _ => 0) freshSession.terminal mixedTable (show 1 ≤ 4 by decide) 4).mpr (.inr ?_)
  rw [only]
  decide

/-- The folders `a` to `f` in the slots behind the first. -/
def sixFolders : FAT32DirectoryTable := fun i =>
  if 1 ≤ i.val ∧ i.val ≤ 6 then
    { FAT32DirectoryEntry.zero with name := text [Char.ofNat (96 + i.val)], userAttribute := uattrNotEmpty }
  else .zero

/-- In the last row of the screen there is room for the names of five of them; the sixth goes to row 25. -/
theorem sixth_name_off_screen :
    (selected sixFolders 0).length = 6 ∧ field 0 24 5 = 25 * 80 ∧
      ¬ ListingVisible (fun _ => 0) freshSession.terminal sixFolders 0 24 := by
  have six : (selected sixFolders 0).length = 6 := by decide
  refine ⟨six, by decide, fun visible => ?_⟩
  have cell := visible.onScreen 5 (by omega) 0 (by decide)
  exact absurd cell (by decide)

end Brother420.Console
