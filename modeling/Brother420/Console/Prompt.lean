import Brother420.Console.Printing

/-! # The end of the prompt

`template` counts columns and characters in one variable of 8 bits, 10 apart.
-/

namespace Brother420.Console

variable {cwd : Int → UInt8} {rowShells tempCol : UInt8} {t t' : Terminal} {n k rounds : Nat}

/-- The path is a string of `n` characters. -/
structure EndsAt (cwd : Int → UInt8) (n : Nat) : Prop where
  stop : cwd n = 0
  before : ∀ j < n, cwd (j : Nat) ≠ 0

/-- The loop of `template` again: the indices of the characters that it draws, and of the last that it reads. -/
def templateReads (cwd : Int → UInt8) : (rounds : Nat) → UInt8 → Option (List Int × Int)
  | 0, _ => none
  | rounds + 1, tempCol =>
    let i : Int := tempCol.toNat - 10
    if cwd i = 0 then some ([], i)
    else do
      let (path, last) ← templateReads cwd rounds (tempCol + 1)
      some (i :: path, last)

theorem ofInt_natCast (m : Nat) : UInt8.ofInt (m : Int) = UInt8.ofNat m := by
  apply UInt8.toNat_inj.mp
  rw [UInt8.ofInt, UInt8.toNat_ofNat', UInt8.toNat_ofNat']
  omega

theorem column_index (tempCol : UInt8) : UInt8.ofInt ((tempCol.toNat : Int) - 10 + 10) = tempCol := by
  rw [Int.sub_add_cancel, ofInt_natCast, UInt8.ofNat_toNat]

/-- What the loop draws, and where it ends, follows from what it reads. -/
theorem templatePath_reads (rounds : Nat) (tempCol : UInt8) :
    templatePath rowShells cwd rounds tempCol = (templateReads cwd rounds tempCol).map fun (path, last) =>
      (UInt8.ofInt (last + 10), path.map fun i => .write rowShells (UInt8.ofInt (i + 10)) (cwd i)) := by
  induction rounds generalizing tempCol with
  | zero => rfl
  | succ rounds ih =>
    rw [templatePath, templateReads]
    dsimp only
    split
    · rw [Option.map_some, column_index, List.map_nil]
    · rw [ih]
      cases templateReads cwd rounds (tempCol + 1) with
      | none => rfl
      | some reads =>
        simp only [Option.map_some, Option.bind_eq_bind, Option.bind_some, List.map_cons, column_index]

/-- The loop goes on through the path up to the column where its variable wraps around. -/
theorem templateReads_prefix (before : ∀ j < k, cwd (j : Nat) ≠ 0) (bound : k ≤ 246) (rounds : Nat) :
    templateReads cwd (rounds + k) 10 = (templateReads cwd rounds (UInt8.ofNat (10 + k))).map fun (path, last) =>
      ((List.range k).map (Nat.cast : Nat → Int) ++ path, last) := by
  induction k generalizing rounds with
  | zero => simp
  | succ k ih =>
    have index : ((UInt8.ofNat (10 + k)).toNat : Int) - 10 = (k : Nat) := by
      rw [UInt8.toNat_ofNat_of_lt' (show 10 + k < 256 by omega)]
      omega
    have next : UInt8.ofNat (10 + k) + 1 = UInt8.ofNat (10 + (k + 1)) := by
      rw [← Nat.add_assoc, UInt8.ofNat_add (10 + k) 1]
      rfl
    rw [show rounds + (k + 1) = rounds + 1 + k by omega, ih (fun j below => before j (by omega)) (by omega),
      templateReads, index, next]
    simp only [before k (Nat.lt_succ_self k), ↓reduceIte]
    cases templateReads cwd rounds (UInt8.ofNat (10 + (k + 1))) with
    | none => rfl
    | some reads => simp [List.range_succ]

/-- A path of up to 245 characters is read from its start to its NUL. -/
theorem templateReads_short (ends : EndsAt cwd n) (short : n ≤ 245) :
    templateReads cwd 256 10 = some ((List.range n).map Nat.cast, (n : Int)) := by
  have index : ((UInt8.ofNat (10 + n)).toNat : Int) - 10 = (n : Nat) := by
    rw [UInt8.toNat_ofNat_of_lt' (show 10 + n < 256 by omega)]
    omega
  rw [show 256 = 255 - n + 1 + n by omega, templateReads_prefix ends.before (by omega), templateReads, index, ends.stop]
  simp

/-- Behind character 245 of a longer path comes the byte ten places before its start. -/
theorem templateReads_long (ends : EndsAt cwd n) (long : 246 ≤ n) {path : List Int} {last : Int}
    (reads : templateReads cwd 256 10 = some (path, last)) : last = -10 ∨ -10 ∈ path := by
  rw [show 256 = 9 + 1 + 246 by rfl, templateReads_prefix (fun j below => ends.before j (by omega)) (by omega)] at reads
  have index : ((UInt8.ofNat (10 + 246)).toNat : Int) - 10 = -10 := by decide
  rw [templateReads, index] at reads
  dsimp only at reads
  split at reads
  · simp only [Option.map_some, Option.some.injEq, Prod.mk.injEq] at reads
    exact .inl reads.2.symm
  · cases rest : templateReads cwd 9 (UInt8.ofNat (10 + 246) + 1) with
    | none =>
      rw [rest] at reads
      cases reads
    | some behind =>
      simp only [rest, Option.bind_eq_bind, Option.bind_some, Option.map_some, Option.some.injEq,
        Prod.mk.injEq] at reads
      right
      rw [← reads.1]
      simp

/-! ## What the prompt leaves -/

/-- Each character up to the NUL is read once and in order.  The cursor and the column of the driver are then where
    the prompt ends: behind the blank that follows the last column that was written. -/
structure PromptEnds (t : Terminal) (rowShells : UInt8) (cwd : Int → UInt8) (n : Nat) : Prop where
  reads : templateReads cwd 256 10 = some ((List.range n).map Nat.cast, (n : Int))
  ends : ∃ t' drawn lastCol char cursorCol, template t rowShells cwd = some t' ∧
    t'.screen = t.screen ++ drawn ++ [.write rowShells lastCol char, .setCursor rowShells cursorCol] ∧
    cursorCol.toNat = lastCol.toNat + 2 ∧ t'.keyboard.cursor.col = cursorCol.toNat

/-- What a short path's prompt draws last, and the column that it hands to the driver. -/
theorem template_short (ends : EndsAt cwd n) (short : n ≤ 245) (t : Terminal) (rowShells : UInt8) :
    ∃ t' drawn char, template t rowShells cwd = some t' ∧
      t'.screen = t.screen ++ drawn ++
        [.write rowShells (UInt8.ofNat (12 + n)) char, .setCursor rowShells (UInt8.ofNat (14 + n))] ∧
      t'.keyboard = t.keyboard.setCol (UInt8.ofNat (14 + n)) := by
  have column (m : Nat) : UInt8.ofInt ((n : Int) + 10) + UInt8.ofNat m = UInt8.ofNat (10 + m + n) := by
    rw [show (n : Int) + 10 = ((10 + n : Nat) : Int) by omega, ofInt_natCast, ← UInt8.ofNat_add,
      Nat.add_right_comm 10 n m]
  have behind : UInt8.ofInt ((n : Int) + 10) + 4 = UInt8.ofNat (14 + n) := column 4
  have written : UInt8.ofInt ((n : Int) + 10) + 2 = UInt8.ofNat (12 + n) := column 2
  rw [template, templatePath_reads, templateReads_short ends short]
  dsimp only [Option.map_some, Option.bind_eq_bind, Option.bind_some]
  rw [behind, written]
  generalize puts _ 10 rowShells = name
  generalize ((List.range n).map (Nat.cast : Nat → Int)).map _ = path
  exact ⟨_, name ++ path ++ [.write rowShells (UInt8.ofInt (n + 10)) '/'.toUInt8,
    .write rowShells (UInt8.ofInt (n + 10) + 1) ':'.toUInt8], '$'.toUInt8, rfl, by simp [Terminal.draw], rfl⟩

/-- The prompt ends well behind a path of up to 65 characters.  Behind a longer one the cursor stands in a column that
    the driver does not have, until the columns wrap around behind a path of 244 or 245 characters. -/
theorem promptEnds_iff (ends : EndsAt cwd n) (t : Terminal) (rowShells : UInt8) :
    PromptEnds t rowShells cwd n ↔ n ≤ 65 ∨ n = 244 ∨ n = 245 := by
  rcases Nat.lt_or_ge 245 n with long | short
  · constructor
    · intro prompt
      rcases templateReads_long ends long prompt.reads with last | inside
      · omega
      · simp at inside
    · omega
  · obtain ⟨t', drawn, char, result, screen, keyboard⟩ := template_short ends short t rowShells
    have cursor : (UInt8.ofNat (14 + n)).toNat = (14 + n) % 256 := UInt8.toNat_ofNat'
    have last : (UInt8.ofNat (12 + n)).toNat = (12 + n) % 256 := UInt8.toNat_ofNat'
    have col : t'.keyboard.cursor.col = if 80 ≤ (14 + n) % 256 then (0 : Int) else ((14 + n) % 256 : Nat) := by
      rw [keyboard, ← cursor]
      simp only [KeyboardDriver.setCol, ge_iff_le, UInt8.le_iff_toNat_le]
      rfl
    constructor
    · rintro ⟨_, t'', drawn', lastCol, char', cursorCol, result', screen', behind, same⟩
      obtain rfl := Option.some.inj (result.symm.trans result')
      rw [screen] at screen'
      obtain ⟨_, tails⟩ := List.append_inj' screen' rfl
      cases tails
      rw [col, cursor] at same
      rw [cursor, last] at behind
      split at same <;> omega
    · intro bounds
      refine ⟨templateReads_short ends short, t', drawn, _, char, _, result, screen, ?_, ?_⟩
      · rw [cursor, last]
        omega
      · rw [col, cursor, if_neg (by omega)]

/-- The text is empty, and the prompt is written in row 0. -/
def emptyTerminal : Terminal := ⟨⟨false, 0, fun _ => 0, ⟨0, 0, fun _ => 0⟩⟩, []⟩

/-- The path of the root, which is empty. -/
theorem promptEnds_root : PromptEnds emptyTerminal 0 (fun _ => 0) 0 :=
  (promptEnds_iff ⟨rfl, fun _ below => absurd below (Nat.not_lt_zero _)⟩ emptyTerminal 0).mpr (.inl (Nat.zero_le _))

/-- A path of 246 characters, and some memory that is not zero before it. -/
def longPath : Int → UInt8 := fun i => if i < 246 then 'a'.toUInt8 else 0

theorem longPath_ends : EndsAt longPath 246 where
  stop := rfl
  before j below := by
    have inside : (j : Int) < 246 := by omega
    rw [longPath, if_pos inside]
    decide

/-- The loop runs on before the start of the path. -/
theorem not_promptEnds_longPath : EndsAt longPath 246 ∧ ¬ PromptEnds emptyTerminal 0 longPath 246 := by
  refine ⟨longPath_ends, fun prompt => ?_⟩
  rcases templateReads_long longPath_ends (Nat.le_refl _) prompt.reads with last | inside
  · cases last
  · simp at inside

end Brother420.Console
