import Brother420.Library.Folds
import Brother420.Console.Keys

/-! # Editing a line

Backspace moves the index of the buffer back and leaves the character where it is,
and in column 0 it moves the position only.  So the buffer has the line that was
edited exactly if the driver never held more characters than that.
-/

namespace Brother420.Console

open Packed (Bytes)

/-! ## The line that is edited -/

def Key.edit (line : List UInt8) : Key → List UInt8
  | .printable scancode _ => line ++ [mappedChar scancode]
  | .backspace => line.dropLast

def editedLine (keys : List Key) : List UInt8 := keys.foldl Key.edit []

/-- The line with zeros behind it. -/
def padded (line : List UInt8) : Bytes 256 := fun i => line.getD i 0

/-- The run of the interrupt on the presses and releases, and on Enter, ends with the edited line in the buffer. -/
def HandsOut (t : Terminal) (events : List (KeyEvent × Nat)) (n : Nat) (reads : List UInt8) : Prop :=
  ∃ t' rest, keyboardIsr t (portReads false events n ++ reads) = some (t', rest) ∧
    t'.keyboard.getKeyboardBuffer = padded (editedLine (presses events))

/-! ## The characters that are held -/

/-- The position, and the number of characters before it that are held. -/
structure Held where
  cursor : Cursor
  count : Nat

/-- A Backspace in column 0 gives up no character. -/
def Held.strike (h : Held) : Key → Option Held
  | .printable _ _ => h.cursor.advance.map (⟨·, h.count + 1⟩)
  | .backspace =>
    if h.count = 0 then some h
    else if h.cursor.col ≠ 0 then h.cursor.back.map (⟨·, h.count - 1⟩)
    else h.cursor.up.map (⟨·, h.count⟩)

/-- No more than `bound` characters are held at any time while the keys are pressed. -/
def Within (bound : Nat) (h : Held) : List Key → Prop
  | [] => h.count ≤ bound
  | key :: keys => h.count ≤ bound ∧ ∃ h', h.strike key = some h' ∧ Within bound h' keys

variable {k k' : KeyboardDriver} {h h' : Held} {key : Key} {keys : List Key} {line : List UInt8} {bound : Nat}

theorem Within.count_le (within : Within bound h keys) : h.count ≤ bound := by
  cases keys with
  | nil => exact within
  | cons key keys => exact within.1

/-- The driver is at this position, and its index is the number. -/
structure Tracks (k : KeyboardDriver) (h : Held) : Prop where
  cursor : k.cursor = h.cursor
  index : k.bufferIndex.toNat = h.count

/-- A key that is pressed with room in the buffer. -/
theorem Tracks.strike (tracks : Tracks k h) (room : h.count < 255 ∨ key = .backspace) :
    k.strike key = none ∧ h.strike key = none ∨
      ∃ k' h', k.strike key = some k' ∧ h.strike key = some h' ∧ Tracks k' h' := by
  cases key with
  | printable scancode printable =>
    have room : h.count < 255 := room.resolve_right (by simp)
    simp only [KeyboardDriver.strike, KeyboardDriver.insert, Held.strike, tracks.cursor]
    cases moved : h.cursor.advance with
    | none => exact .inl ⟨rfl, rfl⟩
    | some cursor =>
      refine .inr ⟨_, _, rfl, rfl, rfl, ?_⟩
      change (k.bufferIndex + 1).toNat = h.count + 1
      rw [UInt8.toNat_add, tracks.index]
      exact Nat.mod_eq_of_lt (by simp; omega)
  | backspace =>
    have empty : k.bufferIndex = 0 ↔ h.count = 0 := by
      rw [← tracks.index, ← UInt8.toNat_inj]
      rfl
    simp only [KeyboardDriver.strike, KeyboardDriver.backspace, KeyboardDriver.erase, Held.strike, tracks.cursor,
      empty]
    split
    · exact .inr ⟨_, _, rfl, rfl, tracks⟩
    · rename_i notEmpty
      split
      · cases moved : h.cursor.back with
        | none => exact .inl ⟨rfl, rfl⟩
        | some cursor =>
          refine .inr ⟨_, _, rfl, rfl, rfl, ?_⟩
          change (k.bufferIndex - 1).toNat = h.count - 1
          have one : (1 : UInt8) ≤ k.bufferIndex := by
            rw [UInt8.le_iff_toNat_le, tracks.index]
            exact Nat.one_le_iff_ne_zero.mpr notEmpty
          rw [UInt8.toNat_sub_of_le _ _ one, tracks.index]
          rfl
      · cases moved : h.cursor.up with
        | none => exact .inl ⟨rfl, rfl⟩
        | some cursor => exact .inr ⟨_, _, rfl, rfl, rfl, tracks.index⟩

theorem Held.count_printable {scancode : UInt8} {printable : Printable scancode}
    (struck : h.strike (.printable scancode printable) = some h') : h'.count = h.count + 1 := by
  simp only [strike] at struck
  obtain ⟨cursor, _, rfl⟩ := Option.map_eq_some_iff.mp struck
  rfl

theorem Held.count_backspace (struck : h.strike .backspace = some h') :
    h'.count = h.count - 1 ∨ h'.count = h.count ∧ h.count ≠ 0 := by
  simp only [strike] at struck
  split at struck
  · rename_i empty
    cases struck
    exact .inl (by omega)
  · rename_i notEmpty
    split at struck
    · obtain ⟨cursor, _, rfl⟩ := Option.map_eq_some_iff.mp struck
      exact .inl rfl
    · obtain ⟨cursor, _, rfl⟩ := Option.map_eq_some_iff.mp struck
      exact .inr ⟨rfl, notEmpty⟩

namespace KeyboardDriver

theorem keyboardBuffer_insert {char : UInt8} (inserted : k.insert char = some k') :
    k'.keyboardBuffer = Function.update k.keyboardBuffer k.bufferIndex.toFin char := by
  obtain ⟨cursor, _, rfl⟩ := insert_cases inserted
  rfl

theorem keyboardBuffer_backspace (pressed : k.backspace = some k') : k'.keyboardBuffer = k.keyboardBuffer := by
  rcases backspace_cases pressed with ⟨_, rfl⟩ | ⟨_, _, erased⟩ | ⟨_, _, cursor, _, rfl⟩
  · rfl
  · obtain ⟨cursor, _, rfl⟩ := erase_cases erased
    rfl
  · rfl

/-- No key makes a cell zero that is not. -/
theorem strike_ne_zero {i : Fin 256} (struck : k.strike key = some k') (there : k.keyboardBuffer i ≠ 0) :
    k'.keyboardBuffer i ≠ 0 := by
  cases key with
  | printable scancode printable =>
    rw [keyboardBuffer_insert struck, Function.update_apply]
    split
    · exact printable.mappedChar_ne.2.2
    · exact there
  | backspace =>
    rw [keyboardBuffer_backspace struck]
    exact there

end KeyboardDriver

/-! ## When the line is handed out -/

/-- The buffer behind `bound` is empty, and where no more characters are held than the line has, they are
    the line. -/
structure Synced (bound : Nat) (line : List UInt8) (k : KeyboardDriver) (h : Held) : Prop extends Tracks k h where
  length : line.length ≤ h.count
  same : line.length = h.count → ∀ i : Fin 256, i.val < h.count → k.keyboardBuffer i = line.getD i 0
  rest : ∀ i : Fin 256, bound ≤ i.val → k.keyboardBuffer i = 0

theorem Synced.printable {scancode : UInt8} {printable : Printable scancode} (synced : Synced bound line k h)
    (struck : k.strike (.printable scancode printable) = some k') (tracks : Tracks k' h')
    (count : h'.count = h.count + 1) (fits : h'.count ≤ bound) :
    Synced bound (line ++ [mappedChar scancode]) k' h' := by
  have buffer := KeyboardDriver.keyboardBuffer_insert struck
  have place : k.bufferIndex.toFin.val = h.count := synced.index
  have length := synced.length
  refine { tracks with length := ?_, same := ?_, rest := ?_ }
  · rw [List.length_append, List.length_singleton]
    omega
  · intro equal i below
    rw [List.length_append, List.length_singleton] at equal
    rw [buffer, Function.update_apply]
    split
    · rename_i here
      rw [here, place, List.getD_eq_getElem?_getD, List.getElem?_append_right (by omega),
        show h.count - line.length = 0 by omega]
      rfl
    · rename_i other
      have apart : i.val ≠ h.count := fun same => other (Fin.ext (same.trans place.symm))
      rw [synced.same (by omega) i (by omega), List.getD_eq_getElem?_getD, List.getD_eq_getElem?_getD,
        List.getElem?_append_left (by omega)]
  · intro i above
    have other : i ≠ k.bufferIndex.toFin := by
      intro same
      have value := congrArg Fin.val same
      omega
    rw [buffer, Function.update_of_ne other]
    exact synced.rest i above

theorem Synced.backspace (synced : Synced bound line k h) (struck : k.strike .backspace = some k')
    (tracks : Tracks k' h') (count : h'.count = h.count - 1 ∨ h'.count = h.count ∧ h.count ≠ 0) :
    Synced bound line.dropLast k' h' := by
  have buffer := KeyboardDriver.keyboardBuffer_backspace struck
  have length := synced.length
  refine { tracks with length := ?_, same := ?_, rest := ?_ }
  · rw [List.length_dropLast]
    omega
  · -- a character that column 0 kept is one more than the line has
    intro equal i below
    rw [List.length_dropLast] at equal
    rw [buffer, synced.same (by omega) i (by omega), List.getD_eq_getElem?_getD, List.getD_eq_getElem?_getD,
      List.getElem?_dropLast, if_pos (by omega)]
  · intro i above
    rw [buffer]
    exact synced.rest i above

theorem Synced.strike (synced : Synced bound line k h) (struck : k.strike key = some k')
    (struck' : h.strike key = some h') (tracks : Tracks k' h') (fits : h'.count ≤ bound) :
    Synced bound (key.edit line) k' h' := by
  cases key with
  | printable _ _ => exact synced.printable struck tracks (Held.count_printable struck') fits
  | backspace => exact synced.backspace struck tracks (Held.count_backspace struck')

/-- Induction on the keys. -/
theorem Synced.of_within (synced : Synced bound line k h) (within : Within bound h keys) (small : bound ≤ 255) :
    ∃ k' h', keys.foldlM KeyboardDriver.strike k = some k' ∧ h'.count ≤ bound ∧
      Synced bound (keys.foldl Key.edit line) k' h' := by
  induction keys generalizing line k h with
  | nil => exact ⟨k, h, rfl, within, synced⟩
  | cons key keys ih =>
    obtain ⟨_, h₁, struck', rest⟩ := within
    have fits := rest.count_le
    have room : h.count < 255 ∨ key = .backspace := by
      cases key with
      | printable _ _ =>
        have count := Held.count_printable struck'
        exact .inl (by omega)
      | backspace => exact .inr rfl
    rcases synced.toTracks.strike room with ⟨_, failed⟩ | ⟨k₁, h₂, struck, same, tracks⟩
    · rw [struck'] at failed
      cases failed
    · obtain rfl := Option.some.inj (struck'.symm.trans same)
      obtain ⟨k', h', run, last, synced'⟩ := ih (synced.strike struck struck' tracks fits) rest
      refine ⟨k', h', ?_, last, synced'⟩
      rw [List.foldlM_cons, struck]
      exact run

/-- A character that is one too many stays in the buffer. -/
theorem Tracks.within (tracks : Tracks k h) (fits : h.count ≤ bound) (small : bound ≤ 255)
    (run : keys.foldlM KeyboardDriver.strike k = some k') (empty : k'.keyboardBuffer ⟨bound, by omega⟩ = 0) :
    Within bound h keys := by
  induction keys generalizing k h with
  | nil => exact fits
  | cons key keys ih =>
    rw [List.foldlM_cons] at run
    obtain ⟨k₁, struck, run₁⟩ := Option.bind_eq_some_iff.mp run
    by_cases full : h.count = bound ∧ key ≠ .backspace
    · obtain ⟨here, notBackspace⟩ := full
      cases key with
      | backspace => exact absurd rfl notBackspace
      | printable scancode printable =>
        exfalso
        have place : k.bufferIndex.toFin = (⟨bound, by omega⟩ : Fin 256) := Fin.ext (tracks.index.trans here)
        have there : k₁.keyboardBuffer ⟨bound, by omega⟩ ≠ 0 := by
          rw [KeyboardDriver.keyboardBuffer_insert struck, place, Function.update_self]
          exact printable.mappedChar_ne.2.2
        exact Folds.foldlM_invariant (·.keyboardBuffer ⟨bound, by omega⟩ ≠ 0)
          (fun _ _ _ _ before struck => KeyboardDriver.strike_ne_zero struck before) there run₁ empty
    · have room : h.count < 255 ∨ key = .backspace := by
        rw [not_and_or, not_not] at full
        exact full.imp (fun _ => by omega) id
      rcases tracks.strike room with ⟨failed, _⟩ | ⟨k₂, h₁, same, struck', tracks'⟩
      · rw [struck] at failed
        cases failed
      · obtain rfl := Option.some.inj (struck.symm.trans same)
        have fits₁ : h₁.count ≤ bound := by
          cases key with
          | printable _ _ =>
            have count := Held.count_printable struck'
            have notFull : h.count ≠ bound := fun here => full ⟨here, by simp⟩
            omega
          | backspace =>
            have count := Held.count_backspace struck'
            omega
        exact ⟨fits, h₁, struck', ih tracks' fits₁ run₁ empty⟩

variable {t : Terminal} {events : List (KeyEvent × Nat)} {n : Nat} {reads : List UInt8}

theorem handsOut_iff_strike (on : t.keyboard.keyboardInputOn = true)
    (follows : List.IsChain Follows (events.map Prod.fst)) :
    HandsOut t events n reads ↔
      ∃ k', (presses events).foldlM KeyboardDriver.strike t.keyboard.resetIndex = some k' ∧
        k'.keyboardBuffer = padded (editedLine (presses events)) := by
  have run := keyboardIsr_events on follows n reads
  constructor
  · rintro ⟨t', rest, result, buffer⟩
    rw [result] at run
    obtain ⟨k', struck, entered⟩ := Option.map_eq_some_iff.mp run.symm
    refine ⟨k', struck, ?_⟩
    have keyboard : k'.enter = t'.keyboard := entered
    rw [← buffer, KeyboardDriver.getKeyboardBuffer, ← keyboard]
    rfl
  · rintro ⟨k', struck, buffer⟩
    rw [struck] at run
    obtain ⟨⟨t', rest⟩, result, entered⟩ := Option.map_eq_some_iff.mp run
    refine ⟨t', rest, result, ?_⟩
    have keyboard : t'.keyboard = k'.enter := entered
    rw [KeyboardDriver.getKeyboardBuffer, keyboard, ← buffer]
    rfl

/-- The buffer has the edited line exactly if the driver never held more characters than it has. -/
theorem handsOut_iff (on : t.keyboard.keyboardInputOn = true) (cleared : t.keyboard.keyboardBuffer = fun _ => 0)
    (follows : List.IsChain Follows (events.map Prod.fst)) (short : (editedLine (presses events)).length ≤ 255) :
    HandsOut t events n reads ↔
      Within (editedLine (presses events)).length ⟨t.keyboard.cursor, 0⟩ (presses events) := by
  rw [handsOut_iff_strike on follows]
  constructor
  · rintro ⟨k', struck, buffer⟩
    have tracks : Tracks t.keyboard.resetIndex ⟨t.keyboard.cursor, 0⟩ := ⟨rfl, rfl⟩
    refine tracks.within (Nat.zero_le _) short struck ?_
    rw [buffer, padded, List.getD_eq_getElem?_getD, List.getElem?_eq_none (Nat.le_refl _), Option.getD_none]
  · intro within
    have start : Synced (editedLine (presses events)).length [] t.keyboard.resetIndex ⟨t.keyboard.cursor, 0⟩ :=
      ⟨⟨rfl, rfl⟩, Nat.le_refl 0, fun _ i below => absurd below (Nat.not_lt_zero _), fun i _ => congrFun cleared i⟩
    obtain ⟨k', h', struck, last, synced⟩ := start.of_within within short
    have count : (editedLine (presses events)).length = h'.count := Nat.le_antisymm synced.length last
    refine ⟨k', struck, ?_⟩
    funext i
    by_cases inside : i.val < h'.count
    · exact synced.same count i inside
    · rw [synced.rest i (by omega), padded, List.getD_eq_getElem?_getD, List.getElem?_eq_none (by omega),
        Option.getD_none]

/-- The position behind the prompt of the root in the first row, with the input on. -/
def promptTerminal : Terminal := ⟨⟨true, 0, fun _ => 0, ⟨0, 14, fun _ => 0⟩⟩, []⟩

def keyA : Key := .printable 0x1E (by decide)

def keyB : Key := .printable 0x30 (by decide)

/-- Each key goes up before the next one goes down. -/
def stroke (key : Key) : List (KeyEvent × Nat) := [(.press key, 0), (.release key, 0)]

/-- A letter that is typed over what was erased. -/
theorem handsOut_iff_typed_over :
    HandsOut promptTerminal (stroke keyA ++ stroke .backspace ++ stroke keyB) 0 [] := by
  have follows : List.IsChain Follows
      ((stroke keyA ++ stroke .backspace ++ stroke keyB).map Prod.fst) := by
    simp [stroke, Follows]
  refine (handsOut_iff rfl rfl follows (by decide)).mpr ?_
  exact ⟨Nat.zero_le 1, _, rfl, Nat.le_refl 1, _, rfl, Nat.zero_le 1, _, rfl, Nat.le_refl 1⟩

/-- A letter that is erased, with nothing typed over it, is in the buffer of an empty line. -/
theorem erased_letter_stays :
    editedLine (presses (stroke keyA ++ stroke .backspace)) = [] ∧
      ¬ HandsOut promptTerminal (stroke keyA ++ stroke .backspace) 0 [] := by
  have follows : List.IsChain Follows ((stroke keyA ++ stroke .backspace).map Prod.fst) := by
    simp [stroke, Follows]
  refine ⟨rfl, ?_⟩
  rw [handsOut_iff_strike rfl follows]
  rintro ⟨k', struck, buffer⟩
  have letter : ((presses (stroke keyA ++ stroke .backspace)).foldlM KeyboardDriver.strike
      promptTerminal.keyboard.resetIndex).map (·.keyboardBuffer 0) = some 0x61 := by decide
  rw [struck, Option.map_some, buffer] at letter
  exact absurd letter (by decide)

end Brother420.Console
