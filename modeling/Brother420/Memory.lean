import Brother420.Library.Layout

/-! # Flat memory

Byte buffers reached through a pointer, and the comparison and copy routines of
`stdmem.c` on them.  A `Memory` holds the bytes at and above some address, so a
buffer argument of the program is the memory its pointer designates.
-/

namespace Brother420

open Packed (Bytes)

abbrev Memory := Nat → UInt8

namespace Memory

/-- The `n` bytes at `offset`. -/
def bytes (m : Memory) (offset n : Nat) : Bytes n := fun i => m (offset + i)

/-- `memcpy` of `n` bytes to `offset`. -/
def store {n : Nat} (m : Memory) (offset : Nat) (b : Bytes n) : Memory := fun a =>
  if h : offset ≤ a ∧ a < offset + n then b ⟨a - offset, by omega⟩ else m a

variable {n k : Nat} {m : Memory} {offset other : Nat}

@[simp] theorem bytes_store (b : Bytes n) : (m.store offset b).bytes offset n = b := by
  funext i
  have inside : offset ≤ offset + i.val ∧ offset + i.val < offset + n := by omega
  simp only [bytes, store, inside, and_self, ↓reduceDIte]
  congr 1
  apply Fin.ext
  simp

theorem store_inside {b : Bytes n} {a : Nat} (lower : offset ≤ a) (upper : a < offset + n) :
    m.store offset b a = b ⟨a - offset, by omega⟩ := by
  simp [store, lower, upper]

theorem store_outside {b : Bytes n} {a : Nat} (apart : a < offset ∨ offset + n ≤ a) :
    m.store offset b a = m a := by
  have outside : ¬ (offset ≤ a ∧ a < offset + n) := by omega
  simp [store, outside]

theorem bytes_store_apart {b : Bytes n} (apart : other + k ≤ offset ∨ offset + n ≤ other) :
    (m.store offset b).bytes other k = m.bytes other k := by
  funext i
  exact store_outside (by omega)

/-- Writing back what is already there changes nothing. -/
@[simp] theorem store_bytes : m.store offset (m.bytes offset n) = m := by
  funext a
  by_cases inside : offset ≤ a ∧ a < offset + n
  · rw [store_inside inside.1 inside.2, bytes, show offset + (a - offset) = a by omega]
  · exact store_outside (by omega)

/-- `memcpy` of `n` bytes from `source` in another memory. -/
def copy (m : Memory) (offset : Nat) (other : Memory) (source n : Nat) : Memory := m.store offset (other.bytes source n)

theorem copy_apply {source a : Nat} {other : Memory} :
    m.copy offset other source n a =
      if offset ≤ a ∧ a < offset + n then other (source + (a - offset)) else m a := by
  rw [copy]
  split
  · rename_i inside
    rw [store_inside inside.1 inside.2]
    rfl
  · rename_i outside
    exact store_outside (by omega)

/-- Two copies of neighbouring parts are one copy. -/
theorem copy_copy {source : Nat} {other : Memory} :
    (m.copy offset other source n).copy (offset + n) other (source + n) k = m.copy offset other source (n + k) := by
  funext a
  simp only [copy_apply]
  by_cases second : offset + n ≤ a ∧ a < offset + n + k
  · rw [if_pos second, if_pos (by omega), show source + n + (a - (offset + n)) = source + (a - offset) by omega]
  · rw [if_neg second]
    by_cases first : offset ≤ a ∧ a < offset + n
    · rw [if_pos first, if_pos (by omega)]
    · rw [if_neg first, if_neg (by omega)]

theorem copy_zero {source : Nat} {other : Memory} : m.copy offset other source 0 = m := by
  funext a
  rw [copy_apply, if_neg (by omega)]

end Memory

/-- A string literal, read as `n` bytes. -/
def text {n : Nat} (chars : List Char) : Bytes n := fun i => (chars.map Char.toUInt8).getD i.val 0

/-- `memcmp`: the sign of the first differing byte. -/
def memcmp : {n : Nat} → Bytes n → Bytes n → Int
  | 0, _, _ => 0
  | _ + 1, s1, s2 =>
    if s1 0 < s2 0 then -1
    else if s1 0 > s2 0 then 1
    else memcmp (Fin.tail s1) (Fin.tail s2)

theorem memcmp_eq_zero_iff {n : Nat} {s1 s2 : Bytes n} : memcmp s1 s2 = 0 ↔ s1 = s2 := by
  induction n with
  | zero => exact ⟨fun _ => Subsingleton.elim _ _, fun _ => rfl⟩
  | succ n ih =>
    -- the comparison looks at the first bytes and then at the rest
    have parts : s1 = s2 ↔ s1 0 = s2 0 ∧ Fin.tail s1 = Fin.tail s2 := by
      constructor
      · rintro rfl
        exact ⟨rfl, rfl⟩
      · rintro ⟨head, tail⟩
        rw [← Fin.cons_self_tail s1, ← Fin.cons_self_tail s2, head, tail]
    rw [parts, memcmp]
    split
    · rename_i below
      simp only [Int.reduceNeg, reduceCtorEq, false_iff, not_and]
      intro same
      exact absurd below (by simp [same])
    · split
      · rename_i above
        simp only [Int.reduceEq, false_iff, not_and]
        intro same
        exact absurd above (by simp [same])
      · rename_i notBelow notAbove
        have head : s1 0 = s2 0 :=
          UInt8.le_antisymm (by simpa using notAbove) (by simpa using notBelow)
        simp [ih, head]

end Brother420
