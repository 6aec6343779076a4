import Mathlib.Algebra.Ring.Nat
import Mathlib.Data.Fintype.Basic
import Mathlib.Logic.Equiv.Fin.Basic
import Mathlib.Tactic.FinCases

/-! # Packed byte layouts

A packed layout identifies the values of a type with the byte strings of one
fixed length, with no padding and no unused pattern.  Layouts are closed under
pairing, arrays and change of type, so the layout of a C structure declared
`__attribute__((packed))` is assembled from the layouts of its members.
-/

namespace Packed

/-- A string of exactly `n` bytes. -/
abbrev Bytes (n : Nat) := Fin n → UInt8

/-- The values of `α` are exactly the strings of `n` bytes. -/
abbrev Layout (α : Type) (n : Nat) := α ≃ Bytes n

namespace Layout

variable {α β : Type} {m n : Nat}

def bytes (n : Nat) : Layout (Bytes n) n := Equiv.refl _

def byte : Layout UInt8 1 := (Equiv.funUnique (Fin 1) UInt8).symm

/-- Two members, the first at the lower addresses. -/
def pair (first : Layout α m) (second : Layout β n) : Layout (α × β) (m + n) :=
  (Equiv.prodCongr first second).trans (Fin.appendEquiv m n)

/-- An array of `k` elements, element `i` at offset `n * i`. -/
def array (k : Nat) (element : Layout α n) : Layout (Fin k → α) (k * n) :=
  (Equiv.arrowCongr (Equiv.refl _) element).trans
    ((Equiv.curry (Fin k) (Fin n) UInt8).symm.trans (Equiv.arrowCongr finProdFinEquiv (Equiv.refl _)))

/-- Byte `i` of a number stored little-endian. -/
def digit (value i : Nat) : UInt8 := UInt8.ofNat (value / 256 ^ i)

/-- A 16-bit word, least significant byte first. -/
def word16 : Layout UInt16 2 where
  toFun w i := digit w.toNat i
  invFun b := UInt16.ofNat ((b 0).toNat + 256 * (b 1).toNat)
  left_inv w := by
    apply UInt16.toNat_inj.mp
    have bound := w.toNat_lt
    simp [digit]
    omega
  right_inv b := by
    funext i
    apply UInt8.toNat_inj.mp
    have low := (b 0).toNat_lt
    have high := (b 1).toNat_lt
    fin_cases i
    · simp [digit]
    · simp [digit]
      omega

/-- A 32-bit word, least significant byte first. -/
def word32 : Layout UInt32 4 where
  toFun w i := digit w.toNat i
  invFun b := UInt32.ofNat ((b 0).toNat + 256 * (b 1).toNat + 65536 * (b 2).toNat + 16777216 * (b 3).toNat)
  left_inv w := by
    apply UInt32.toNat_inj.mp
    have bound := w.toNat_lt
    simp [digit]
    omega
  right_inv b := by
    funext i
    apply UInt8.toNat_inj.mp
    have b0 := (b 0).toNat_lt
    have b1 := (b 1).toNat_lt
    have b2 := (b 2).toNat_lt
    have b3 := (b 3).toNat_lt
    fin_cases i <;> simp [digit] <;> omega

theorem pair_left (first : Layout α m) (second : Layout β n) (v : α × β) (i : Fin m) :
    pair first second v (Fin.castAdd n i) = first v.1 i := Fin.append_left _ _ i

theorem pair_right (first : Layout α m) (second : Layout β n) (v : α × β) (i : Fin n) :
    pair first second v (Fin.natAdd m i) = second v.2 i := Fin.append_right _ _ i

theorem array_apply (k : Nat) (element : Layout α n) (f : Fin k → α) (i : Fin k) (j : Fin n) :
    array k element f (finProdFinEquiv (i, j)) = element (f i) j := by
  change element (f (finProdFinEquiv.symm (finProdFinEquiv (i, j))).1)
    (finProdFinEquiv.symm (finProdFinEquiv (i, j))).2 = _
  rw [Equiv.symm_apply_apply]

/-- Storing one element leaves the bytes of the others. -/
theorem array_update_other {k : Nat} (element : Layout α n) (f : Fin k → α) {i : Fin k} (v : α) {b : Fin (k * n)}
    (other : b.divNat ≠ i) : array k element (Function.update f i v) b = array k element f b := by
  change element (Function.update f i v b.divNat) b.modNat = _
  rw [Function.update_of_ne other]
  rfl

/-- An element is read from its own bytes. -/
theorem array_symm_apply (k : Nat) (element : Layout α n) (b : Bytes (k * n)) (i : Fin k) :
    (array k element).symm b i = element.symm fun j => b (finProdFinEquiv (i, j)) := rfl

/-- An element is new where its bytes are, and old where they are old. -/
theorem array_symm_ite {k : Nat} (element : Layout α n) {b old : Bytes (k * n)} {f : Fin k → α} {i : Fin k}
    (New : Prop) [Decidable New] (bytes : ∀ j, b (finProdFinEquiv (i, j)) =
      if New then array k element f (finProdFinEquiv (i, j)) else old (finProdFinEquiv (i, j))) :
    (array k element).symm b i = if New then f i else (array k element).symm old i := by
  rw [array_symm_apply, array_symm_apply]
  simp only [bytes]
  split
  · simp only [array_apply, Equiv.symm_apply_apply]
  · rfl

end Layout

end Packed
