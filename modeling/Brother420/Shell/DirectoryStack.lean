import Brother420.Shell.Commands

/-! # The stack of paths

`directorystack.c`.  An index outside the 256 elements is the result `none`.
-/

namespace Brother420.Shell

open Packed (Bytes)

/-- struct DIR_STACK -/
structure DirStack where
  stack : Fin 256 → Bytes 255
  top : Int

namespace DirStack

def initDirStack (stack : DirStack) : DirStack := { stack with top := -1 }

def pushDir (ds : DirStack) (path : Bytes 255) : Option DirStack :=
  let top := ds.top + 1
  if h : 0 ≤ top ∧ top < 256 then some ⟨Function.update ds.stack ⟨top.toNat, by omega⟩ path, top⟩ else none

def cell (ds : DirStack) (i : Nat) : Bytes 255 := if h : i < 256 then ds.stack ⟨i, h⟩ else fun _ => 0

/-- The paths up to the top, from the bottom. -/
def entries (ds : DirStack) : List (Bytes 255) := (List.range (ds.top + 1).toNat).map ds.cell

variable {ds ds' : DirStack} {path : Bytes 255}

theorem initDirStack_entries : ds.initDirStack.entries = [] := rfl

/-- A push puts one path on the others, as long as there is room. -/
theorem pushDir_entries (bottom : -1 ≤ ds.top) (room : ds.top < 255) (path : Bytes 255) :
    ∃ ds', ds.pushDir path = some ds' ∧ ds'.top = ds.top + 1 ∧ ds'.entries = ds.entries ++ [path] := by
  have range : 0 ≤ ds.top + 1 ∧ ds.top + 1 < 256 := by omega
  refine ⟨_, dif_pos range, rfl, ?_⟩
  rw [entries, entries, show (ds.top + 1 + 1).toNat = (ds.top + 1).toNat + 1 by omega, List.range_succ, List.map_append]
  congr 1
  · apply List.map_congr_left
    intro i member
    have below := List.mem_range.mp member
    have inside : i < 256 := by omega
    have apart : (⟨i, inside⟩ : Fin 256) ≠ ⟨(ds.top + 1).toNat, by omega⟩ := fun same => by
      have := Fin.mk.inj same
      omega
    simp only [cell, inside, ↓reduceDIte, Function.update_of_ne apart]
  · have inside : (ds.top + 1).toNat < 256 := by omega
    simp [cell, inside]

theorem pushDir_full (full : 255 ≤ ds.top) (path : Bytes 255) : ds.pushDir path = none :=
  dif_neg (by omega)

/-- A path that is found after a push was there before, or was pushed. -/
theorem mem_pushDir_entries (pushed : ds.pushDir path = some ds') {other : Bytes 255} (member : other ∈ ds'.entries) :
    other ∈ ds.entries ∨ other = path := by
  simp only [pushDir] at pushed
  split at pushed
  · rename_i range
    obtain rfl := Option.some.inj pushed
    obtain ⟨i, below, rfl⟩ := List.mem_map.mp member
    have bound : i < (ds.top + 1 + 1).toNat := List.mem_range.mp below
    have inside : i < 256 := by omega
    by_cases here : i = (ds.top + 1).toNat
    · right
      subst here
      simp [cell, inside]
    · left
      have apart : (⟨i, inside⟩ : Fin 256) ≠ ⟨(ds.top + 1).toNat, by omega⟩ := fun same => here (Fin.mk.inj same)
      refine List.mem_map.mpr ⟨i, List.mem_range.mpr (by omega), ?_⟩
      simp only [cell, inside, ↓reduceDIte, Function.update_of_ne apart]
  · cases pushed

end DirStack

end Brother420.Shell
