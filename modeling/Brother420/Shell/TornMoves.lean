import Brother420.Fat32.TornWrites
import Brother420.Shell.InterruptedMoves

/-! # Moves that stop inside a cluster

Each write of a sensible `mv` changes one entry of the table that is on the disk
then.  So no table is ever torn, whichever block is the last to be stored.
-/

namespace Brother420.Shell

open Packed (Bytes)
open Fat32 Volume
open Disk (Slotwise)

variable {s : ShellState} {a : PathShell} {d : Disk} {p q t c : Nat} {i m : Fin 64} {name newName newPath : Bytes 8}
  {ext newExt : Bytes 3} {size : UInt32} {path : Memory} {e : FAT32DirectoryEntry} {table : FAT32DirectoryTable}

theorem slotwise_tableWrite (inside : c < 2 ^ 26) (same : table = d.table c) :
    Slotwise d [tableWrite (Function.update table m e) c] := by
  subst same
  exact .cons inside rfl .nil

theorem slotwise_insertLog (inside : t < 2 ^ 26) : Slotwise d (insertLog (d.table t) t name ext size c) := by
  unfold insertLog
  cases findFree (d.table t) with
  | none => exact .nil
  | some o => exact slotwise_tableWrite inside rfl

/-- What is inserted into one table is not in another. -/
theorem table_insertLog (inside : t < 2 ^ 26) (other : q ≠ t) :
    (d.writeAll (insertLog table t name ext size c)).table q = d.table q := by
  unfold insertLog
  cases findFree table with
  | none => rfl
  | some o =>
    rw [Disk.writeAll_cons, Disk.writeAll_nil, writeCluster_tableWrite inside]
    exact Disk.table_setTable_of_ne other

section Sensible

variable (mirrors : Mirrors s a)
include mirrors

theorem Mirrors.slotwise_rename : Slotwise s.kernel.disk (mvRenameLog s name ext newName newExt) := by
  have wellFormed := mirrors.wellFormed
  obtain ⟨l, standing, _⟩ := mirrors.tracking
  unfold mvRenameLog
  rw [mirrors.readTable_eq]
  simp only
  cases found : findLive (s.kernel.disk.table s.currentDirectoryCluster) name ext with
  | none => exact .nil
  | some m =>
    obtain ⟨slot, _⟩ := mirrors.slot_of_found found
    have bound := wellFormed.volume.slot_range slot
    have other := wellFormed.volume.toSound.slot_cluster_ne slot
    rw [Disk.volume_table] at bound other
    simp only
    rw [Shell.readTable_eq (show (s.kernel.disk.table s.currentDirectoryCluster m).cluster < 2 ^ 26 by omega)]
    refine .cons standing.directory_lt rfl (slotwise_tableWrite (by omega) ?_)
    rw [writeCluster_tableWrite standing.directory_lt]
    exact (Disk.table_setTable_of_ne other).symm

theorem Mirrors.slotwise_parent (sensible : Mirrors.UpSensible s name ext) (selfLocation : Nat) :
    Slotwise s.kernel.disk (mvParentLog s name ext selfLocation) := by
  obtain ⟨m, found, live, fits⟩ := sensible
  obtain ⟨slot, _⟩ := mirrors.slot_of_entry found live
  obtain ⟨l, standing, _⟩ := mirrors.tracking
  obtain ⟨t, o, code, cds, goes, target, _⟩ := mirrors.up_target (fun u i edge => (fits u i edge).1) slot
  have range := mirrors.wellFormed.volume.toSound.directory_range target
  rw [mirrors.mvParentLog_up slot found selfLocation goes target]
  refine .cons standing.directory_lt rfl ?_
  rw [writeCluster_tableWrite standing.directory_lt]
  exact slotwise_insertLog (by omega)

theorem Mirrors.slotwise_folder : Slotwise s.kernel.disk (mvFolderLog s name ext newPath) := by
  have wellFormed := mirrors.wellFormed
  obtain ⟨l, standing, _⟩ := mirrors.tracking
  have inside := standing.directory_lt
  by_cases folder : ∃ i, Matches (s.kernel.disk.table s.currentDirectoryCluster) newPath i
  · obtain ⟨i, is⟩ := folder
    cases found : findEntry (s.kernel.disk.table s.currentDirectoryCluster) name ext with
    | none =>
      rw [mvFolderLog_missing inside (.inr found)]
      exact .nil
    | some m =>
      have target : s.kernel.disk.volume.Slot s.currentDirectoryCluster i := ⟨mirrors.directory, is.1, is.2.1⟩
      have bound := wellFormed.volume.slot_range target
      have below := wellFormed.volume.toSound.slot_cluster_ne target
      rw [Disk.volume_table] at bound below
      have only : ∀ j, Matches (s.kernel.disk.table s.currentDirectoryCluster) newPath j → j = i := by
        rintro j ⟨_, used, hit, hit'⟩
        exact wellFormed.volume.unique mirrors.directory used is.2.1 (hit.trans is.2.2.1.symm) (hit'.trans is.2.2.2.symm)
      rw [mvFolderLog_found inside (by omega) is only found]
      refine (slotwise_insertLog (by omega)).append (slotwise_tableWrite inside ?_)
      exact (table_insertLog (by omega) (Ne.symm below)).symm
  · rw [mvFolderLog_missing inside (.inl (not_exists.mp folder))]
    exact .nil

/-- A sensible `mv` that was stopped behind any of its blocks leaves a disk that it also leaves when it is stopped
    behind a whole write. -/
theorem torn_mv_whole (sensible : Mirrors.MvSensible s path) (selfLocation n : Nat) :
    ∃ m, n / 4 ≤ m ∧ m ≤ (n + 3) / 4 ∧ s.kernel.disk.torn (mvLog s path selfLocation) n =
      s.kernel.disk.writeAll ((mvLog s path selfLocation).take m) := by
  apply Slotwise.torn
  obtain ⟨name, ext, isFile, j, target, source, goal, fits⟩ := sensible
  simp only [mvLog, source, goal]
  cases target with
  | rename newName newExt => exact mirrors.slotwise_rename
  | folder newPath => exact mirrors.slotwise_folder
  | parent => exact mirrors.slotwise_parent fits selfLocation

end Sensible

/-- `mv d /..` in the root, stopped in the middle of its first write. -/
theorem torn_mv_whole_parent :
    ∃ (s : ShellState) (m : Nat), m ≤ 1 ∧ s.kernel.disk.torn (mvLog s (lineOf (MvLine.parent nameD).text) 0) 2 =
      s.kernel.disk.writeAll ((mvLog s (lineOf (MvLine.parent nameD).text) 0).take m) := by
  obtain ⟨k, a, mirrors, _, sensible, _⟩ := sensible_upD
  obtain ⟨m, _, upper, stopped⟩ := torn_mv_whole mirrors sensible 0 2
  exact ⟨startShell k, m, by omega, stopped⟩

end Brother420.Shell
