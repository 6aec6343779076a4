import Brother420.Library.Folds
import Brother420.Fat32.Moves
import Brother420.Shell.Lines
import Brother420.Shell.Navigation

/-! # Moving an entry

`mv` to `/..` clears the slot, goes up and fills the first free slot of the table
it finds there; `mv` into a folder fills first and clears then.  Neither asks
whether there is a free slot, and the folder may be the entry itself.
-/

namespace Brother420.Shell

open Packed (Bytes Layout)
open Runs (Run)
open Fat32 Kernel Volume

variable {k : Kernel} {s : ShellState} {d : Disk} {p q t c selfLocation : Nat} {m o i : Fin 64} {name : Bytes 8}
  {ext : Bytes 3} {size : UInt32} {l : List Nat}

/-! ## Clearing and filling a slot -/

theorem cleared_not_live (e : FAT32DirectoryEntry) : ¬ (cleared e).Live := by
  change ¬ (0 : UInt8) = uattrNotEmpty
  decide

theorem cluster_filled (e : FAT32DirectoryEntry) (inside : c < 512) :
    (filled e name ext size c).cluster = c := by
  have word : (filled e name ext size c).cluster = c % 2 ^ 16 :=
    FAT32DirectoryEntry.cluster_of_low rfl rfl
  omega

def clearedDisk (d : Disk) (p : Nat) (m : Fin 64) : Disk :=
  d.setTable p (Function.update (d.table p) m (cleared (d.table p m)))

def insertedDisk (d : Disk) (t : Nat) (name : Bytes 8) (ext : Bytes 3) (size : UInt32)
    (cluster : Nat) : Disk :=
  match findFree (d.table t) with
  | none => d
  | some o => d.setTable t (Function.update (d.table t) o (filled (d.table t o) name ext size cluster))

/-- The disk once the entry in slot `m` of directory `p` was taken out and put into table `t`, if that has room. -/
def movedDisk (d : Disk) (p : Nat) (m : Fin 64) (t : Nat) : Disk :=
  insertedDisk (clearedDisk d p m) t (d.table p m).name (d.table p m).ext (d.table p m).filesize (d.table p m).cluster

theorem insertEntry_eq (inside : t < 2 ^ 26) :
    insertEntry k (k.disk.table t) t name ext size c =
    { k with disk := insertedDisk k.disk t name ext size c } := by
  unfold insertEntry insertedDisk
  cases findFree (k.disk.table t) with
  | none => rfl
  | some o => exact writeTable_eq inside

theorem insertedDisk_none (full : findFree (d.table t) = none) :
    insertedDisk d t name ext size c = d := by
  unfold insertedDisk
  rw [full]

theorem insertedDisk_some (free : findFree (d.table t) = some o) :
    insertedDisk d t name ext size c =
      d.setTable t (Function.update (d.table t) o (filled (d.table t o) name ext size c)) := by
  unfold insertedDisk
  rw [free]

theorem insertedDisk_slot (elsewhere : ∀ o, findFree (d.table t) = some o → q ≠ t ∨ i ≠ o) :
    (insertedDisk d t name ext size c).table q i = d.table q i := by
  cases free : findFree (d.table t) with
  | none => rw [insertedDisk_none free]
  | some o =>
    rw [insertedDisk_some free]
    by_cases here : q = t
    · subst here
      have other : i ≠ o := by simpa using elsewhere o free
      rw [Disk.table_setTable, Function.update_of_ne other]
    · rw [Disk.table_setTable_of_ne here]

theorem insertedDisk_new (free : findFree (d.table t) = some o) :
    (insertedDisk d t name ext size c).table t o = filled (d.table t o) name ext size c := by
  rw [insertedDisk_some free, Disk.table_setTable, Function.update_self]

theorem insertedDisk_cluster (other : q ≠ t) :
    (insertedDisk d t name ext size c).cluster q = d.cluster q := by
  unfold insertedDisk
  split
  · rfl
  · exact Disk.cluster_setCluster_of_ne other

theorem insertedDisk_fat (data : t ≠ 1) : (insertedDisk d t name ext size c).fat = d.fat := by
  unfold insertedDisk
  split
  · rfl
  · exact Disk.fat_setTable data

theorem clearedDisk_table :
    (clearedDisk d p m).table p = Function.update (d.table p) m (cleared (d.table p m)) :=
  Disk.table_setTable

theorem clearedDisk_other (other : t ≠ p) : (clearedDisk d p m).table t = d.table t :=
  Disk.table_setTable_of_ne other

theorem clearedDisk_slot (elsewhere : t ≠ p ∨ i ≠ m) :
    (clearedDisk d p m).table t i = d.table t i := by
  by_cases here : t = p
  · subst here
    rw [clearedDisk_table, Function.update_of_ne (by simpa using elsewhere)]
  · rw [clearedDisk_other here]

theorem movedDisk_slot (notSource : q ≠ p ∨ i ≠ m)
    (notTarget : ∀ o, findFree ((clearedDisk d p m).table t) = some o → q ≠ t ∨ i ≠ o) :
    (movedDisk d p m t).table q i = d.table q i :=
  (insertedDisk_slot notTarget).trans (clearedDisk_slot notSource)

theorem movedDisk_cluster (notSource : q ≠ p) (notTarget : q ≠ t) :
    (movedDisk d p m t).cluster q = d.cluster q :=
  (insertedDisk_cluster notTarget).trans (Disk.cluster_setCluster_of_ne notSource)

theorem movedDisk_fat (source : p ≠ 1) (target : t ≠ 1) : (movedDisk d p m t).fat = d.fat :=
  (insertedDisk_fat target).trans (Disk.fat_setTable source)

theorem movedDisk_source (apart : t ≠ p) :
    (movedDisk d p m t).table p m = cleared (d.table p m) := by
  have same : (movedDisk d p m t).table p m = (clearedDisk d p m).table p m :=
    insertedDisk_slot fun _ _ => .inl (Ne.symm apart)
  rw [same, clearedDisk_table, Function.update_self]

/-- Filling a slot of another table first and clearing then comes to the same. -/
theorem movedDisk_comm (apart : t ≠ p) :
    (insertedDisk d t (d.table p m).name (d.table p m).ext (d.table p m).filesize (d.table p m).cluster).setTable p
      (Function.update (d.table p) m (cleared (d.table p m))) = movedDisk d p m t := by
  have same : (clearedDisk d p m).table t = d.table t := clearedDisk_other apart
  unfold movedDisk
  cases found : findFree (d.table t) with
  | none =>
    rw [insertedDisk_none found, insertedDisk_none (by rw [same]; exact found)]
    rfl
  | some o =>
    rw [insertedDisk_some found, insertedDisk_some (by rw [same]; exact found), same]
    exact Disk.setTable_comm apart

/-! ## What becomes of the tree -/

/-- The table has a free slot behind the self entry. -/
def HasFree (table : FAT32DirectoryTable) : Prop := ∃ i, i ≠ 0 ∧ ¬ (table i).Live

theorem hasFree_iff {table : FAT32DirectoryTable} : HasFree table ↔ ∃ o, findFree table = some o := by
  constructor
  · rintro ⟨i, entry, vacant⟩
    cases found : findFree table with
    | none => exact absurd (findFree_none.mp found i entry) vacant
    | some o => exact ⟨o, rfl⟩
  · rintro ⟨o, found⟩
    exact ⟨o, (findFree_some.mp found).1⟩

theorem not_hasFree_iff {table : FAT32DirectoryTable} : ¬ HasFree table ↔ findFree table = none := by
  rw [hasFree_iff, not_exists]
  exact Option.eq_none_iff_forall_ne_some.symm

section Tree

variable (wellFormed : d.WellFormed) (slot : d.volume.Slot p m)
include wellFormed slot

theorem moved_of_free (target : d.volume.Directory t)
    (free : findFree ((clearedDisk d p m).table t) = some o) :
    Moved d.volume (movedDisk d p m t).volume p m t o := by
  have bound := (wellFormed.volume.slot_range slot).2
  obtain ⟨⟨entry, vacant⟩, _⟩ := findFree_some.mp free
  have new : (movedDisk d p m t).table t o = filled ((clearedDisk d p m).table t o) (d.table p m).name
      (d.table p m).ext (d.table p m).filesize (d.table p m).cluster := insertedDisk_new free
  have elsewhere {q : Nat} {j : Fin 64} (notTarget : q ≠ t ∨ j ≠ o) :
      (movedDisk d p m t).table q j = (clearedDisk d p m).table q j := by
    apply insertedDisk_slot
    intro o' free'
    rwa [← Option.some.inj (free.symm.trans free')]
  refine ⟨slot, target, entry, ?_, ?_, ?_, ?_, ?_, ?_, ?_, fun q j notSource notTarget => ?_⟩
  · intro live
    by_contra other
    rw [clearedDisk_slot (not_and_or.mp other)] at vacant
    exact vacant live
  · intro live
    by_contra other
    rw [Disk.volume_table, elsewhere (not_and_or.mp other), clearedDisk_table, Function.update_self] at live
    exact cleared_not_live _ live
  rotate_right
  · exact (elsewhere notTarget).trans (clearedDisk_slot notSource)
  all_goals rw [Disk.volume_table, new]
  · rfl
  · rfl
  · rfl
  · rfl
  · exact cluster_filled _ bound

omit wellFormed in
theorem dropped_of_full (full : findFree ((clearedDisk d p m).table t) = none) :
    Dropped d.volume (movedDisk d p m t).volume p m := by
  have disk : movedDisk d p m t = clearedDisk d p m := by rw [movedDisk, insertedDisk_none full]
  refine ⟨slot, ?_, fun q j _ _ elsewhere => ?_⟩
  · rw [disk, Disk.volume_table, clearedDisk_table, Function.update_self]
    exact cleared_not_live _
  · rw [disk]
    exact clearedDisk_slot elsewhere

/-- An entry that goes into its own table, or into the clusters of a file, is gone. -/
theorem dropped_of_unreachable (own : t = (d.table p m).cluster ∨ ¬ d.volume.Directory t) :
    Dropped d.volume (movedDisk d p m t).volume p m := by
  have apart : t ≠ p := by
    rcases own with rfl | file
    · exact wellFormed.volume.slot_cluster_ne slot
    · rintro rfl
      exact file slot.directory
  refine ⟨slot, ?_, fun q j directory notOwn notSource => ?_⟩
  · rw [Disk.volume_table, movedDisk_source apart]
    exact cleared_not_live _
  · have other : q ≠ t := by
      rintro rfl
      rcases own with rfl | file
      · exact notOwn rfl
      · exact file directory
    exact movedDisk_slot notSource fun _ _ => .inl other

end Tree

/-! ## Where a move should lead -/

/-- The entry is in directory `t` if that had a free slot and is not the entry itself, and still in
    `p` otherwise. -/
def MoveKeeps (v v' : Volume) (p : Nat) (m : Fin 64) (t : Nat) : Prop :=
  ∃ q o, Placed v v' p m q o ∧ (HasFree (v.table t) ∧ t ≠ (v.table p m).cluster → q = t) ∧
    (¬ (HasFree (v.table t) ∧ t ≠ (v.table p m).cluster) → q = p)

section Tree

variable {u : Nat} (wellFormed : d.WellFormed) (slot : d.volume.Slot p m) (directory : d.volume.Directory u)
include wellFormed slot directory

/-- An entry arrives if there is room for it apart from itself, and is lost otherwise. -/
theorem moved_or_dropped (apart : u ≠ (d.table p m).cluster → Apart d.volume p m u) :
    ((u ≠ (d.table p m).cluster ∧ (u = p ∨ HasFree (d.table u))) ∧
      ∃ o, Moved d.volume (movedDisk d p m u).volume p m u o ∧ Apart d.volume p m u) ∨
    (¬ (u ≠ (d.table p m).cluster ∧ (u = p ∨ HasFree (d.table u))) ∧
      Dropped d.volume (movedDisk d p m u).volume p m) := by
  by_cases own : u = (d.table p m).cluster
  · exact .inr ⟨fun both => both.1 own, dropped_of_unreachable wellFormed slot (.inl own)⟩
  · cases free : findFree ((clearedDisk d p m).table u) with
    | some o =>
      refine .inl ⟨⟨own, ?_⟩, o, moved_of_free wellFormed slot directory free, apart own⟩
      by_cases here : u = p
      · exact .inl here
      · rw [clearedDisk_other here] at free
        exact .inr ⟨o, (findFree_some.mp free).1⟩
    | none =>
      refine .inr ⟨?_, dropped_of_full slot free⟩
      rintro ⟨_, rfl | ⟨i, entry, vacant⟩⟩
      · have live := findFree_none.mp free m slot.entry
        rw [clearedDisk_table, Function.update_self] at live
        exact cleared_not_live _ live
      · have live := findFree_none.mp free i entry
        -- clearing only adds a free slot, and slot `m` was in use
        by_cases here : u = p ∧ i = m
        · obtain ⟨rfl, rfl⟩ := here
          exact vacant slot.live
        · rw [clearedDisk_slot (not_and_or.mp here)] at live
          exact vacant live

/-- A move that is meant for `t` and goes to `u`. -/
theorem moveKeeps_iff (apart : u ≠ (d.table p m).cluster → Apart d.volume p m u) :
    MoveKeeps d.volume (movedDisk d p m u).volume p m t ↔
      (u ≠ (d.table p m).cluster ∧ (u = p ∨ HasFree (d.table u))) ∧
        (HasFree (d.table t) ∧ t ≠ (d.table p m).cluster → u = t) ∧
        (¬ (HasFree (d.table t) ∧ t ≠ (d.table p m).cluster) → u = p) := by
  have sound := wellFormed.volume.toSound
  rcases moved_or_dropped wellFormed slot directory apart with
    ⟨arrives, o, moved, l, route, outside⟩ | ⟨lost, dropped⟩
  · have placed := moved.placed sound route outside
    constructor
    · rintro ⟨q, o', placed', wanted, unwanted⟩
      obtain ⟨rfl, rfl⟩ := placed.only q o' placed'.toSlot placed'.cluster
      exact ⟨arrives, wanted, unwanted⟩
    · rintro ⟨_, wanted, unwanted⟩
      exact ⟨u, o, placed, wanted, unwanted⟩
  · constructor
    · rintro ⟨q, o, placed, _⟩
      exact absurd placed (dropped.not_placed sound)
    · rintro ⟨arrives, _⟩
      exact absurd arrives lost

end Tree

/-! ## Into a folder -/

section Folder

variable {currentDirectoryCluster : Nat} {newPath : Bytes 8}
  (acc : Kernel × FAT32DirectoryTable)

/-- Slot `i` of the table would be taken for the folder `newPath`. -/
def Matches (table : FAT32DirectoryTable) (newPath : Bytes 8) (i : Fin 64) : Prop :=
  i ≠ 0 ∧ (table i).Live ∧ (table i).name = newPath ∧ (table i).ext = noExt

theorem mvFolderStep_other (other : ¬ Matches acc.2 newPath i) :
    mvFolderStep currentDirectoryCluster name ext newPath acc i = acc := by
  unfold mvFolderStep
  apply if_neg
  rintro ⟨entry, live, isName, isExt⟩
  exact other ⟨entry, live, memcmp_eq_zero_iff.mp isName, memcmp_eq_zero_iff.mp isExt⟩

theorem mvFolderStep_missing (missing : findEntry acc.2 name ext = none) :
    mvFolderStep currentDirectoryCluster name ext newPath acc i = acc := by
  unfold mvFolderStep
  simp only [missing, ite_self]

theorem mvFolderStep_found (is : Matches acc.2 newPath i)
    (found : findEntry acc.2 name ext = some m) :
    mvFolderStep currentDirectoryCluster name ext newPath acc i =
      (writeTable (insertEntry acc.1 (readTable acc.1 (acc.2 i).cluster) (acc.2 i).cluster name ext (acc.2 m).filesize
        (acc.2 m).cluster) (Function.update acc.2 m (cleared (acc.2 m))) currentDirectoryCluster,
        Function.update acc.2 m (cleared (acc.2 m))) := by
  obtain ⟨k, table⟩ := acc
  obtain ⟨entry, live, isName, isExt⟩ := is
  unfold mvFolderStep
  simp only
  rw [if_pos ⟨entry, live, memcmp_eq_zero_iff.mpr isName, memcmp_eq_zero_iff.mpr isExt⟩]
  simp only [found]

/-- With one match in the table the loop acts once. -/
theorem foldl_mvFolderStep (is : Matches acc.2 newPath i) (only : ∀ j, Matches acc.2 newPath j → j = i)
    (found : findEntry acc.2 name ext = some m) :
    (List.finRange 64).foldl (mvFolderStep currentDirectoryCluster name ext newPath) acc =
      mvFolderStep currentDirectoryCluster name ext newPath acc i := by
  -- the loop passes every slot once, and slot `i` is the only match
  refine Folds.foldl_once (List.nodup_finRange 64) (List.mem_finRange i)
    (fun j other => mvFolderStep_other acc fun hit => other (only j hit)) fun j other => ?_
  rw [mvFolderStep_found acc is found]
  apply mvFolderStep_other
  intro hit
  -- the slot that was cleared is not in use, and the others are as they were
  by_cases here : j = m
  · have live : (Function.update acc.2 m (cleared (acc.2 m)) j).Live := hit.2.1
    rw [here, Function.update_self] at live
    exact cleared_not_live _ live
  · have old : Matches acc.2 newPath j := by
      simpa only [Matches, Function.update_of_ne here] using hit
    exact other (only j old)

end Folder

/-- What the line does when the folder and the entry are there. -/
theorem mvFolder_disk {newPath : Bytes 8} (wellFormed : s.kernel.disk.WellFormed)
    (slot : s.kernel.disk.volume.Slot s.currentDirectoryCluster i)
    (isName : (s.kernel.disk.table s.currentDirectoryCluster i).name = newPath)
    (isExt : (s.kernel.disk.table s.currentDirectoryCluster i).ext = noExt)
    (found : findEntry (s.kernel.disk.table s.currentDirectoryCluster) name ext = some m) :
    (mvFolder s name ext newPath).kernel.disk =
      movedDisk s.kernel.disk s.currentDirectoryCluster m (s.kernel.disk.table s.currentDirectoryCluster i).cluster := by
  have sound := wellFormed.volume.toSound
  have range := sound.directory_range slot.directory
  have bound := sound.slot_range slot
  rw [Disk.volume_table] at bound
  obtain ⟨⟨_, sameName, sameExt⟩, _⟩ := findEntry_some.mp found
  have only : ∀ j, Matches (s.kernel.disk.table s.currentDirectoryCluster) newPath j → j = i := by
    rintro j ⟨_, live, hit, hit'⟩
    exact wellFormed.volume.unique slot.directory live slot.live (hit.trans isName.symm) (hit'.trans isExt.symm)
  unfold mvFolder
  simp only [readTable_eq (show s.currentDirectoryCluster < 2 ^ 26 by omega)]
  have is : Matches (s.kernel.disk.table s.currentDirectoryCluster) newPath i :=
    ⟨slot.entry, slot.live, isName, isExt⟩
  rw [foldl_mvFolderStep (s.kernel, s.kernel.disk.table s.currentDirectoryCluster) is only found,
    mvFolderStep_found (s.kernel, s.kernel.disk.table s.currentDirectoryCluster) is found]
  simp only
  -- the folder is another table, so filling first and clearing then is a move
  have apart : (s.kernel.disk.table s.currentDirectoryCluster i).cluster ≠ s.currentDirectoryCluster :=
    sound.slot_cluster_ne slot
  rw [readTable_eq (by omega), insertEntry_eq (by omega), writeTable_eq (by omega), ← movedDisk_comm apart, ← sameName,
    ← sameExt]

theorem mvFolder_missing {newPath : Bytes 8} (inside : s.currentDirectoryCluster < 2 ^ 26)
    (missing : (∀ j, ¬ Matches (s.kernel.disk.table s.currentDirectoryCluster) newPath j) ∨
      findEntry (s.kernel.disk.table s.currentDirectoryCluster) name ext = none) :
    mvFolder s name ext newPath = s := by
  unfold mvFolder
  simp only [readTable_eq inside]
  rcases missing with noFolder | noEntry
  · rw [Folds.foldl_idle fun j _ =>
      mvFolderStep_other (s.kernel, s.kernel.disk.table s.currentDirectoryCluster) (noFolder j)]
  · rw [Folds.foldl_idle fun _ _ =>
      mvFolderStep_missing (s.kernel, s.kernel.disk.table s.currentDirectoryCluster) noEntry]

/-! ## To the parent -/

/-- The cluster that `cd ..` goes to from the end of a route: the low byte of the one before. -/
def upper (path : List Nat) : Nat := path.dropLast.getLastD rootClusterNumber % 256

theorem upper_append {l : List Nat} {u : Nat} : upper (l ++ [u, c]) = u % 256 := by
  have split : l ++ [u, c] = l ++ [u] ++ [c] := by simp
  rw [upper, split, List.dropLast_concat, List.getLastD_concat]

/-- Where `cd ..` leads on a route that fits the stack. -/
def Above (s : ShellState) (path : List Nat) (t : Nat) : Prop :=
  s.currentDirectoryCluster = rootClusterNumber ∧ t = rootClusterNumber ∨
    ∃ l, path = l ++ [t, s.currentDirectoryCluster] ∧ t < 256

theorem lineUpward : Upward (Memory.store (fun _ => 0) 0 (dotDot : Bytes 2)) := Memory.bytes_store _

/-- Going up leads to the low byte of the parent, whatever the kernel holds by then, and leaves the stack
    able to take another `cd` in either direction. -/
theorem Standing.goes_up {path : List Nat} (standing : Standing s path) (k : Kernel) :
    ∃ code s₁, commandCallCd { s with kernel := k } (Memory.store (fun _ => 0) 0 (dotDot : Bytes 2)) =
        some (code, s₁) ∧ s₁.kernel = k ∧ s₁.currentDirectoryCluster = upper path ∧
      (0 ≤ s₁.currentDirStack.top ∧ s₁.currentDirStack.top + 1 < 256) ∧
      (s₁.currentDirectoryCluster ≠ rootClusterNumber → 1 ≤ s₁.currentDirStack.top ∧
        ∃ dir, s₁.currentDirStack.popCurrentDir.getTopCurrentDir = some dir ∧ dir.toNat = upper path.dropLast) := by
  have top := standing.top
  have room := standing.room
  by_cases root : s.currentDirectoryCluster = rootClusterNumber
  · obtain rfl : path = [rootClusterNumber] :=
      (root ▸ standing.route).unique standing.disk.volume.toSound .root
    rw [List.length_singleton] at top
    refine ⟨1, _, leave_root lineUpward root, rfl, root, ⟨?_, ?_⟩, fun other => absurd root other⟩
    · change 0 ≤ s.currentDirStack.top
      omega
    · change s.currentDirStack.top + 1 < 256
      omega
  · obtain ⟨l, u, rfl, route, _⟩ := standing.footing.split root
    obtain ⟨below, top', entries, last⟩ := standing.footing.popped
    have length : (l ++ [u, s.currentDirectoryCluster]).length = l.length + 2 := by simp
    have length' : (l ++ [u]).length = l.length + 1 := by simp
    have here : (UInt8.ofNat u).toNat = upper (l ++ [u, s.currentDirectoryCluster]) := by
      rw [upper_append]
      exact UInt8.toNat_ofNat'
    rw [length] at room
    refine ⟨0, _, leave_popped lineUpward below last, rfl, here, ⟨?_, ?_⟩, fun other => ?_⟩
    · change 0 ≤ s.currentDirStack.popCurrentDir.top
      omega
    · change s.currentDirStack.popCurrentDir.top + 1 < 256
      omega
    · -- outside the root the route to the parent has a directory before it
      have notRoot : u ≠ rootClusterNumber := by
        rintro rfl
        exact other rfl
      have footing : Footing ⟨s.kernel, u, s.currentDirStack.popCurrentDir⟩ (l ++ [u]) :=
        ⟨standing.footing.sound, route, top', by omega, entries⟩
      obtain ⟨l', g, split, _, _⟩ := footing.split notRoot
      have second : upper (l ++ [u, s.currentDirectoryCluster]).dropLast = g % 256 := by
        rw [← upper_append (l := l') (c := u), ← split,
          show l ++ [u, s.currentDirectoryCluster] = l ++ [u] ++ [s.currentDirectoryCluster] by simp, List.dropLast_concat]
      have positive : (l ++ [u]).length = l'.length + 2 := by
        rw [split]
        simp
      rw [split] at footing
      refine ⟨?_, _, footing.popped.2.2.2, ?_⟩
      · change 1 ≤ s.currentDirStack.popCurrentDir.top
        omega
      · rw [second]
        exact UInt8.toNat_ofNat'

theorem Above.upper_eq {path : List Nat} (above : Above s path t) (standing : Standing s path) : upper path = t := by
  rcases above with ⟨root, rfl⟩ | ⟨l, rfl, small⟩
  · obtain rfl : path = [rootClusterNumber] :=
      (root ▸ standing.route).unique standing.disk.volume.toSound .root
    rfl
  · rw [upper_append, Nat.mod_eq_of_lt small]

theorem mvParentRest_disk {path : List Nat} {temporal : Bytes 8} (standing : Standing s path)
    (above : Above s path t)
    (bound : t < 512) (self : (k.disk.table t 0).cluster = t) :
    ∃ s', mvParentRest { s with kernel := k } temporal name ext size c = some s' ∧
      s'.kernel.disk = insertedDisk k.disk t name ext size c := by
  obtain ⟨code, s₁, up, kernel, here, ⟨top, room⟩, deep⟩ := standing.goes_up k
  rw [above.upper_eq standing] at here
  have inside : s₁.currentDirectoryCluster < 2 ^ 26 := by
    rw [here]
    omega
  -- the table is read and stored again where its self entry points, which is `t`
  have table : readTable k s₁.currentDirectoryCluster = k.disk.table t := by
    rw [readTable_eq inside, here]
  obtain ⟨_, s₂, back, kernel₂⟩ :=
    cd_answered (s := { s₁ with kernel := { k with disk := insertedDisk k.disk t name ext size c } })
      (Memory.store (fun _ => 0) 0 temporal) top room fun other => (deep other).1
  refine ⟨s₂, ?_, by rw [kernel₂]⟩
  simp only [mvParentRest, up, Option.bind_eq_bind, Option.bind_some, table, self, kernel]
  rw [insertEntry_eq (by omega), back]
  rfl

/-- The self entry of a directory outlives the clearing of an entry. -/
theorem clearedDisk_self (wellFormed : d.WellFormed) (slot : d.volume.Slot p m)
    (directory : d.volume.Directory t) :
    ((clearedDisk d p m).table t 0).cluster = t := by
  rw [clearedDisk_slot (.inr (Ne.symm slot.entry))]
  exact (wellFormed.volume.self directory).2

theorem mvParent_disk {path : List Nat} (selfLocation : Nat) (standing : Standing s path)
    (above : Above s path t)
    (directory : s.kernel.disk.volume.Directory t)
    (slot : s.kernel.disk.volume.Slot s.currentDirectoryCluster m)
    (found : findEntry (s.kernel.disk.table s.currentDirectoryCluster) name ext = some m) :
    ∃ s', mvParent s name ext selfLocation = some s' ∧
      s'.kernel.disk = movedDisk s.kernel.disk s.currentDirectoryCluster m t := by
  obtain ⟨⟨_, sameName, sameExt⟩, _⟩ := findEntry_some.mp found
  have bound := (standing.disk.volume.directory_range directory).2
  unfold mvParent
  simp only [standing.readTable_eq]
  simp only [found]
  rw [writeTable_eq standing.directory_lt, movedDisk, sameName, sameExt]
  exact mvParentRest_disk standing above bound (clearedDisk_self standing.disk slot directory)

theorem mvParent_missing {path : List Nat} (standing : Standing s path) (above : Above s path t)
    (directory : s.kernel.disk.volume.Directory t)
    (missing : findEntry (s.kernel.disk.table s.currentDirectoryCluster) name ext = none) :
    ∃ s', mvParent s name ext selfLocation = some s' ∧
      s'.kernel.disk = insertedDisk s.kernel.disk t name ext 0 selfLocation := by
  have bound := (standing.disk.volume.directory_range directory).2
  unfold mvParent
  simp only [standing.readTable_eq]
  simp only [missing]
  exact mvParentRest_disk standing above bound (standing.disk.volume.self directory).2

/-! ## mv old /.. and mv old /d -/

/-- The directory that a line names as the destination. -/
inductive Destination (s : ShellState) : MvLine → Nat → Prop
  | root {old : ShortName} : s.currentDirectoryCluster = rootClusterNumber →
      Destination s (.parent old) rootClusterNumber
  | parent {old : ShortName} {p : Nat} {i : Fin 64} :
      s.kernel.disk.volume.Edge p i s.currentDirectoryCluster → Destination s (.parent old) p
  | folder {old : ShortName} {d : FolderName} {i : Fin 64} {c : Nat} :
      s.kernel.disk.volume.Edge s.currentDirectoryCluster i c →
      (s.kernel.disk.table s.currentDirectoryCluster i).name = d.name →
      (s.kernel.disk.table s.currentDirectoryCluster i).ext = noExt → Destination s (.folder old d) c

/-- The destination has a free slot and is not the entry in slot `m`. -/
def Wanted (s : ShellState) (m : Fin 64) (t : Nat) : Prop :=
  HasFree (s.kernel.disk.table t) ∧ t ≠ (s.kernel.disk.table s.currentDirectoryCluster m).cluster

/-- When a move keeps its entry. -/
def MoveFits (s : ShellState) (m : Fin 64) (t : Nat) : MvLine → Prop
  | .rename _ _ => False
  | .parent _ => s.currentDirectoryCluster = rootClusterNumber ∨ t < 256 ∧ HasFree (s.kernel.disk.table t)
  | .folder _ d =>
    ¬ d.Dotted ∧ Wanted s m t ∨ d.Dotted ∧ s.currentDirectoryCluster = rootClusterNumber ∧ ¬ Wanted s m t

section Line

variable {path : List Nat} {line : MvLine} {u : Nat}

theorem Standing.above_parent (standing : Standing s path)
    (edge : s.kernel.disk.volume.Edge p i s.currentDirectoryCluster) (small : p < 256) :
    Above s path p := by
  obtain ⟨l, rfl⟩ := standing.path_of_edge edge
  exact .inr ⟨l, rfl, small⟩

/-- The entry that a line is about is found, in use or not. -/
theorem findEntry_line {x : ShortName} (wellFormed : s.kernel.disk.WellFormed)
    (slot : s.kernel.disk.volume.Slot s.currentDirectoryCluster m)
    (isName : (s.kernel.disk.table s.currentDirectoryCluster m).name = x.name)
    (isExt : (s.kernel.disk.table s.currentDirectoryCluster m).ext = x.extension) :
    findEntry (s.kernel.disk.table s.currentDirectoryCluster) x.name x.extension = some m := by
  have same : findEntry (s.kernel.disk.volume.table s.currentDirectoryCluster) x.name x.extension =
      findLive (s.kernel.disk.volume.table s.currentDirectoryCluster) x.name x.extension :=
    findEntry_eq_findLive wellFormed.volume.toSound slot.directory x.name_ne
  have lookup := findLive_slot wellFormed.volume slot
  rw [Disk.volume_table, isName, isExt] at lookup
  rw [Disk.volume_table, lookup] at same
  exact same

variable (standing : Standing s path) (slot : s.kernel.disk.volume.Slot s.currentDirectoryCluster m)
include standing slot

/-- A line whose move goes to `u` keeps the entry exactly if it arrives, and is meant to. -/
theorem keeps_iff_of_disk (directory : s.kernel.disk.volume.Directory u)
    (apart : u ≠ (s.kernel.disk.table s.currentDirectoryCluster m).cluster →
      Apart s.kernel.disk.volume s.currentDirectoryCluster m u)
    (answer : ∃ s', commandCallMv s (lineOf line.text) selfLocation = some s' ∧
      s'.kernel.disk = movedDisk s.kernel.disk s.currentDirectoryCluster m u) :
    (∃ s', commandCallMv s (lineOf line.text) selfLocation = some s' ∧
        MoveKeeps s.kernel.disk.volume s'.kernel.disk.volume s.currentDirectoryCluster m t) ↔
      (u ≠ (s.kernel.disk.table s.currentDirectoryCluster m).cluster ∧
          (u = s.currentDirectoryCluster ∨ HasFree (s.kernel.disk.table u))) ∧
        (Wanted s m t → u = t) ∧ (¬ Wanted s m t → u = s.currentDirectoryCluster) := by
  obtain ⟨s₀, answered, disk⟩ := answer
  have exact_ : MoveKeeps s.kernel.disk.volume (movedDisk s.kernel.disk s.currentDirectoryCluster m u).volume
      s.currentDirectoryCluster m t ↔
      (u ≠ (s.kernel.disk.table s.currentDirectoryCluster m).cluster ∧
          (u = s.currentDirectoryCluster ∨ HasFree (s.kernel.disk.table u))) ∧
        (Wanted s m t → u = t) ∧ (¬ Wanted s m t → u = s.currentDirectoryCluster) :=
    moveKeeps_iff standing.disk slot directory apart
  rw [← disk] at exact_
  rw [answered]
  simpa only [Option.some.injEq, exists_eq_left'] using exact_

variable (isName : (s.kernel.disk.table s.currentDirectoryCluster m).name = line.old.name)
  (isExt : (s.kernel.disk.table s.currentDirectoryCluster m).ext = line.old.extension)
include isName isExt

variable (line selfLocation) in
/-- A line that is taken for `/..` goes to the directory above. -/
theorem upward_line (up : ∀ s', mvParent s line.old.name line.old.extension selfLocation = some s' →
      commandCallMv s (lineOf line.text) selfLocation = some s')
    (directory : s.kernel.disk.volume.Directory u) (above : Above s path u) :
    ∃ s', commandCallMv s (lineOf line.text) selfLocation = some s' ∧
      s'.kernel.disk = movedDisk s.kernel.disk s.currentDirectoryCluster m u := by
  obtain ⟨s', answer, disk⟩ := mvParent_disk selfLocation standing above directory slot
    (findEntry_line standing.disk slot isName isExt)
  exact ⟨s', up s' answer, disk⟩

end Line

section Cases

variable {path : List Nat} {old : ShortName} {f : FolderName} {q : Nat} {j : Fin 64}
  (standing : Standing s path) (slot : s.kernel.disk.volume.Slot s.currentDirectoryCluster m)
  (isName : (s.kernel.disk.table s.currentDirectoryCluster m).name = old.name)
  (isExt : (s.kernel.disk.table s.currentDirectoryCluster m).ext = old.extension)
include standing slot isName isExt

/-- In the root `/..` is the root, and the entry stays. -/
theorem parent_line_root (root : s.currentDirectoryCluster = rootClusterNumber) :
    ∃ s', commandCallMv s (lineOf (MvLine.parent old).text) selfLocation = some s' ∧
      MoveKeeps s.kernel.disk.volume s'.kernel.disk.volume s.currentDirectoryCluster m rootClusterNumber := by
  have apart := standing.disk.volume.toSound.apart_self slot
  have answer := upward_line selfLocation (.parent old) standing slot isName isExt
    (fun _ answer => commandCallMv_parent.trans answer) .root (.inl ⟨root, rfl⟩)
  have other : s.currentDirectoryCluster ≠ (s.kernel.disk.table s.currentDirectoryCluster m).cluster :=
    Ne.symm (standing.disk.volume.toSound.slot_cluster_ne slot)
  rw [← root] at answer ⊢
  exact (keeps_iff_of_disk standing slot slot.directory (fun _ => apart) answer).mpr
    ⟨⟨other, .inl rfl⟩, fun _ => rfl, fun _ => rfl⟩

theorem parent_line_iff (edge : s.kernel.disk.volume.Edge q j s.currentDirectoryCluster)
    (small : q < 256) :
    (∃ s', commandCallMv s (lineOf (MvLine.parent old).text) selfLocation = some s' ∧
        MoveKeeps s.kernel.disk.volume s'.kernel.disk.volume s.currentDirectoryCluster m q) ↔
      HasFree (s.kernel.disk.table q) := by
  have sound := standing.disk.volume.toSound
  have apart := sound.apart_parent slot edge
  have other : q ≠ s.currentDirectoryCluster := Ne.symm (sound.child_ne edge)
  have notOwn : q ≠ (s.kernel.disk.table s.currentDirectoryCluster m).cluster := apart.ne
  have answer := upward_line selfLocation (.parent old) standing slot isName isExt
    (fun _ answer => commandCallMv_parent.trans answer) edge.directory (standing.above_parent edge small)
  rw [keeps_iff_of_disk standing slot edge.directory (fun _ => apart) answer]
  constructor
  · rintro ⟨⟨_, here | free⟩, _⟩
    · exact absurd here other
    · exact free
  · exact fun free => ⟨⟨notOwn, .inr free⟩, fun _ => rfl, fun unwanted => absurd ⟨free, notOwn⟩ unwanted⟩

variable (folder : s.kernel.disk.volume.Edge s.currentDirectoryCluster i t)
  (folderName : (s.kernel.disk.table s.currentDirectoryCluster i).name = f.name)
  (folderExt : (s.kernel.disk.table s.currentDirectoryCluster i).ext = noExt)
include folder

include folderName folderExt in
theorem folder_line_iff (notDotted : ¬ f.Dotted) :
    (∃ s', commandCallMv s (lineOf (MvLine.folder old f).text) selfLocation = some s' ∧
        MoveKeeps s.kernel.disk.volume s'.kernel.disk.volume s.currentDirectoryCluster m t) ↔ Wanted s m t := by
  have sound := standing.disk.volume.toSound
  have cluster : (s.kernel.disk.table s.currentDirectoryCluster i).cluster = t := folder.cluster
  have other := sound.child_ne folder
  have disk := mvFolder_disk standing.disk folder.toSlot folderName folderExt
    (findEntry_line standing.disk slot isName isExt)
  rw [cluster] at disk
  rw [keeps_iff_of_disk standing slot folder.directory_child (sound.apart_child slot folder)
    ⟨_, commandCallMv_folder notDotted, disk⟩]
  constructor
  · rintro ⟨⟨notOwn, here | free⟩, _⟩
    · exact absurd here other
    · exact ⟨free, notOwn⟩
  · exact fun wanted => ⟨⟨wanted.2, .inr wanted.1⟩, fun _ => rfl, fun unwanted => absurd wanted unwanted⟩

/-- In the root a folder whose name starts with two dots is taken for the root itself. -/
theorem dotted_line_root (dotted : f.Dotted)
    (root : s.currentDirectoryCluster = rootClusterNumber) :
    (∃ s', commandCallMv s (lineOf (MvLine.folder old f).text) selfLocation = some s' ∧
        MoveKeeps s.kernel.disk.volume s'.kernel.disk.volume s.currentDirectoryCluster m t) ↔ ¬ Wanted s m t := by
  have sound := standing.disk.volume.toSound
  have cluster : (s.kernel.disk.table s.currentDirectoryCluster i).cluster = t := folder.cluster
  have other : s.currentDirectoryCluster ≠ t := Ne.symm (sound.child_ne folder)
  have notOwn : s.currentDirectoryCluster ≠ (s.kernel.disk.table s.currentDirectoryCluster m).cluster :=
    Ne.symm (sound.slot_cluster_ne slot)
  have answer := upward_line selfLocation (.folder old f) standing slot isName isExt
    (fun _ answer => (commandCallMv_dotted dotted).trans answer) slot.directory (.inl ⟨root, root⟩)
  rw [keeps_iff_of_disk standing slot slot.directory (fun _ => sound.apart_self slot) answer]
  constructor
  · rintro ⟨_, meant, _⟩ wanted
    exact other (meant wanted)
  · exact fun unwanted => ⟨⟨notOwn, .inl rfl⟩, fun wanted => absurd wanted unwanted, fun _ => rfl⟩

/-- Elsewhere it is taken for the parent, which is never where the entry should go. -/
theorem dotted_line_never (dotted : f.Dotted)
    (edge : s.kernel.disk.volume.Edge q j s.currentDirectoryCluster)
    (small : q < 256) :
    ¬ ∃ s', commandCallMv s (lineOf (MvLine.folder old f).text) selfLocation = some s' ∧
      MoveKeeps s.kernel.disk.volume s'.kernel.disk.volume s.currentDirectoryCluster m t := by
  have sound := standing.disk.volume.toSound
  have other : q ≠ s.currentDirectoryCluster := Ne.symm (sound.child_ne edge)
  have notTarget : q ≠ t := folder.cluster ▸ (sound.apart_parent folder.toSlot edge).ne
  have answer := upward_line selfLocation (.folder old f) standing slot isName isExt
    (fun _ answer => (commandCallMv_dotted dotted).trans answer) edge.directory (standing.above_parent edge small)
  rw [keeps_iff_of_disk standing slot edge.directory (fun _ => sound.apart_parent slot edge) answer]
  rintro ⟨_, meant, stays⟩
  by_cases wanted : Wanted s m t
  · exact notTarget (meant wanted)
  · exact other (stays wanted)

end Cases

/-- The lines that `mv` takes for a move to the parent. -/
def GoesUp : MvLine → Prop
  | .rename _ _ => False
  | .parent _ => True
  | .folder _ f => f.Dotted

/-- A move keeps its entry when it fits; and when the cluster of the directory above fits 8 bits, or the
    line does not go there, a move that keeps its entry fits. -/
theorem move_line_keeps {path : List Nat} {line : MvLine} (standing : Standing s path)
    (slot : s.kernel.disk.volume.Slot s.currentDirectoryCluster m)
    (isName : (s.kernel.disk.table s.currentDirectoryCluster m).name = line.old.name)
    (isExt : (s.kernel.disk.table s.currentDirectoryCluster m).ext = line.old.extension)
    (destination : Destination s line t) :
    (MoveFits s m t line → ∃ s', commandCallMv s (lineOf line.text) selfLocation = some s' ∧
        MoveKeeps s.kernel.disk.volume s'.kernel.disk.volume s.currentDirectoryCluster m t) ∧
      ((GoesUp line → ∀ q j, s.kernel.disk.volume.Edge q j s.currentDirectoryCluster → q < 256) →
        (∃ s', commandCallMv s (lineOf line.text) selfLocation = some s' ∧
          MoveKeeps s.kernel.disk.volume s'.kernel.disk.volume s.currentDirectoryCluster m t) →
        MoveFits s m t line) := by
  cases destination with
  | root root => exact ⟨fun _ => parent_line_root standing slot isName isExt root, fun _ _ => .inl root⟩
  | parent edge =>
    have below := standing.disk.volume.child_ne_root edge
    constructor
    · rintro (root | ⟨small, free⟩)
      · exact absurd root below
      · exact (parent_line_iff standing slot isName isExt edge small).mpr free
    · intro small keeps
      have inside := small trivial _ _ edge
      exact .inr ⟨inside, (parent_line_iff standing slot isName isExt edge inside).mp keeps⟩
  | @folder _ f _ _ folder folderName folderExt =>
    constructor
    · rintro (⟨notDotted, wanted⟩ | ⟨dotted, root, unwanted⟩)
      · exact (folder_line_iff standing slot isName isExt folder folderName folderExt notDotted).mpr wanted
      · exact (dotted_line_root standing slot isName isExt folder dotted root).mpr unwanted
    · intro small keeps
      by_cases dotted : f.Dotted
      · right
        by_cases root : s.currentDirectoryCluster = rootClusterNumber
        · exact ⟨dotted, root, (dotted_line_root standing slot isName isExt folder dotted root).mp keeps⟩
        · obtain ⟨_, q, _, _, j, edge⟩ := standing.footing.split root
          exact absurd keeps (dotted_line_never standing slot isName isExt folder dotted edge (small dotted q j edge))
      · exact .inl ⟨dotted, (folder_line_iff standing slot isName isExt folder folderName folderExt dotted).mp keeps⟩

theorem folderNameD_not_dotted : ¬ folderNameD.Dotted := by
  rintro ⟨rest, split⟩
  exact absurd (List.cons.inj split).1 (by decide)

/-- The file `a.t` goes into the folder `d`. -/
theorem move_line_keeps_file :
    ∃ k s', Run perform Intended Fresh [(.write folderD, 0), (.write (zeroFile 1), 0)] k ∧
      commandCallMv (startShell k) (lineOf (MvLine.folder nameAT folderNameD).text) 0 = some s' ∧
      MoveKeeps k.disk.volume s'.kernel.disk.volume rootClusterNumber 2 3 := by
  obtain ⟨k₁, run₁, written₁⟩ := run_first folderD (l := []) (by decide) (by decide) rfl rfl rfl
  obtain ⟨k, run, written⟩ :=
    run_second (zeroFile 1) run₁ written₁ (t := []) (by decide) (by decide)
    (fun same => absurd same (by decide)) rfl rfl (by decide)
  obtain ⟨slotD, entryD⟩ := first_entry written₁
  have added := written.added
  have sound := (run_regular run₁).sound.volume
  have file : k.disk.table rootClusterNumber 2 = newEntry (zeroFile 1) 4 := added.table_new
  have folder : k.disk.table rootClusterNumber 1 = newEntry folderD 3 :=
    (added.table_eq slotD.directory slotD.live).trans entryD
  have edge₁ : k₁.disk.volume.Edge rootClusterNumber 1 3 :=
    edge_newEntry .root (by decide) rfl (by decide) entryD
  have edge : k.disk.volume.Edge rootClusterNumber 1 3 :=
    edge_newEntry .root (by decide) rfl (by decide) folder
  have slot : k.disk.volume.Slot rootClusterNumber 2 := (added.slot_iff sound).mpr (.inr ⟨rfl, rfl⟩)
  have wanted : Wanted (startShell k) 2 3 := by
    refine ⟨⟨1, by decide, ?_⟩, ?_⟩
    · have empty : k₁.disk.table 3 1 = .zero := (written₁.added.folder rfl).2.2 1 (by decide)
      have kept : k.disk.table 3 = k₁.disk.table 3 :=
        added.tableFrame 3 edge₁.directory_child (by decide)
      change ¬ (k.disk.table 3 1).Live
      rw [kept, empty]
      exact FAT32DirectoryEntry.not_live_zero
    · change 3 ≠ (k.disk.table rootClusterNumber 2).cluster
      rw [file, cluster_newEntry (by decide)]
      decide
  have standing := (started_startShell (run_regular run).wellFormed).standing
  have isName : (k.disk.table rootClusterNumber 2).name = (MvLine.folder nameAT folderNameD).old.name :=
    file ▸ name_newEntry
  have isExt : (k.disk.table rootClusterNumber 2).ext = (MvLine.folder nameAT folderNameD).old.extension :=
    file ▸ ext_newEntry (by decide)
  have isFolder : (k.disk.table rootClusterNumber 1).name = folderNameD.name :=
    folder ▸ name_newEntry
  have noExt_ : (k.disk.table rootClusterNumber 1).ext = noExt := folder ▸ rfl
  have destination : Destination (startShell k) (.folder nameAT folderNameD) 3 :=
    .folder edge isFolder noExt_
  obtain ⟨s', answer, keeps⟩ := (move_line_keeps standing slot isName isExt destination).1
    (.inl ⟨folderNameD_not_dotted, wanted⟩)
  exact ⟨k, s', run, answer, keeps⟩

/-- The folder `d` is lost when it is moved into itself. -/
theorem move_line_loses_folder :
    ∃ k, Run perform Intended Fresh [(.write folderD, 0)] k ∧
      k.disk.volume.Slot rootClusterNumber 1 ∧ Destination (startShell k) (.folder nameD folderNameD) 3 ∧
      ¬ ∃ s', commandCallMv (startShell k) (lineOf (MvLine.folder nameD folderNameD).text) 0 = some s' ∧
        MoveKeeps k.disk.volume s'.kernel.disk.volume rootClusterNumber 1 3 := by
  obtain ⟨k, run, written⟩ := run_first folderD (l := []) (by decide) (by decide) rfl rfl rfl
  obtain ⟨slot, entry⟩ := first_entry written
  have isName : (k.disk.table rootClusterNumber 1).name = nameD.name := entry ▸ name_newEntry
  have isExt : (k.disk.table rootClusterNumber 1).ext = nameD.extension := entry ▸ rfl
  have edge : k.disk.volume.Edge rootClusterNumber 1 3 :=
    edge_newEntry .root (by decide) rfl (by decide) entry
  have standing := (started_startShell (run_regular run).wellFormed).standing
  refine ⟨k, run, slot, .folder edge isName isExt, fun keeps => ?_⟩
  have isFolder : (k.disk.table rootClusterNumber 1).name = folderNameD.name := isName
  have wanted := (folder_line_iff standing slot isName isExt edge isFolder isExt folderNameD_not_dotted).mp keeps
  exact wanted.2 edge.cluster.symm

end Brother420.Shell
