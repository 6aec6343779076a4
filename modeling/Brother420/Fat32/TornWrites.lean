import Brother420.Fat32.InterruptedDeletes

/-! # Writes that stop inside a cluster

The drive is handed a cluster block by block, so a stop can leave a cluster half
old and half new.  A directory table of which one entry changes is then the old
one or the new one, since an entry lies inside one block.  The allocation table
may be a mixture, and its entries are old or new one by one.
-/

namespace Brother420

open Packed (Bytes Layout)
open Fat32

/-- One block on its way to the drive. -/
structure BlockWrite where
  logicalBlockAddress : Nat
  data : Bytes (blockSize * 1)

namespace ClusterWrite

variable (w : ClusterWrite)

theorem block_inside (i : Fin 4) (j : Fin (blockSize * 1)) : 512 * i.val + j.val < 2048 := by
  have small := j.isLt
  simp only [blockSize] at small
  omega

def block (i : Fin 4) : BlockWrite :=
  ⟨w.clusterNumber * 4 % 2 ^ 32 + i, fun j => w.data ⟨512 * i + j, block_inside i j⟩⟩

/-- The blocks that `write_clusters` makes of the call, in order. -/
def blocks : List BlockWrite := (List.finRange 4).map w.block

end ClusterWrite

namespace Disk

def writeBlock (d : Disk) (b : BlockWrite) : Disk := d.writeBlocks b.data b.logicalBlockAddress

def writeEach (d : Disk) (log : List BlockWrite) : Disk := log.foldl writeBlock d

/-- The disk on which the writes of the log have stopped behind `n` blocks. -/
def torn (d : Disk) (log : List ClusterWrite) (n : Nat) : Disk := d.writeEach ((log.flatMap ClusterWrite.blocks).take n)

variable {d d' : Disk} {w : ClusterWrite} {log : List ClusterWrite} {c n : Nat} {i : Fin 4} {j : Fin 2048}

theorem writeEach_append (l l' : List BlockWrite) : d.writeEach (l ++ l') = (d.writeEach l).writeEach l' :=
  List.foldl_append

/-! ## What each block stores -/

theorem cluster_writeBlock (inside : w.clusterNumber < 2 ^ 26) :
    (d.writeBlock (w.block i)).cluster c j =
      if c = w.clusterNumber ∧ j.val / 512 = i then w.data j else d.cluster c j := by
  have address : blockSize * ((w.clusterNumber * 4 % 2 ^ 32 + i.val) % 2 ^ 28) = 2048 * w.clusterNumber + 512 * i := by
    simp only [blockSize]
    omega
  have small := j.isLt
  have at_ : (d.writeBlock (w.block i)).cluster c j =
      Memory.store d (2048 * w.clusterNumber + 512 * i) (w.block i).data (2048 * c + j) :=
    congrArg (fun offset => Memory.store d offset (w.block i).data (2048 * c + j)) address
  rw [at_]
  by_cases here : c = w.clusterNumber ∧ j.val / 512 = i
  · obtain ⟨rfl, block⟩ := here
    rw [if_pos ⟨rfl, block⟩, Memory.store_inside (by omega) (by simp only [blockSize]; omega)]
    exact congrArg w.data (Fin.ext (by simp only; omega))
  · rw [if_neg here, Memory.store_outside (by simp only [blockSize]; omega)]
    rfl

theorem cluster_writeEach (inside : w.clusterNumber < 2 ^ 26) (l : List (Fin 4)) :
    (d.writeEach (l.map w.block)).cluster c j =
      if c = w.clusterNumber ∧ ∃ i ∈ l, j.val / 512 = i.val then w.data j else d.cluster c j := by
  induction l generalizing d with
  | nil => simp [writeEach]
  | cons i l ih =>
    have first := cluster_writeBlock (d := d) (c := c) (i := i) (j := j) inside
    have rest := ih (d := d.writeBlock (w.block i))
    rw [first] at rest
    refine rest.trans ?_
    by_cases later : c = w.clusterNumber ∧ ∃ i ∈ l, j.val / 512 = i.val
    · obtain ⟨same, k, member, block⟩ := later
      rw [if_pos ⟨same, k, member, block⟩, if_pos ⟨same, k, List.mem_cons_of_mem _ member, block⟩]
    · rw [if_neg later]
      by_cases now : c = w.clusterNumber ∧ j.val / 512 = i.val
      · rw [if_pos now, if_pos ⟨now.1, i, List.mem_cons_self, now.2⟩]
      · rw [if_neg now, if_neg]
        rintro ⟨same, k, member, block⟩
        cases List.mem_cons.mp member with
        | inl head => exact now ⟨same, head ▸ block⟩
        | inr tail => exact later ⟨same, k, tail, block⟩

theorem mem_take_finRange : i ∈ (List.finRange 4).take n ↔ i.val < n := by
  match n with
  | 0 => simp
  | 1 => revert i; decide
  | 2 => revert i; decide
  | 3 => revert i; decide
  | n + 4 =>
    rw [List.take_of_length_le (by simp)]
    exact iff_of_true (List.mem_finRange i) (by omega)

/-- The first blocks of a cluster are new and the others are old. -/
theorem cluster_torn (inside : w.clusterNumber < 2 ^ 26) :
    (d.writeEach (w.blocks.take n)).cluster c j =
      if c = w.clusterNumber ∧ j.val / 512 < n then w.data j else d.cluster c j := by
  have small := j.isLt
  have some_ : (∃ i ∈ (List.finRange 4).take n, j.val / 512 = i.val) ↔ j.val / 512 < n := by
    constructor
    · rintro ⟨i, member, block⟩
      rw [block]
      exact mem_take_finRange.mp member
    · intro early
      exact ⟨⟨j.val / 512, by omega⟩, mem_take_finRange.mpr early, rfl⟩
  rw [ClusterWrite.blocks, ← List.map_take, cluster_writeEach inside]
  simp only [some_]

theorem cluster_torn_of_ne (inside : w.clusterNumber < 2 ^ 26) (other : c ≠ w.clusterNumber) :
    (d.writeEach (w.blocks.take n)).cluster c = d.cluster c := by
  funext j
  rw [cluster_torn inside, if_neg fun both => other both.1]

/-- All four blocks are the cluster. -/
theorem writeEach_blocks (inside : w.clusterNumber < 2 ^ 26) : d.writeEach w.blocks = d.writeCluster w := by
  rw [writeCluster_eq inside]
  apply ext_cluster
  intro c
  funext j
  have small := j.isLt
  have all := cluster_torn (d := d) (c := c) (j := j) (n := 4) inside
  rw [List.take_of_length_le (by simp [ClusterWrite.blocks])] at all
  rw [all]
  by_cases here : c = w.clusterNumber
  · subst here
    rw [if_pos ⟨rfl, by omega⟩, cluster_setCluster]
  · rw [if_neg fun both => here both.1, cluster_setCluster_of_ne here]

theorem writeEach_flatMap (inside : ∀ w ∈ log, w.clusterNumber < 2 ^ 26) :
    d.writeEach (log.flatMap ClusterWrite.blocks) = d.writeAll log := by
  induction log generalizing d with
  | nil => rfl
  | cons w log ih =>
    rw [List.flatMap_cons, writeEach_append, writeEach_blocks (inside w List.mem_cons_self),
      ih fun w member => inside w (List.mem_cons_of_mem _ member), writeAll_cons]

/-! ## Tables -/

/-- A table of which one entry changes is never torn. -/
theorem writeEach_slot {table : FAT32DirectoryTable} {s : Fin 64} {e : FAT32DirectoryEntry}
    (inside : w.clusterNumber < 2 ^ 26) (old : d.table w.clusterNumber = table)
    (new : w.data = FAT32DirectoryTable.layout (Function.update table s e)) :
    d.writeEach (w.blocks.take n) = d ∨ d.writeEach (w.blocks.take n) = d.writeCluster w := by
  have held : d.cluster w.clusterNumber = FAT32DirectoryTable.layout table := by
    rw [← old, Disk.table, Equiv.apply_symm_apply]
  have elsewhere {j : Fin 2048} (other : j.val / 32 ≠ s) : w.data j = d.cluster w.clusterNumber j := by
    rw [new, held]
    exact Layout.array_update_other FAT32DirectoryEntry.layout table e fun same => other (congrArg Fin.val same)
  by_cases stored : s.val / 16 < n
  · right
    rw [writeCluster_eq inside]
    apply ext_cluster
    intro c
    funext j
    rw [cluster_torn inside]
    by_cases here : c = w.clusterNumber
    · subst here
      rw [cluster_setCluster]
      split
      · rfl
      · rename_i late
        exact (elsewhere (by omega)).symm
    · rw [if_neg fun both => here both.1, cluster_setCluster_of_ne here]
  · left
    apply ext_cluster
    intro c
    funext j
    rw [cluster_torn inside]
    split
    · rename_i early
      obtain ⟨rfl, early⟩ := early
      exact elsewhere (by omega)
    · rfl

/-- Each write changes one entry of a directory table. -/
inductive Slotwise : Disk → List ClusterWrite → Prop
  | nil {d : Disk} : Slotwise d []
  | cons {d : Disk} {w : ClusterWrite} {log : List ClusterWrite} {s : Fin 64} {e : FAT32DirectoryEntry} :
      w.clusterNumber < 2 ^ 26 →
      w.data = FAT32DirectoryTable.layout (Function.update (d.table w.clusterNumber) s e) →
      Slotwise (d.writeCluster w) log → Slotwise d (w :: log)

theorem Slotwise.append {log' : List ClusterWrite} (first : Slotwise d log) (rest : Slotwise (d.writeAll log) log') :
    Slotwise d (log ++ log') := by
  induction first with
  | nil => exact rest
  | cons inside data _ ih => exact .cons inside data (ih rest)

/-- Then a stop behind any block is a stop behind a whole write. -/
theorem Slotwise.torn (slotwise : Slotwise d log) (n : Nat) :
    ∃ m, n / 4 ≤ m ∧ m ≤ (n + 3) / 4 ∧ d.torn log n = d.writeAll (log.take m) := by
  induction slotwise generalizing n with
  | nil => exact ⟨n / 4, le_rfl, by omega, by simp [Disk.torn, writeEach]⟩
  | @cons d w log s e inside data _ ih =>
    have length : w.blocks.length = 4 := by simp [ClusterWrite.blocks]
    rw [Disk.torn, List.flatMap_cons, List.take_append, length, writeEach_append]
    by_cases whole : 4 ≤ n
    · obtain ⟨m, lower, upper, stopped⟩ := ih (n - 4)
      refine ⟨m + 1, by omega, by omega, ?_⟩
      rw [List.take_of_length_le (by omega), writeEach_blocks inside]
      exact stopped
    · rw [Nat.sub_eq_zero_of_le (by omega), List.take_zero]
      by_cases begun : n = 0
      · subst begun
        exact ⟨0, by omega, by omega, rfl⟩
      · cases writeEach_slot (n := n) inside rfl data with
        | inl old => exact ⟨0, by omega, by omega, old⟩
        | inr new => exact ⟨1, by omega, by omega, new⟩

/-- An allocation entry lies in one block, block `c / 128` of its cluster. -/
theorem fat_blocks {t : FAT32FileAllocationTable} (New : Nat → Prop) [DecidablePred New]
    (bytes : ∀ j, d'.cluster fatClusterNumber j =
      if New (j.val / 512) then FAT32FileAllocationTable.layout t j else d.cluster fatClusterNumber j) (c : Nat) :
    d'.fat c = if New (c / 128) then FAT32FileAllocationTable.at t c else d.fat c := by
  by_cases bound : c < 512
  · have place (j : Fin 4) : (finProdFinEquiv ((⟨c, bound⟩ : Fin 512), j)).val / 512 = c / 128 := by
      have small := j.isLt
      simp only [finProdFinEquiv_apply_val]
      omega
    simp only [Disk.fat, FAT32FileAllocationTable.at, dif_pos bound]
    refine Layout.array_symm_ite Layout.word32 _ fun j => ?_
    rw [bytes, place]
    rfl
  · have outside (t : FAT32FileAllocationTable) : FAT32FileAllocationTable.at t c = 0 := dif_neg bound
    rw [Disk.fat, Disk.fat, outside, outside, outside, ite_self]

theorem fat_torn {t : FAT32FileAllocationTable} :
    (d.writeEach ((ClusterWrite.blocks ⟨fatClusterNumber, FAT32FileAllocationTable.layout t⟩).take n)).fat c =
      if c / 128 < n then FAT32FileAllocationTable.at t c else d.fat c := by
  have inside : fatClusterNumber < 2 ^ 26 := by decide
  refine fat_blocks (· < n) (fun j => ?_) c
  have stored := cluster_torn (w := ⟨fatClusterNumber, FAT32FileAllocationTable.layout t⟩) (d := d)
    (c := fatClusterNumber) (j := j) (n := n) inside
  simpa using stored

/-- A directory entry too lies in one block. -/
theorem table_torn {t : FAT32DirectoryTable} (inside : c < 2 ^ 26) (i : Fin 64) :
    (d.writeEach ((ClusterWrite.blocks ⟨c, FAT32DirectoryTable.layout t⟩).take n)).table c i =
      if i.val / 16 < n then t i else d.table c i := by
  refine Layout.array_symm_ite FAT32DirectoryEntry.layout _ fun j => ?_
  have small := j.isLt
  have place : (finProdFinEquiv (i, j)).val / 512 = i.val / 16 := by
    simp only [finProdFinEquiv_apply_val]
    omega
  have stored := cluster_torn (w := ⟨c, FAT32DirectoryTable.layout t⟩) (d := d) (c := c) (j := finProdFinEquiv (i, j))
    (n := n) inside
  rw [stored, place]
  simp only [true_and]
  rfl

theorem fat_congr (same : d'.cluster fatClusterNumber = d.cluster fatClusterNumber) : d'.fat = d.fat := by
  funext c
  rw [fat, fat, fatTable, fatTable, same]

end Disk

namespace Fat32

open Kernel Volume

variable {d d₁ d' : Disk} {w : ClusterWrite} {k k' : Kernel} {request : FAT32DriverRequest} {p c n : Nat} {l : List Nat}
  {s : Fin 64} {e : FAT32DirectoryEntry} {code : Int8}

/-! ## Writes -/

theorem Differs.writeBlock (differs : Differs l d d₁) (inside : ∀ c ∈ l, 3 ≤ c ∧ c < 512) (harmless : Harmless d l w)
    (i : Fin 4) : Differs l d (d₁.writeBlock (w.block i)) := by
  rcases harmless with member | ⟨t, rfl, agrees⟩
  · have bounds := inside _ member
    have elsewhere {c : Nat} (other : c ≠ w.clusterNumber) :
        (d₁.writeBlock (w.block i)).cluster c = d₁.cluster c := by
      funext j
      rw [Disk.cluster_writeBlock (by omega), if_neg fun both => other both.1]
    refine ⟨fun c outside => ?_, fun c notFat outside => ?_⟩
    · rw [Disk.fat_congr (elsewhere (by simp only [fatClusterNumber]; omega)), differs.fat c outside]
    · have different : c ≠ w.clusterNumber := by
        rintro rfl
        exact outside member
      rw [elsewhere different, differs.frame c notFat outside]
  · refine ⟨fun c outside => ?_, fun c notFat outside => ?_⟩
    · have inTable : fatClusterNumber < 2 ^ 26 := by decide
      have entries := Disk.fat_blocks (fun block => block = i.val) (d := d₁) (t := t) fun j => by
        simpa using Disk.cluster_writeBlock (c := fatClusterNumber) (j := j) (i := i) (d := d₁)
          (w := ⟨fatClusterNumber, FAT32FileAllocationTable.layout t⟩) inTable
      rw [entries c]
      split
      · exact agrees c outside
      · exact differs.fat c outside
    · rw [← differs.frame c notFat outside]
      funext j
      rw [Disk.cluster_writeBlock (show fatClusterNumber < 2 ^ 26 by decide), if_neg fun both => notFat both.1]

theorem Differs.writeEach {blocks : List BlockWrite} (differs : Differs l d d₁) (inside : ∀ c ∈ l, 3 ≤ c ∧ c < 512)
    (harmless : ∀ b ∈ blocks, ∃ w i, Harmless d l w ∧ b = ClusterWrite.block w i) :
    Differs l d (d₁.writeEach blocks) := by
  induction blocks generalizing d₁ with
  | nil => exact differs
  | cons b blocks ih =>
    obtain ⟨w, i, harmless₁, rfl⟩ := harmless b List.mem_cons_self
    exact ih (differs.writeBlock inside harmless₁ i) fun b member => harmless b (List.mem_cons_of_mem _ member)

theorem mem_blocks {b : BlockWrite} {log : List ClusterWrite} (member : b ∈ log.flatMap ClusterWrite.blocks) :
    ∃ w ∈ log, ∃ i, b = ClusterWrite.block w i := by
  obtain ⟨w, inLog, block⟩ := List.mem_flatMap.mp member
  obtain ⟨i, _, rfl⟩ := List.mem_map.mp block
  exact ⟨w, inLog, i, rfl⟩

/-- The log is empty, or it ends with the table of directory `p`. -/
def EndsWithTable (p : Nat) (log : List ClusterWrite) : Prop :=
  log = [] ∨ ∃ before last, log = before ++ [last] ∧ last.clusterNumber = p

theorem writeFolderLog_ends {cluster : Nat} :
    EndsWithTable request.parentClusterNumber.toNat (writeFolderLog k request cluster) := by
  unfold writeFolderLog
  split
  · exact .inl rfl
  · split
    · exact .inl rfl
    · exact .inr ⟨[_, _], _, rfl, rfl⟩

theorem writeFileLog_ends {cluster : Nat} (answer : writeFile k request cluster = some (code, k')) :
    EndsWithTable request.parentClusterNumber.toNat (writeFileLog k request cluster) := by
  unfold writeFile at answer
  unfold writeFileLog
  split at answer
  · rename_i taken
    exact .inl (if_pos taken)
  · rename_i new
    simp only [Option.bind_eq_bind, Option.bind_eq_some_iff] at answer
    obtain ⟨clusterTable, place, k₁, entered, k₂, placed, answer⟩ := answer
    rw [if_neg new]
    simp only [place, namedEntry, entered, placed]
    exact .inr ⟨_, _, rfl, rfl⟩

theorem writeLog_ends (answer : write k request = some (code, k')) :
    EndsWithTable request.parentClusterNumber.toNat (writeLog k request) := by
  unfold write at answer
  unfold writeLog
  simp only at answer ⊢
  split at answer
  · rename_i invalid
    exact .inl (if_pos invalid)
  · rename_i valid
    simp only [Option.bind_eq_bind, Option.bind_eq_some_iff] at answer
    obtain ⟨cluster, found, answer⟩ := answer
    rw [if_neg valid, found]
    split at answer
    · rename_i folder
      simp only [folder, ↓reduceIte]
      exact writeFolderLog_ends
    · rename_i file
      simp only [file, ↓reduceIte]
      exact writeFileLog_ends answer

/-- The last write is that of the parent's table. -/
theorem writeLog_last {before : List ClusterWrite} {last : ClusterWrite} (answer : write k request = some (code, k'))
    (log : writeLog k request = before ++ [last]) : last.clusterNumber = request.parentClusterNumber.toNat := by
  cases writeLog_ends answer with
  | inl none =>
    rw [log] at none
    simp at none
  | inr ends =>
    obtain ⟨before', last', log', number⟩ := ends
    obtain ⟨_, same⟩ := List.append_inj' (log.symm.trans log') rfl
    rw [List.singleton_inj.mp same, number]

theorem Harmless.inside (harmless : Harmless d l w) (inside : ∀ c ∈ l, 3 ≤ c ∧ c < 512) : w.clusterNumber < 512 := by
  cases harmless with
  | inl member =>
    have bounds := inside _ member
    omega
  | inr fat =>
    obtain ⟨t, rfl, _⟩ := fat
    exact show fatClusterNumber < 512 by decide

/-- Every cluster that an accepted write stores has an allocation entry. -/
theorem Written.writeLog_inside (written : Written request p s e l k k') (sound : k.disk.Sound)
    (parent : request.parentClusterNumber.toNat = p) (answer : write k request = some (code, k')) :
    ∀ w ∈ writeLog k request, w.clusterNumber < 512 := by
  obtain ⟨before, last, log, harmless⟩ := writeLog_split sound parent written
  have number : last.clusterNumber = p := (writeLog_last answer log).trans parent
  intro w member
  rw [log, List.mem_append, List.mem_singleton] at member
  rcases member with earlier | rfl
  · exact (harmless w earlier).inside fun c member => written.added.mem_range sound.volume member
  · rw [number]
    exact (sound.volume.directory_range written.added.parent).2

/-- What a torn write of the parent's table leaves is what was there before it, or the whole of the write. -/
theorem Written.torn_table {before : List ClusterWrite} {last : ClusterWrite} (written : Written request p s e l k k')
    (sound : k.disk.Sound) (parent : request.parentClusterNumber.toNat = p) (answer : write k request = some (code, k'))
    (log : writeLog k request = before ++ [last]) (differs : Differs l k.disk (k.disk.writeAll before)) (n : Nat) :
    (k.disk.writeAll before).writeEach (last.blocks.take n) = k.disk.writeAll before ∨
      (k.disk.writeAll before).writeEach (last.blocks.take n) = k'.disk := by
  have directory := written.added.parent
  have range := sound.volume.directory_range directory
  have number : last.clusterNumber = p := (writeLog_last answer log).trans parent
  have whole : (k.disk.writeAll before).writeCluster last = k'.disk := by
    have all := writeAll_writeLog answer
    rw [log, Disk.writeAll_append] at all
    exact all
  have old : (k.disk.writeAll before).table last.clusterNumber = k.disk.table p := by
    rw [number]
    refine Disk.table_congr (differs.frame p (by simp only [fatClusterNumber]; omega) fun member => ?_)
    have used := sound.volume.directory_fat directory
    exact absurd (used.symm.trans (written.added.fresh p member)) (by decide)
  have new : last.data = FAT32DirectoryTable.layout (Function.update (k.disk.table p) s e) := by
    have table : k'.disk.table p = Function.update (k.disk.table p) s e := written.added.tableParent
    rw [← table, ← whole, Disk.writeCluster_eq (by omega), number, Disk.table, Disk.cluster_setCluster,
      Equiv.apply_symm_apply]
  have torn := Disk.writeEach_slot (n := n) (by omega) old new
  rwa [whole] at torn

/-- What a torn write leaves: nothing is stored, or only clusters of the new entry, or all of the write. -/
theorem torn_write (sound : k.disk.Sound) (directory : k.disk.volume.Directory p)
    (parent : request.parentClusterNumber.toNat = p) (room : Room k.disk p request.bufferSize) (n : Nat) :
    k.disk.torn (writeLog k request) n = k.disk ∨
      ∃ k' s e l, Written request p s e l k k' ∧
        (Differs l k.disk (k.disk.torn (writeLog k request) n) ∨ k.disk.torn (writeLog k request) n = k'.disk) := by
  have inside := (sound.volume.directory_range directory).2
  unfold Disk.torn
  by_cases taken : Taken (k.disk.table p) request
  · left
    obtain ⟨c, rest, free⟩ := List.exists_cons_of_length_pos (Nat.lt_of_lt_of_le needed_pos room.clusters)
    rw [writeLog_taken parent inside (sound.volume.directory_fat directory) free taken, List.flatMap_nil, List.take_nil]
    rfl
  · right
    obtain ⟨k', s, e, l, wrote, written⟩ := write_accepted sound directory parent room taken
    refine ⟨k', s, e, l, written, ?_⟩
    obtain ⟨before, last, log, harmless⟩ := writeLog_split sound parent written
    have same : Differs l k.disk k.disk := ⟨fun _ _ => rfl, fun _ _ _ => rfl⟩
    have range : ∀ c ∈ l, 3 ≤ c ∧ c < 512 := fun c member => written.added.mem_range sound.volume member
    rw [log, List.flatMap_append, List.take_append]
    by_cases early : n ≤ (before.flatMap ClusterWrite.blocks).length
    · -- the table of the parent is not yet begun
      rw [Nat.sub_eq_zero_of_le early, List.take_zero, List.append_nil]
      refine .inl (same.writeEach range fun b member => ?_)
      obtain ⟨w, inLog, i, block⟩ := mem_blocks (List.mem_of_mem_take member)
      exact ⟨w, i, harmless w inLog, block⟩
    · rw [List.take_of_length_le (by omega), Disk.writeEach_append,
        Disk.writeEach_flatMap fun w member => Nat.lt_trans ((harmless w member).inside range) (by decide),
        List.flatMap_singleton]
      have differs := same.writeAll range harmless
      cases written.torn_table sound parent wrote log differs (n - (before.flatMap ClusterWrite.blocks).length) with
      | inl old =>
        rw [old]
        exact .inl differs
      | inr new => exact .inr new

/-- On a well-formed disk with room, a write that was interrupted behind any of its blocks has harmed nothing. -/
theorem torn_write_unharmed (wellFormed : k.disk.WellFormed) (directory : k.disk.volume.Directory p)
    (parent : request.parentClusterNumber.toNat = p) (room : Room k.disk p request.bufferSize) (n : Nat) :
    Unharmed p k.disk (k.disk.torn (writeLog k request) n) := by
  have sound := wellFormed.sound
  rcases torn_write sound directory parent room n with same | ⟨k', s, e, l, written, differs | whole⟩
  · have nothing : Differs [] k.disk k.disk := ⟨fun _ _ => rfl, fun _ _ _ => rfl⟩
    rw [same]
    exact nothing.unharmed sound (by simp)
  · exact differs.unharmed sound written.added.fresh
  · rw [whole]
    exact written.unharmed sound

/-- On a new volume the write of `a.t` is interrupted in the middle of its second cluster. -/
theorem torn_write_unharmed_file :
    Unharmed rootClusterNumber zeroKernel.disk (zeroKernel.disk.torn (writeLog zeroKernel twoClusterFile) 10) :=
  torn_write_unharmed fresh_zeroKernel.regular.wellFormed .root rfl (room_zeroKernel (by decide)) 10

/-! ## Deletes -/

/-- On `d'` the other entries are as they are on `d`.  Slot `s` of directory `p` is as it was, or it is cleared and
    all clusters of its chain `l` are free. -/
structure HalfErased (p : Nat) (s : Fin 64) (l : List Nat) (d d' : Disk) : Prop where
  others : OthersKept p s d d'
  clusters : ∀ c ∈ l, d'.fat c = d.fat c ∨ d'.fat c = 0
  slot : d'.table p s = d.table p s ∨ (d'.table p s = .zero ∧ ∀ c ∈ l, d'.fat c = 0)

section Removal

variable (erased : Erased request p s l k k') (sound : k.disk.Sound)
include erased sound

theorem Erased.halfErased : HalfErased p s l k.disk k'.disk :=
  ⟨erased.othersKept sound, fun c member => .inr (erased.freed c member),
    .inr ⟨erased.removed.table_removed, erased.freed⟩⟩

/-- Only allocation entries of the chain are stored. -/
theorem Erased.halfErased_fat (cluster : ∀ c, c ≠ fatClusterNumber → d'.cluster c = k.disk.cluster c)
    (fat : ∀ c, d'.fat c = k.disk.fat c ∨ d'.fat c = k'.disk.fat c) : HalfErased p s l k.disk d' := by
  have range := sound.volume.directory_range erased.removed.slot.directory
  have table : d'.table p = k.disk.table p := Disk.table_congr (cluster p (by simp only [fatClusterNumber]; omega))
  refine ⟨erased.othersKept_fat sound cluster fun c outside => ?_, fun c member => ?_, .inl (congrFun table s)⟩
  · cases fat c with
    | inl old => exact old
    | inr new => exact new.trans (erased.removed.fatFrame c outside)
  · cases fat c with
    | inl old => exact .inl old
    | inr new => exact .inr (new.trans (erased.freed c member))

/-- The blocks of the allocation table come before those of the parent's table. -/
theorem Erased.torn (ends : Ends k k' p 0 (deleteLog k request)) (n : Nat) :
    HalfErased p s l k.disk (k.disk.torn (deleteLog k request) n) := by
  have range := sound.volume.directory_range erased.removed.slot.directory
  have cached : k'.fatWrite = ⟨fatClusterNumber, FAT32FileAllocationTable.layout k'.disk.fatTable⟩ := by
    rw [fatWrite, erased.cached]
  have inTable : k'.fatWrite.clusterNumber < 2 ^ 26 := show fatClusterNumber < 2 ^ 26 by decide
  have inside : (k'.dirTableWrite p).clusterNumber < 2 ^ 26 := show p < 2 ^ 26 by omega
  obtain ⟨failed, _⟩ | ⟨_, log, whole⟩ := ends
  · exact absurd rfl failed
  have half : k.disk.writeCluster k'.fatWrite = k.disk.setFat k'.disk.fatTable := by
    rw [cached]
    exact Disk.writeCluster_eq (show fatClusterNumber < 2 ^ 26 by decide)
  rw [log, Disk.writeAll_cons, half, Disk.writeAll_cons, Disk.writeAll_nil] at whole
  rw [Disk.torn, log, List.flatMap_cons, List.take_append]
  have length : k'.fatWrite.blocks.length = 4 := by simp [ClusterWrite.blocks]
  by_cases early : n ≤ 4
  · rw [length, Nat.sub_eq_zero_of_le early, List.take_zero, List.append_nil]
    refine erased.halfErased_fat sound (fun c notFat => Disk.cluster_torn_of_ne inTable notFat) fun c => ?_
    rw [cached, Disk.fat_torn]
    split
    · exact .inr rfl
    · exact .inl rfl
  · rw [List.take_of_length_le (by omega), Disk.writeEach_append, Disk.writeEach_blocks inTable, half,
      List.flatMap_singleton]
    have old : (k.disk.setFat k'.disk.fatTable).table (k'.dirTableWrite p).clusterNumber = k.disk.table p :=
      Disk.table_congr (Disk.cluster_setCluster_of_ne (by simp only [fatClusterNumber, dirTableWrite]; omega))
    have new : (k'.dirTableWrite p).data = FAT32DirectoryTable.layout (Function.update (k.disk.table p) s .zero) := by
      have table : k'.disk.table p = Function.update (k.disk.table p) s .zero := erased.removed.tableParent
      rw [← table, whole, Disk.writeCluster_eq inside, Disk.table]
      simp only [dirTableWrite, Disk.cluster_setCluster, Equiv.apply_symm_apply]
    cases Disk.writeEach_slot (n := n - k'.fatWrite.blocks.length) inside old new with
    | inl none =>
      rw [none]
      refine erased.halfErased_fat sound (fun c notFat => Disk.cluster_setCluster_of_ne notFat) fun c => .inr ?_
      rw [Disk.fat_setFat]
      rfl
    | inr stored =>
      rw [stored, ← whole]
      exact erased.halfErased sound

end Removal

/-- A delete that was interrupted behind any of its blocks has harmed no other entry, and where it has cleared the
    entry it has freed the chain. -/
theorem torn_delete_halfErased (regular : k.disk.Regular) (directory : k.disk.volume.Directory p)
    (parent : request.parentClusterNumber.toNat = p) (aimed : Aimed k.disk p request)
    (answer : delete k request = some (0, k')) (n : Nat) :
    ∃ s l, Erased request p s l k k' ∧ HalfErased p s l k.disk (k.disk.torn (deleteLog k request) n) := by
  obtain ⟨s, l, erased⟩ := delete_erased regular directory parent aimed answer
  exact ⟨s, l, erased, erased.torn regular.sound (parent ▸ delete_ends answer) n⟩

/-- The delete of `a.t` is interrupted in the middle of the allocation table. -/
theorem torn_delete_halfErased_file :
    ∃ k k' s l, Erased twoClusterFile rootClusterNumber s l k k' ∧
      HalfErased rootClusterNumber s l k.disk (k.disk.torn (deleteLog k twoClusterFile) 2) := by
  obtain ⟨k, k', regular, aimed, answer⟩ := run_twoClusterFile
  obtain ⟨s, l, erased, half⟩ := torn_delete_halfErased regular .root rfl aimed answer 2
  exact ⟨k, k', s, l, erased, half⟩

end Fat32

end Brother420
