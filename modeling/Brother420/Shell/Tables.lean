import Brother420.Fat32.Regular
import Brother420.Shell.Commands

/-! # What the commands find in a directory table -/

namespace Brother420.Shell

open Packed (Bytes)
open Linked (Chain)
open Fat32 Kernel Volume

variable {k : Kernel} {c p : Nat} {v : Volume} {table : FAT32DirectoryTable} {name : Bytes 8} {ext : Bytes 3}
  {i j : Fin 64}

theorem readTable_eq (inside : c < 2 ^ 26) : readTable k c = k.disk.table c := by
  rw [readTable, readClusters_eq inside]
  rfl

/-- Whatever the cluster, some cluster is overwritten. -/
theorem writeTable_mod : writeTable k table c = { k with disk := k.disk.setTable (c % 2 ^ 26) table } := by
  change { k with disk := @Memory.store 2048 k.disk (blockSize * (c * 4 % 2 ^ 32 % 2 ^ 28)) _ } = _
  rw [clusterAddress_mod]
  rfl

theorem writeTable_eq (inside : c < 2 ^ 26) :
    writeTable k table c = { k with disk := k.disk.setTable c table } := by
  rw [writeTable_mod, Nat.mod_eq_of_lt inside]

/-! ## Searches -/

theorem findLive_some :
    findLive table name ext = some i ↔
    (i ≠ 0 ∧ (table i).Live ∧ (table i).name = name ∧ (table i).ext = ext) ∧
      ∀ j, j < i → j ≠ 0 → (table j).Live → (table j).name = name → (table j).ext ≠ ext := by
  simp only [findLive, Fin.find?_eq_some_iff, Bool.and_eq_true, beq_iff_eq, decide_eq_true_eq, memcmp_eq_zero_iff,
    Bool.and_eq_false_imp, beq_eq_false_iff_ne, ne_eq, and_assoc, and_imp]

theorem findLive_none :
    findLive table name ext = none ↔
      ∀ j, j ≠ 0 → (table j).Live → (table j).name = name → (table j).ext ≠ ext := by
  simp only [findLive, Fin.find?_eq_none_iff, Bool.and_eq_true, beq_iff_eq, decide_eq_true_eq, memcmp_eq_zero_iff,
    Bool.and_eq_false_imp, beq_eq_false_iff_ne, ne_eq, and_imp]

theorem findEntry_some :
    findEntry table name ext = some i ↔ (i ≠ 0 ∧ (table i).name = name ∧ (table i).ext = ext) ∧
      ∀ j, j < i → j ≠ 0 → (table j).name = name → (table j).ext ≠ ext := by
  simp only [findEntry, Fin.find?_eq_some_iff, Bool.and_eq_true, beq_iff_eq, decide_eq_true_eq, memcmp_eq_zero_iff,
    Bool.and_eq_false_imp, beq_eq_false_iff_ne, ne_eq, and_assoc, and_imp]

theorem findEntry_none :
    findEntry table name ext = none ↔ ∀ j, j ≠ 0 → (table j).name = name → (table j).ext ≠ ext := by
  simp only [findEntry, Fin.find?_eq_none_iff, Bool.and_eq_true, beq_iff_eq, decide_eq_true_eq, memcmp_eq_zero_iff,
    Bool.and_eq_false_imp, beq_eq_false_iff_ne, ne_eq, and_imp]

theorem findFree_some :
    findFree table = some i ↔ (i ≠ 0 ∧ ¬ (table i).Live) ∧ ∀ j, j < i → j ≠ 0 → (table j).Live := by
  simp only [findFree, Fin.find?_eq_some_iff, Bool.and_eq_true, decide_eq_true_eq, Bool.not_eq_eq_eq_not, Bool.not_true,
    decide_eq_false_iff_not, Bool.and_eq_false_imp, Bool.not_false, ne_eq]

theorem findFree_none : findFree table = none ↔ ∀ j, j ≠ 0 → (table j).Live := by
  simp only [findFree, Fin.find?_eq_none_iff, decide_eq_true_eq, Bool.and_eq_false_imp, Bool.not_eq_eq_eq_not,
    Bool.not_false, ne_eq]

/-! ## Searches in a well-formed volume -/

/-- A slot in use is found under its own name. -/
theorem findLive_slot (wellFormed : v.WellFormed) (slot : v.Slot p i) :
    findLive (v.table p) (v.table p i).name (v.table p i).ext = some i := by
  refine findLive_some.mpr ⟨⟨slot.entry, slot.live, rfl, rfl⟩, ?_⟩
  intro j before _ live name ext
  have same := wellFormed.unique slot.directory live slot.live name ext
  omega

/-- No free slot has a name that is not empty. -/
theorem live_of_name (sound : v.Sound) (directory : v.Directory p) (named : name ≠ fun _ => 0)
    (same : (v.table p i).name = name) : (v.table p i).Live := by
  by_contra vacant
  rw [sound.free directory vacant] at same
  exact named same.symm

/-- The lookups of the driver find it too, when its name is not empty. -/
theorem findNameExt_slot (wellFormed : v.WellFormed) (slot : v.Slot p i)
    (named : (v.table p i).name ≠ fun _ => 0) :
    findNameExt (v.table p) (v.table p i).name (v.table p i).ext = some i := by
  refine findNameExt_some.mpr ⟨⟨rfl, rfl⟩, ?_⟩
  intro j before name ext
  have live := live_of_name wellFormed.toSound slot.directory named name
  have same := wellFormed.unique slot.directory live slot.live name ext
  omega

/-- With a name that is not empty the search that ignores the live flag finds the same slots. -/
theorem findEntry_eq_findLive (sound : v.Sound) (directory : v.Directory p)
    (named : name ≠ fun _ => 0) :
    findEntry (v.table p) name ext = findLive (v.table p) name ext := by
  have same : ∀ i, (i ≠ 0 && memcmp (v.table p i).name name == 0 && memcmp (v.table p i).ext ext == 0) =
      (i ≠ 0 && decide (v.table p i).Live && memcmp (v.table p i).name name == 0 &&
        memcmp (v.table p i).ext ext == 0) := by
    intro i
    -- a slot with the name is in use, so testing the flag changes nothing
    by_cases hit : (v.table p i).name = name
    · simp [live_of_name sound directory named hit]
    · have different : (memcmp (v.table p i).name name == 0) = false := by
        rw [beq_eq_false_iff_ne, ne_eq, memcmp_eq_zero_iff]
        exact hit
      simp [different]
  rw [findEntry, findLive, funext same]

section Read

variable {k' : Kernel} {l : List Nat} (wellFormed : k.disk.WellFormed) (slot : k.disk.volume.Slot p i)
  (file : (k.disk.table p i).filesize ≠ 0) (chain : k.disk.volume.SlotChain p i l)
include wellFormed slot file chain

/-- As long as the allocation table stays, any slot that is found and has the size and the first
    cluster of a file reads what is now on the clusters of the file. -/
theorem read_elsewhere (fat : k'.disk.fat = k.disk.fat)
    (size : (k'.disk.table p j).filesize = (k.disk.table p i).filesize)
    (cluster : (k'.disk.table p j).cluster = (k.disk.table p i).cluster)
    (request : FAT32DriverRequest) (parent : request.parentClusterNumber.toNat = p)
    (found : findNameExt (k'.disk.table p) request.name request.ext = some j)
    (enough : (k.disk.table p i).filesize ≤ request.bufferSize) :
    (read k' request).1 = (if (k'.disk.table p j).attributeByte = 1 then 1 else 0) ∧
      ∀ a, (read k' request).2.2 a =
        if (k'.disk.table p j).attributeByte = 1 then request.buf a
        else if a < 2048 * l.length then fileByte k'.disk l a else request.buf a := by
  have sound := wellFormed.volume.toSound
  -- the chain depends on the allocation table and on where the entry starts
  have chain' : Chain (fun c => fatTarget (k'.disk.fat c)) (k'.disk.table p j).cluster l := by
    rw [fat, cluster]
    exact chain
  have length : l.length = totalCluster (k'.disk.table p j).filesize := by
    rw [size, sound.length slot chain, clusters_eq_needed, needed, Disk.volume_table, if_neg file]
  exact read_entry k' request parent (sound.directory_range slot.directory).2 found chain'
    (fun c member => (sound.range slot chain member).2) length (size ▸ enough)

/-- The driver reads a file by its name. -/
theorem read_slot (named : name ≠ fun _ => 0) (isName : (k.disk.table p i).name = name)
    (isExt : (k.disk.table p i).ext = ext) (request : FAT32DriverRequest)
    (parent : request.parentClusterNumber.toNat = p) (asName : request.name = name)
    (asExt : request.ext = ext)
    (enough : (k.disk.table p i).filesize ≤ request.bufferSize) :
    (read k request).1 = (if (k.disk.table p i).attributeByte = 1 then 1 else 0) ∧
      ∀ a, (read k request).2.2 a =
        if (k.disk.table p i).attributeByte = 1 then request.buf a
        else if a < 2048 * l.length then fileByte k.disk l a else request.buf a := by
  have found : findNameExt (k.disk.table p) request.name request.ext = some i := by
    have lookup := findNameExt_slot wellFormed.volume slot (by rw [Disk.volume_table, isName]; exact named)
    rwa [Disk.volume_table, isName, isExt, ← asName, ← asExt] at lookup
  exact read_elsewhere wellFormed slot file chain rfl rfl rfl request parent found enough

end Read

end Brother420.Shell
