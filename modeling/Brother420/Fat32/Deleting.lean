import Brother420.Fat32.Reading

/-! # The effect of a delete

`delete` has two paths.  A request of size 0 takes the slot that `folderTarget`
names, whatever it holds; any other request takes the first slot with its name
and extension and frees the chain found there.
-/

namespace Brother420.Fat32

open Packed (Bytes Layout)
open Linked (Chain)
open Kernel

variable {k : Kernel} {c p location : Nat} {l : List Nat} {i : Fin 64}

/-! ## Folders -/

theorem folderTarget_some {table : FAT32DirectoryTable} {name : Bytes 8}
    (found : findName table name = some i) :
    folderTarget table name = (i, (table i).cluster) := by
  unfold folderTarget
  rw [found]

theorem folderTarget_none {table : FAT32DirectoryTable} {name : Bytes 8}
    (absent : findName table name = none) :
    folderTarget table name = (0, 0) := by
  unfold folderTarget
  rw [absent]

/-- The folder path of `delete` for a target inside the allocation table. -/
theorem delete_folder {request : FAT32DriverRequest}
    (parent : request.parentClusterNumber.toNat = p)
    (inside : p < 512) (folder : request.bufferSize = 0)
    (target : folderTarget (k.disk.table p) request.name = (i, c)) (bound : c < 512) :
    delete k request =
      if occupied (k.disk.table c) then some (2, k.load p)
      else if request.name = rootName then some (-1, k.load p)
      else
        let fatTable := k.disk.fatTable.set c 0
        let table := Function.update (k.disk.table p) i .zero
        some (0, ⟨(k.disk.setFat fatTable).setTable p table, ⟨fatTable, table, k.driverState.clusterBuf⟩,
          k.memoryAfter⟩) := by
  have loaded := load_eq (k := k) (c := p) (by omega)
  have content : FAT32DirectoryTable.layout.symm ((k.load p).readClusters c) = k.disk.table c := by
    rw [readClusters_eq (by omega), loaded]
    rfl
  have named : memcmp request.name rootName = 0 ↔ request.name = rootName := memcmp_eq_zero_iff
  simp only [delete, folder, ↓reduceIte, deleteFolder, parent]
  rw [loaded] at content ⊢
  simp only [target, content, named, setClusterMap_eq bound, Option.bind_eq_bind, Option.bind_some, storeFat_eq,
    storeDirTable_eq (show p < 2 ^ 26 by omega)]

/-! ## Files -/

/-- The loop of `delete` frees every cluster of the chain it starts on. -/
theorem releaseChain_frees {fuel : Nat}
    (chain : Chain (fun x => fatTarget (FAT32FileAllocationTable.at k.driverState.fatTable x)) location l)
    (inside : ∀ x ∈ l, x < 512) (enough : l.length ≤ fuel) :
    ∃ m : FAT32FileAllocationTable,
      releaseChain fuel k location = some { k with driverState.fatTable := m } ∧
      ∀ x, FAT32FileAllocationTable.at m x =
        if x ∈ l then 0 else FAT32FileAllocationTable.at k.driverState.fatTable x := by
  induction fuel generalizing k location l with
  | zero =>
    obtain ⟨tail, rfl⟩ := chain.head_eq
    simp at enough
  | succ fuel ih =>
    have bound := inside location chain.head_mem
    have small : location % 2 ^ 16 = location := Nat.mod_eq_of_lt (by omega)
    have freed (x : Nat) :=
      congrFun (FAT32FileAllocationTable.at_set k.driverState.fatTable bound 0) x
    cases chain with
    | last stop =>
      -- the end marker is freed too, and the loop stops
      have stops : k.clusterMap location = fat32FatEndOfFile := by
        rw [clusterMap_eq bound]
        simpa [fatTarget] using stop
      refine ⟨k.driverState.fatTable.set location 0, ?_, ?_⟩
      · simp only [releaseChain, stops, ↓reduceIte, setClusterMap_eq bound]
      · intro x
        rw [freed x]
        simp [Function.update_apply]
    | @cons _ b rest step chain =>
      have distinct := (Chain.cons step chain).nodup
      obtain ⟨continues, value⟩ : k.clusterMap location ≠ fat32FatEndOfFile ∧ (k.clusterMap location).toNat = b := by
        rw [clusterMap_eq bound]
        exact fatTarget_eq_some.mp step
      -- the rest of the chain does not pass through the freed cluster
      have kept : Chain (fun x => fatTarget
          (FAT32FileAllocationTable.at (k.driverState.fatTable.set location 0) x)) b rest := by
        apply chain.congr
        intro x member
        have different : x ≠ location := fun same => (List.nodup_cons.mp distinct).1 (same ▸ member)
        rw [freed x, Function.update_of_ne different]
      obtain ⟨m, released, spec⟩ :=
        ih (k := { k with driverState.fatTable := k.driverState.fatTable.set location 0 })
        kept (fun x member => inside x (List.mem_cons_of_mem _ member)) (by simp at enough; omega)
      refine ⟨m, ?_, ?_⟩
      · simp only [releaseChain, continues, ↓reduceIte, small, setClusterMap_eq bound, Option.bind_eq_bind,
          Option.bind_some, value]
        exact released
      · intro x
        rw [spec x, freed x]
        by_cases here : x = location
        · subst here
          simp
        · simp [here]

/-- The file path of `delete` on an entry whose chain ends. -/
theorem delete_file {request : FAT32DriverRequest} (parent : request.parentClusterNumber.toNat = p)
    (inside : p < 512) (file : request.bufferSize ≠ 0)
    (found : findNameExt (k.disk.table p) request.name request.ext = some i)
    (chain : Chain (fun x => fatTarget (k.disk.fat x)) (k.disk.table p i).cluster l)
    (range : ∀ x ∈ l, x < 512) :
    ∃ k' m, delete k request = some (0, k') ∧ k'.driverState.fatTable = m ∧
      k'.disk = (k.disk.setFat m).setTable p (Function.update (k.disk.table p) i .zero) ∧
      ∀ x, FAT32FileAllocationTable.at m x = if x ∈ l then 0 else k.disk.fat x := by
  have loaded := load_eq (k := k) (c := p) (by omega)
  have short : l.length ≤ 2 ^ 16 := Nat.le_trans (chain.length_le range) (by decide)
  obtain ⟨m, released, freed⟩ := releaseChain_frees (k := { k with driverState :=
    ⟨k.disk.fatTable, Function.update (k.disk.table p) i .zero, k.driverState.clusterBuf⟩ }) chain range short
  simp only [delete, file, ↓reduceIte, parent]
  unfold deleteFile
  rw [loaded]
  simp only [found, released, parent, Option.bind_eq_bind, Option.bind_some, storeFat_eq,
    storeDirTable_eq (show p < 2 ^ 26 by omega)]
  exact ⟨_, m, rfl, rfl, rfl, freed⟩

theorem delete_absent {request : FAT32DriverRequest}
    (parent : request.parentClusterNumber.toNat = p)
    (inside : p < 512) (file : request.bufferSize ≠ 0)
    (absent : findNameExt (k.disk.table p) request.name request.ext = none) :
    delete k request = some (1, k.load p) := by
  simp only [delete, file, ↓reduceIte, parent]
  unfold deleteFile
  rw [load_eq (by omega)]
  simp only [absent]

end Brother420.Fat32
