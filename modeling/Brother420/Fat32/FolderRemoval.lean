import Brother420.Fat32.Remounting

/-! # Removing a folder

The folder path of `delete` takes the first slot with the name, whatever its
extension.  It removes the folder it is meant for exactly when no slot in front
of the folder has the folder's name.
-/

namespace Brother420.Fat32

open Packed (Bytes Layout)
open Runs (Run)
open Kernel Volume

variable {k k' : Kernel} {request : FAT32DriverRequest} {p : Nat} {i m : Fin 64} {history : List (Request × Int8)}

/-- Slot `m` of directory `p` holds an empty folder. -/
structure EmptyFolderAt (v : Volume) (p : Nat) (m : Fin 64) : Prop extends v.Slot p m where
  folder : (v.table p m).filesize = 0
  empty : ∀ i, i ≠ 0 → ¬ (v.table (v.table p m).cluster i).Live

/-- The request that `rm` builds once it has matched an entry in directory `p`. -/
structure RemovalRequest (e : FAT32DirectoryEntry) (p : Nat) (request : FAT32DriverRequest) : Prop where
  name : request.name = e.name
  ext : request.ext = fun _ => 0
  parent : request.parentClusterNumber.toNat = p
  size : request.bufferSize = e.filesize

/-- The delete succeeds, clears slot `m` of directory `p` and frees the cluster of its entry; the
    other entries in use keep their slots and chains, and clusters other than the parent's table
    and the allocation table keep their bytes. -/
structure RemovesExactly (k : Kernel) (request : FAT32DriverRequest) (p : Nat) (m : Fin 64) (k' : Kernel) : Prop where
  answer : delete k request = some (0, k')
  table : k'.disk.table p = Function.update (k.disk.table p) m .zero
  fat : k'.disk.fat = Function.update k.disk.fat (k.disk.table p m).cluster 0
  others : ∀ i l, i ≠ m → k.disk.volume.Slot p i → k.disk.volume.SlotChain p i l →
    k'.disk.volume.Slot p i ∧ k'.disk.volume.SlotChain p i l
  frame : ∀ c, c ≠ fatClusterNumber → c ≠ p → k'.disk.cluster c = k.disk.cluster c

theorem removes_exactly_of_first (sound : k.disk.Sound) (target : EmptyFolderAt k.disk.volume p m)
    (removal : RemovalRequest (k.disk.table p m) p request) (notRoot : request.name ≠ rootName)
    (first : ∀ j, j < m → (k.disk.table p j).name ≠ request.name) :
    ∃ k', RemovesExactly k request p m k' := by
  have found : findName (k.disk.table p) request.name = some m :=
    findName_some.mpr ⟨removal.name.symm, first⟩
  have chain := (sound.volume.folder_chain ⟨target.toSlot, target.folder, rfl⟩).1
  rcases delete_folder_spec sound removal.parent (removal.size.trans target.folder) found target.toSlot chain with
    ⟨_, _, _, busy | root⟩ | ⟨k', answer, deleted, _, fat⟩
  · obtain ⟨i, entry, live⟩ := occupied_iff.mp busy
    exact absurd live (target.empty i entry)
  · exact absurd root notRoot
  · refine ⟨k', answer, deleted.removed.tableParent, fat, ?_, deleted.frame⟩
    intro i l other slot chain
    exact ⟨deleted.removed.slot_kept (fun _ => target.empty) slot (.inr other),
      deleted.removed.chain_kept sound.volume slot (.inr other) chain⟩

/-- A slot in front with the same name is hit instead, or turns the request away. -/
theorem removes_other_of_earlier (sound : k.disk.Sound) (target : EmptyFolderAt k.disk.volume p m)
    (removal : RemovalRequest (k.disk.table p m) p request) {j : Fin 64} (before : j < m)
    (same : (k.disk.table p j).name = request.name) : ¬ RemovesExactly k request p m k' := by
  intro removes
  have inside := (sound.volume.directory_range target.directory).2
  have bound := folderTarget_lt sound target.directory request.name
  cases found : findName (k.disk.table p) request.name with
  | none => exact findName_none.mp found j same
  | some i =>
    -- the first slot with the name is in front of the folder
    have earlier : i ≠ m := by
      rintro rfl
      exact (findName_some.mp found).2 j before same
    have hit := folderTarget_some found
    change (folderTarget (k.disk.table p) request.name).2 < 512 at bound
    rw [hit] at bound
    have answer := removes.answer
    rw [delete_folder removal.parent inside (removal.size.trans target.folder) hit bound] at answer
    split at answer
    · exact absurd (Prod.mk.inj (Option.some.inj answer)).1 (by decide)
    · split at answer
      · exact absurd (Prod.mk.inj (Option.some.inj answer)).1 (by decide)
      · obtain ⟨_, rfl⟩ := Prod.mk.inj (Option.some.inj answer)
        -- the answer 0 cleared slot `i`, so slot `m` still holds the folder
        have table := congrFun removes.table m
        rw [Disk.table_setTable, Function.update_of_ne (Ne.symm earlier), Function.update_self] at table
        have live : (k.disk.table p m).Live := target.live
        rw [table] at live
        exact FAT32DirectoryEntry.not_live_zero live

/-- After any run of guarded requests, the delete that `rm` issues for an empty folder removes
    that folder and nothing else if and only if no slot in front of it has its name. -/
theorem folder_removal_iff (run : Run perform Guarded Fresh history k)
    (target : EmptyFolderAt k.disk.volume p m)
    (removal : RemovalRequest (k.disk.table p m) p request)
    (notRoot : (k.disk.table p m).name ≠ rootName) :
    (∃ k', RemovesExactly k request p m k') ↔ ∀ j, j < m →
    (k.disk.table p j).name ≠ (k.disk.table p m).name := by
  have sound := (run.invariant mounted_inductive).sound
  rw [← removal.name] at notRoot ⊢
  constructor
  · rintro ⟨k', removes⟩ j before same
    exact removes_other_of_earlier sound target removal before same removes
  · exact removes_exactly_of_first sound target removal notRoot

/-! ## A file in a reused slot -/

def fileX : FAT32DriverRequest := ⟨fun _ => 0, text ['x'], text ['t'], 2, 1⟩

def folderA : FAT32DriverRequest := ⟨fun _ => 0, text ['a'], fun _ => 0, 2, 0⟩

def fileA : FAT32DriverRequest := ⟨fun _ => 0, text ['a'], text ['t'], 2, 1⟩

/-- The root holds the file `x.t` in slot 1 and the folder `a` in slot 2. -/
theorem run_fileX_folderA :
    ∃ k, Run perform Intended Fresh [(.write fileX, 0), (.write folderA, 0)] k ∧
      k.disk.table 2 = Function.update (Function.update freshRoot 1 (newEntry fileX 3)) 2 (newEntry folderA 4) ∧
      ∀ i, i ≠ 0 → k.disk.table 4 i = .zero := by
  obtain ⟨k₁, run₁, written₁⟩ :=
    run_first fileX (l := []) (by decide) (by decide) rfl rfl (by decide)
  obtain ⟨k₂, run₂, written₂⟩ := run_second folderA run₁ written₁ (t := []) (by decide) (by decide)
    (fun same => absurd same (by decide)) rfl rfl rfl
  have table₁ : k₁.disk.table 2 = Function.update freshRoot 1 (newEntry fileX 3) :=
    first_table written₁
  exact ⟨k₂, run₂, table₁ ▸ written₂.added.tableParent, (written₂.added.folder rfl).2.2⟩

/-- Then `x.t` is deleted: its slot is free again, and so are its clusters. -/
theorem run_deleted_fileX :
    ∃ k, Run perform Intended Fresh [(.write fileX, 0), (.write folderA, 0), (.delete fileX, 0)] k ∧
      k.disk.table 2 = Function.update
        (Function.update (Function.update freshRoot 1 (newEntry fileX 3)) 2 (newEntry folderA 4)) 1 .zero ∧
      (∃ c rest, freeList k.disk.fatTable = c :: rest) ∧ ∀ i, i ≠ 0 → k.disk.table 4 i = .zero := by
  obtain ⟨k, run, table, empty⟩ := run_fileX_folderA
  have sound := (run_regular run).sound
  have entry : k.disk.table 2 1 = newEntry fileX 3 := by
    rw [table, Function.update_of_ne (by decide), Function.update_self]
  have slot : k.disk.volume.Slot 2 1 := by
    refine ⟨.root, by decide, ?_⟩
    rw [Disk.volume_table, entry]
    exact live_newEntry
  have target : FileAt k.disk.volume 2 1 fileX.name fileX.ext := by
    refine ⟨slot, ?_, ?_, ?_⟩ <;> rw [Disk.volume_table, entry]
    · rw [filesize_newEntry]
      decide
    · exact name_newEntry
    · exact ext_newEntry (by decide)
  have found : findNameExt (k.disk.table 2) fileX.name fileX.ext = some 1 :=
    target.found (run_regular run).volume
  obtain ⟨l, chain, _⟩ := sound.volume.chain slot
  have parent : fileX.parentClusterNumber.toNat = 2 := rfl
  have size : fileX.bufferSize ≠ 0 := by decide
  obtain ⟨k', answer, deleted, freed⟩ := delete_file_spec sound parent size found slot chain
  have intended : Intended k (.delete fileX) := by
    refine ⟨.root, nofun, ?_⟩
    rintro r ⟨rfl⟩
    exact .inl ⟨1, target⟩
  have cleared : k'.disk.table 2 = Function.update (k.disk.table 2) 1 .zero :=
    deleted.removed.tableParent
  refine ⟨k', .step run intended answer, table ▸ cleared, ?_, ?_⟩
  · have member : (k.disk.table 2 1).cluster ∈ freeList k'.disk.fatTable :=
      mem_freeList.mpr ⟨slot_cluster sound slot, freed _ chain.head_mem⟩
    exact List.exists_cons_of_ne_nil (List.ne_nil_of_mem member)
  · intro i other
    have edge : k.disk.volume.Edge 2 2 4 :=
      edge_newEntry .root (by decide) rfl (by decide) (by rw [table, Function.update_self])
    have kept : k'.disk.table 4 = k.disk.table 4 :=
      deleted.removed.tableFrame 4 edge.directory_child (by decide)
    rw [kept, empty i other]

/-- When `a.t` is created after that, it goes to slot 1, in front of the folder `a`. -/
theorem run_reused_slot :
    ∃ k, Run perform Intended Fresh [(.write fileX, 0), (.write folderA, 0), (.delete fileX, 0), (.write fileA, 0)] k ∧
      EmptyFolderAt k.disk.volume 2 2 ∧ (k.disk.table 2 1).name = text ['a'] ∧
      (k.disk.table 2 2).name = text ['a'] := by
  obtain ⟨k, run, table, ⟨c, rest, free⟩, empty⟩ := run_deleted_fileX
  have slot : FirstFree (k.disk.table 2) 1 := by
    rw [table]
    refine ⟨by rw [Function.update_self]; exact FAT32DirectoryEntry.not_live_zero, ?_⟩
    intro j below
    obtain rfl : j = 0 := by omega
    rfl
  have new : ¬ Taken (k.disk.table 2) fileA := by
    rw [table]
    apply not_taken_update
    · apply not_taken_update
      · apply not_taken_update (not_taken_freshRoot (by decide) (by decide))
        rw [name_newEntry]
        exact fun same => absurd same (by decide)
      · intro _
        exact ⟨by decide, by decide⟩
    · exact fun same => absurd same (by decide)
  have parent : fileA.parentClusterNumber.toNat = 2 := rfl
  have count : ([c] : List Nat).length = needed fileA.bufferSize := show 1 = _ by decide
  obtain ⟨k', run', written⟩ := run_write run .root parent new (l := []) free count slot
  have table' : k'.disk.table 2 = Function.update (k.disk.table 2) 1 (newEntry fileA c) :=
    written.added.tableParent
  have entry : k.disk.table 2 2 = newEntry folderA 4 := by
    rw [table, Function.update_of_ne (by decide), Function.update_self]
  have entry' : k'.disk.table 2 2 = newEntry folderA 4 := by
    rw [table', Function.update_of_ne (by decide), entry]
  have edge {k : Kernel} (entry : k.disk.table 2 2 = newEntry folderA 4) : k.disk.volume.Edge 2 2 4 :=
    edge_newEntry .root (by decide) rfl (by decide) entry
  have kept : k'.disk.table 4 = k.disk.table 4 :=
    written.added.tableFrame 4 (edge entry).directory_child (by decide)
  refine ⟨k', run', ⟨(edge entry').toSlot, (edge entry').folder, ?_⟩, ?_, ?_⟩
  · intro i other
    rw [(edge entry').cluster, Disk.volume_table, kept, empty i other]
    exact FAT32DirectoryEntry.not_live_zero
  · rw [table', Function.update_self]
    exact name_newEntry
  · rw [entry']
    exact name_newEntry

/-- There the delete for the folder does not remove it. -/
theorem folder_removal_hits_file :
    ∃ k, Run perform Intended Fresh [(.write fileX, 0), (.write folderA, 0), (.delete fileX, 0), (.write fileA, 0)] k ∧
      EmptyFolderAt k.disk.volume 2 2 ∧ (k.disk.table 2 2).name ≠ rootName ∧
      RemovalRequest (k.disk.table 2 2) 2 folderA ∧ ¬ ∃ k', RemovesExactly k folderA 2 2 k' := by
  obtain ⟨k, run, target, nameFile, nameFolder⟩ := run_reused_slot
  have removal : RemovalRequest (k.disk.table 2 2) 2 folderA :=
    ⟨nameFolder.symm, rfl, rfl, target.folder.symm⟩
  refine ⟨k, run, target, ?_, removal, ?_⟩
  · rw [nameFolder]
    decide
  · rintro ⟨k', removes⟩
    exact removes_other_of_earlier (run_regular run).sound target removal (show (1 : Fin 64) < 2 by decide) nameFile
      removes

/-- Before `x.t` is deleted, the same delete removes exactly the folder. -/
theorem folder_removal_iff_behind_file :
    ∃ k k', Run perform Intended Fresh [(.write fileX, 0), (.write folderA, 0)] k ∧
      RemovesExactly k folderA 2 2 k' := by
  obtain ⟨k, run, table, empty⟩ := run_fileX_folderA
  have entry : k.disk.table 2 2 = newEntry folderA 4 := by
    rw [table, Function.update_self]
  have edge : k.disk.volume.Edge 2 2 4 := edge_newEntry .root (by decide) rfl (by decide) entry
  have target : EmptyFolderAt k.disk.volume 2 2 := by
    refine ⟨edge.toSlot, edge.folder, ?_⟩
    intro i other
    rw [edge.cluster, Disk.volume_table, empty i other]
    exact FAT32DirectoryEntry.not_live_zero
  have removal : RemovalRequest (k.disk.table 2 2) 2 folderA := by
    refine ⟨?_, rfl, rfl, ?_⟩ <;> rw [entry]
    · exact name_newEntry.symm
    · exact filesize_newEntry.symm
  have exact_ := folder_removal_iff (run_guarded run) target removal (by rw [entry, name_newEntry]; decide)
  obtain ⟨k', removes⟩ := exact_.mpr <| by
    intro j before
    rw [entry, name_newEntry, table, Function.update_of_ne (Fin.ne_of_lt before)]
    by_cases first : j = 1
    · rw [first, Function.update_self, name_newEntry]
      decide
    · obtain rfl : j = 0 := by omega
      decide
  exact ⟨k, k', run, removes⟩

end Brother420.Fat32
