import Brother420.Fat32.Names
import Brother420.Shell.Lines
import Brother420.Shell.Navigation

/-! # Renaming an entry

The rename branch of `mv` renames the slot, and then writes the new name over the
start of the first cluster of the entry.  That is the self entry of a folder, but
the first eleven bytes of a file.
-/

namespace Brother420

open Packed (Bytes Layout)
open Linked (Chain)
open Runs (Run)

namespace Fat32

/-- The bytes that the name and the extension of an entry take up. -/
def nameBytes (name : Bytes 8) (ext : Bytes 3) : Bytes 11 := fun i =>
  if h : i.val < 8 then name ⟨i, h⟩ else ext ⟨i - 8, by omega⟩

/-- Renaming the self entry rewrites the first eleven bytes of a table. -/
theorem layout_rename_self (table : FAT32DirectoryTable) (name : Bytes 8) (ext : Bytes 3)
    (j : Fin 2048) :
    FAT32DirectoryTable.layout (Function.update table 0 { table 0 with name := name, ext := ext }) j =
      if h : j.val < 11 then nameBytes name ext ⟨j, h⟩ else FAT32DirectoryTable.layout table j := by
  obtain ⟨⟨i, b⟩, rfl⟩ := finProdFinEquiv.surjective (show Fin (64 * 32) from j)
  have position : (finProdFinEquiv (i, b)).val = b.val + 32 * i.val := rfl
  rw [FAT32DirectoryTable.layout, Layout.array_apply, Layout.array_apply]
  -- byte `b` of entry `i` is byte `b + 32 * i` of the table
  by_cases self : i = 0
  · subst self
    rw [Function.update_self, FAT32DirectoryEntry.layout_rename]
    have here : (finProdFinEquiv ((0 : Fin 64), b)).val = b.val := position.trans (Nat.add_zero _)
    simp only [here, nameBytes]
    by_cases inName : b.val < 8
    · have inside : b.val < 11 := by omega
      simp only [inName, inside, ↓reduceDIte]
    · simp only [inName, ↓reduceDIte]
  · have behind : ¬ (finProdFinEquiv (i, b)).val < 11 := by
      rw [position]
      have positive : 0 < i.val := Fin.pos_iff_ne_zero.mpr self
      omega
    rw [Function.update_of_ne self, dif_neg behind]

end Fat32

namespace Shell

open Fat32 Kernel Volume

variable {k k' : Kernel} {s : ShellState} {p c selfLocation : Nat} {m : Fin 64} {old new : ShortName}
  {newExt : Bytes 3}

/-! ## What a rename is for -/

/-- A read under the new name gives what a read under the old name gave. -/
def ReadsAlike (k k' : Kernel) (p : Nat) (m : Fin 64) (old new : ShortName) : Prop :=
  ∀ request : FAT32DriverRequest, request.parentClusterNumber.toNat = p → request.name = old.name →
    request.ext = old.extension → (k.disk.table p m).filesize ≤ request.bufferSize →
    let before := read k request
    let after := read k' { request with name := new.name, ext := new.extension }
    after.1 = before.1 ∧ ∀ a, a < (k.disk.table p m).filesize.toNat → after.2.2 a = before.2.2 a

/-- The entry in slot `m` has the new name, and nothing else has changed. -/
structure Renames (k k' : Kernel) (p : Nat) (m : Fin 64) (old new : ShortName) : Prop where
  table : k'.disk.table p = Function.update (k.disk.table p) m (renamed (k.disk.table p m) new.name new.extension)
  folder : (k.disk.table p m).filesize = 0 →
    k'.disk.table (k.disk.table p m).cluster = Function.update (k.disk.table (k.disk.table p m).cluster) 0
      (renamed (k.disk.table (k.disk.table p m).cluster 0) new.name new.extension)
  file : (k.disk.table p m).filesize ≠ 0 → ReadsAlike k k' p m old new
  others : ∀ x, x ≠ p → x ≠ (k.disk.table p m).cluster → k'.disk.cluster x = k.disk.cluster x

/-- The file starts with the bytes of the name, as far as it goes. -/
def StartsWith (d : Disk) (p : Nat) (m : Fin 64) (name : Bytes 8) (ext : Bytes 3) : Prop :=
  ∀ i : Fin 11, i.val < (d.table p m).filesize.toNat →
    d.cluster (d.table p m).cluster ⟨i, by omega⟩ = nameBytes name ext i

/-! ## What the code does -/

/-- The disk after the rename branch. -/
def renamedDisk (d : Disk) (p : Nat) (m : Fin 64) (name : Bytes 8) (ext : Bytes 3) : Disk :=
  let c := (d.table p m).cluster
  (d.setTable p (Function.update (d.table p) m (renamed (d.table p m) name ext))).setTable c
    (Function.update (d.table c) 0 (renamed (d.table c 0) name ext))

theorem mvRename_eq (inside : s.currentDirectoryCluster < 2 ^ 26)
    (bound : (s.kernel.disk.table s.currentDirectoryCluster m).cluster < 2 ^ 26)
    (found : findLive (s.kernel.disk.table s.currentDirectoryCluster) old.name old.extension = some m) :
    mvRename s old.name old.extension new.name newExt =
      { s with kernel := { s.kernel with
        disk := renamedDisk s.kernel.disk s.currentDirectoryCluster m new.name newExt } } := by
  unfold mvRename
  simp only [readTable_eq inside]
  simp only [found]
  rw [readTable_eq bound, writeTable_eq inside, writeTable_eq bound]
  rfl

theorem mvRename_missing {name newName : Bytes 8} {ext : Bytes 3} (inside : s.currentDirectoryCluster < 2 ^ 26)
    (missing : findLive (s.kernel.disk.table s.currentDirectoryCluster) name ext = none) :
    mvRename s name ext newName newExt = s := by
  unfold mvRename
  simp only [readTable_eq inside]
  simp only [missing]

section Renamed

variable {d : Disk} {x : Nat} {name : Bytes 8} {ext : Bytes 3}

theorem renamedDisk_table (apart : (d.table p m).cluster ≠ p) :
    (renamedDisk d p m name ext).table p =
    Function.update (d.table p) m (renamed (d.table p m) name ext) := by
  rw [renamedDisk, Disk.table_setTable_of_ne (Ne.symm apart), Disk.table_setTable]

theorem renamedDisk_self :
    (renamedDisk d p m name ext).table (d.table p m).cluster =
      Function.update (d.table (d.table p m).cluster) 0 (renamed (d.table (d.table p m).cluster 0) name ext) := by
  rw [renamedDisk, Disk.table_setTable]

theorem renamedDisk_others (notParent : x ≠ p) (notFirst : x ≠ (d.table p m).cluster) :
    (renamedDisk d p m name ext).cluster x = d.cluster x :=
  (Disk.cluster_setCluster_of_ne notFirst).trans (Disk.cluster_setCluster_of_ne notParent)

theorem renamedDisk_source (apart : (d.table p m).cluster ≠ p) :
    (renamedDisk d p m name ext).table p m = renamed (d.table p m) name ext := by
  rw [renamedDisk_table apart, Function.update_self]

theorem renamedDisk_slot {i : Fin 64} (apart : (d.table p m).cluster ≠ p)
    (notSource : x ≠ p ∨ i ≠ m)
    (notSelf : x ≠ (d.table p m).cluster ∨ i ≠ 0) :
    (renamedDisk d p m name ext).table x i = d.table x i := by
  by_cases self : x = (d.table p m).cluster
  · rw [self, renamedDisk_self, Function.update_of_ne (notSelf.resolve_left (not_not.mpr self))]
  · by_cases parent : x = p
    · rw [parent, renamedDisk_table apart, Function.update_of_ne (notSource.resolve_left (not_not.mpr parent))]
    · rw [Disk.table_congr (renamedDisk_others parent self)]

theorem renamedDisk_fat (parent : p ≠ 1) (first : (d.table p m).cluster ≠ 1) :
    (renamedDisk d p m name ext).fat = d.fat := by
  rw [renamedDisk, Disk.fat_setTable first, Disk.fat_setTable parent]

/-- The first cluster of the entry starts with the new name, and goes on as before. -/
theorem renamedDisk_first (j : Fin 2048) :
    (renamedDisk d p m name ext).cluster (d.table p m).cluster j =
      if h : j.val < 11 then nameBytes name ext ⟨j, h⟩ else d.cluster (d.table p m).cluster j := by
  rw [renamedDisk, Disk.setTable, Disk.cluster_setCluster]
  have bytes := layout_rename_self (d.table (d.table p m).cluster) name ext j
  rw [Disk.table, Equiv.apply_symm_apply] at bytes
  exact bytes

end Renamed

/-! ## Reading a renamed file -/

section File

variable {l : List Nat} (wellFormed : k.disk.WellFormed) (slot : k.disk.volume.Slot p m)
include wellFormed slot

theorem renamed_fileByte (file : (k.disk.table p m).filesize ≠ 0)
    (chain : k.disk.volume.SlotChain p m l)
    (kernel : k'.disk = renamedDisk k.disk p m new.name newExt) (a : Nat) :
    fileByte k'.disk l a =
      if h : a < 11 then nameBytes new.name newExt ⟨a, h⟩ else fileByte k.disk l a := by
  have sound := wellFormed.volume.toSound
  obtain ⟨rest, rfl⟩ := chain.head_eq
  have distinct := List.nodup_cons.mp chain.nodup
  -- the name is in the first cluster; the others are not touched
  by_cases first : a < 2048
  · rw [fileByte_head first, fileByte_head first, kernel]
    exact renamedDisk_first ⟨a, first⟩
  · have notName : ¬ a < 11 := by omega
    rw [dif_neg notName, fileByte_cons (by omega), fileByte_cons (by omega)]
    apply fileByte_congr
    intro x member
    rw [kernel]
    apply renamedDisk_others
    · rintro rfl
      exact sound.file_not_directory slot file chain (List.mem_cons_of_mem _ member) slot.directory
    · rintro rfl
      exact distinct.1 member

/-- Under the new name the lookup finds the same slot. -/
theorem renamed_found (fresh : ∀ i, i ≠ m → ¬ (k.disk.table p i).Named new.name newExt)
    (kernel : k'.disk = renamedDisk k.disk p m new.name newExt) :
    findNameExt (k'.disk.table p) new.name newExt = some m := by
  have apart := wellFormed.volume.slot_cluster_ne slot
  rw [kernel, renamedDisk_table apart]
  refine findNameExt_some.mpr ⟨by rw [Function.update_self]; exact ⟨rfl, rfl⟩, ?_⟩
  intro j before name ext
  have other := Fin.ne_of_lt before
  rw [Function.update_of_ne other] at name ext
  exact fresh j other ⟨live_of_name wellFormed.volume.toSound slot.directory new.name_ne name, name, ext⟩

/-- A read under the new name answers as one under the old name does, and copies the bytes that stand there now. -/
theorem read_renamed (file : (k.disk.table p m).filesize ≠ 0)
    (chain : k.disk.volume.SlotChain p m l)
    (fresh : ∀ i, i ≠ m → ¬ (k.disk.table p i).Named new.name newExt)
    (kernel : k'.disk = renamedDisk k.disk p m new.name newExt)
    (request : FAT32DriverRequest) (parent : request.parentClusterNumber.toNat = p)
    (enough : (k.disk.table p m).filesize ≤ request.bufferSize) :
    let after := read k' { request with name := new.name, ext := newExt }
    after.1 = (if (k.disk.table p m).attributeByte = 1 then 1 else 0) ∧
      ∀ a, after.2.2 a =
        if (k.disk.table p m).attributeByte = 1 then request.buf a
        else if a < 2048 * l.length then fileByte k'.disk l a else request.buf a := by
  have sound := wellFormed.volume.toSound
  obtain ⟨lower, inside⟩ := sound.directory_range slot.directory
  have firstRange := sound.range slot chain chain.head_mem
  rw [Disk.volume_table] at firstRange
  have found := renamed_found wellFormed slot fresh kernel
  have entry : k'.disk.table p m = renamed (k.disk.table p m) new.name newExt := by
    rw [kernel, renamedDisk_source (sound.slot_cluster_ne slot)]
  have fat : k'.disk.fat = k.disk.fat := by
    rw [kernel, renamedDisk_fat (by omega) (by omega)]
  have copied := read_elsewhere wellFormed slot file chain fat (by rw [entry]; rfl) (by rw [entry]; rfl)
    { request with name := new.name, ext := newExt } parent found enough
  rw [entry] at copied
  exact copied

/-- The bytes of a file lie inside the clusters of its chain. -/
theorem size_le_chain (file : (k.disk.table p m).filesize ≠ 0) (chain : k.disk.volume.SlotChain p m l) :
    (k.disk.table p m).filesize.toNat ≤ 2048 * l.length := by
  have length := wellFormed.volume.toSound.length slot chain
  rw [length, clusters_eq_needed, needed, Disk.volume_table, if_neg file, totalCluster_eq]
  omega

/-- A renamed file reads alike if and only if `read` hides it or it already started with its new name. -/
theorem reads_alike_iff (file : (k.disk.table p m).filesize ≠ 0)
    (name : (k.disk.table p m).name = old.name)
    (ext : (k.disk.table p m).ext = old.extension)
    (fresh : ∀ i, i ≠ m → ¬ (k.disk.table p i).Named new.name new.extension)
    (kernel : k'.disk = renamedDisk k.disk p m new.name new.extension) :
    ReadsAlike k k' p m old new ↔
      (k.disk.table p m).attributeByte = 1 ∨ StartsWith k.disk p m new.name new.extension := by
  have sound := wellFormed.volume.toSound
  have inside := (sound.directory_range slot.directory).2
  obtain ⟨l, chain, _, _⟩ := sound.chain slot
  have size := size_le_chain wellFormed slot file chain
  have before (request : FAT32DriverRequest) (parent : request.parentClusterNumber.toNat = p)
      (isName : request.name = old.name) (isExt : request.ext = old.extension)
      (enough : (k.disk.table p m).filesize ≤ request.bufferSize) :=
    read_slot wellFormed slot file chain old.name_ne name ext request parent isName isExt enough
  have after := read_renamed wellFormed slot file chain fresh kernel
  have bytes := renamed_fileByte wellFormed slot file chain kernel
  have start {a : Nat} (small : a < 2048) :
      fileByte k.disk l a = k.disk.cluster (k.disk.table p m).cluster ⟨a, small⟩ := by
    obtain ⟨rest, rfl⟩ := chain.head_eq
    exact fileByte_head small
  constructor
  · intro alike
    by_cases hidden : (k.disk.table p m).attributeByte = 1
    · exact .inl hidden
    · right
      intro i within
      have parent : (UInt32.ofNat p).toNat = p :=
        UInt32.toNat_ofNat_of_lt' (Nat.lt_trans inside (by decide))
      -- any buffer of the file's size shows the difference
      let request : FAT32DriverRequest :=
        ⟨fun _ => 0, old.name, old.extension, UInt32.ofNat p, (k.disk.table p m).filesize⟩
      have enough : (k.disk.table p m).filesize ≤ request.bufferSize := UInt32.le_refl _
      have same := (alike request parent rfl rfl enough).2 i within
      rw [(before request parent rfl rfl enough).2 i, if_neg hidden, if_pos (by omega), start (by omega)] at same
      have second := (after request parent enough).2 i
      rw [if_neg hidden, if_pos (by omega), bytes, dif_pos i.isLt] at second
      exact same.symm.trans second
  · intro starts request parent isName isExt enough
    have first := before request parent isName isExt enough
    have second := after request parent enough
    refine ⟨second.1.trans first.1.symm, fun a within => ?_⟩
    rw [second.2 a, first.2 a]
    by_cases hidden : (k.disk.table p m).attributeByte = 1
    · rw [if_pos hidden, if_pos hidden]
    · rw [if_neg hidden, if_neg hidden, if_pos (by omega), if_pos (by omega), bytes]
      by_cases small : a < 11
      · rw [dif_pos small, start (by omega)]
        exact (starts.resolve_left hidden ⟨a, small⟩ within).symm
      · rw [dif_neg small]

/-- The rename branch renames exactly if it takes over the new extension, and the entry is a folder
    or a file that reads alike. -/
theorem renames_iff (name : (k.disk.table p m).name = old.name)
    (ext : (k.disk.table p m).ext = old.extension)
    (fresh : ∀ i, ¬ (k.disk.table p i).Named new.name new.extension)
    (kernel : k'.disk = renamedDisk k.disk p m new.name newExt) :
    Renames k k' p m old new ↔ newExt = new.extension ∧ ((k.disk.table p m).filesize = 0 ∨
      (k.disk.table p m).attributeByte = 1 ∨ StartsWith k.disk p m new.name new.extension) := by
  have apart := wellFormed.volume.slot_cluster_ne slot
  constructor
  · intro renames
    -- the extension that was stored shows whether it was taken over
    have entry := congrFun renames.table m
    rw [kernel, renamedDisk_table apart, Function.update_self, Function.update_self] at entry
    obtain rfl : newExt = new.extension := congrArg FAT32DirectoryEntry.ext entry
    refine ⟨rfl, ?_⟩
    by_cases file : (k.disk.table p m).filesize = 0
    · exact .inl file
    · exact .inr ((reads_alike_iff wellFormed slot file name ext (fun i _ => fresh i) kernel).mp (renames.file file))
  · rintro ⟨rfl, kept⟩
    refine ⟨?_, fun _ => ?_, fun file => ?_, fun x notParent notFirst => ?_⟩
    · rw [kernel, renamedDisk_table apart]
    · rw [kernel, renamedDisk_self]
    · exact (reads_alike_iff wellFormed slot file name ext (fun i _ => fresh i) kernel).mpr (kept.resolve_left file)
    · rw [kernel, renamedDisk_others notParent notFirst]

end File

/-- What the line `mv old new` does to an entry. -/
theorem rename_line (new : TargetName) (selfLocation : Nat) (wellFormed : s.kernel.disk.WellFormed)
    (slot : s.kernel.disk.volume.Slot s.currentDirectoryCluster m)
    (name : (s.kernel.disk.table s.currentDirectoryCluster m).name = old.name)
    (ext : (s.kernel.disk.table s.currentDirectoryCluster m).ext = old.extension) :
    ∃ s', commandCallMv s (lineOf (MvLine.rename old new).text) selfLocation = some s' ∧
      s'.kernel.disk = renamedDisk s.kernel.disk s.currentDirectoryCluster m new.name
        (if old.ext ≠ [] then new.extension else noExt) := by
  have range := wellFormed.volume.directory_range slot.directory
  have bound := slot_cluster wellFormed.sound slot
  have found : findLive (s.kernel.disk.table s.currentDirectoryCluster) old.name old.extension = some m := by
    have lookup := findLive_slot wellFormed.volume slot
    rwa [Disk.volume_table, name, ext] at lookup
  refine ⟨_, commandCallMv_rename, ?_⟩
  rw [mvRename_eq (by omega) (by omega) found]

/-! ## mv old new -/

/-- `mv old new` renames the entry and nothing else if and only if the old name has an extension
    when the new one has, and the entry is a folder, a file hidden from `read`, or a file
    that already starts with the bytes of its new name. -/
theorem rename_line_iff {new : TargetName} (wellFormed : s.kernel.disk.WellFormed)
    (slot : s.kernel.disk.volume.Slot s.currentDirectoryCluster m)
    (name : (s.kernel.disk.table s.currentDirectoryCluster m).name = old.name)
    (ext : (s.kernel.disk.table s.currentDirectoryCluster m).ext = old.extension)
    (fresh : ∀ i, (s.kernel.disk.table s.currentDirectoryCluster i).Live →
      (s.kernel.disk.table s.currentDirectoryCluster i).name = new.name →
      (s.kernel.disk.table s.currentDirectoryCluster i).ext ≠ new.extension) :
    (∃ s', commandCallMv s (lineOf (MvLine.rename old new).text) selfLocation = some s' ∧
        Renames s.kernel s'.kernel s.currentDirectoryCluster m old new) ↔
      (old.ext = [] → new.ext = []) ∧
        ((s.kernel.disk.table s.currentDirectoryCluster m).filesize = 0 ∨
          (s.kernel.disk.table s.currentDirectoryCluster m).attributeByte = 1 ∨
          StartsWith s.kernel.disk s.currentDirectoryCluster m new.name new.extension) := by
  obtain ⟨s', answer, kernel⟩ := rename_line new selfLocation wellFormed slot name ext
  have exact_ := renames_iff wellFormed slot name ext (fun i named => fresh i named.live named.name named.ext) kernel
  -- without an extension on the old name the new one is not read
  have sameExt : (if old.ext ≠ [] then new.extension else noExt) = new.extension ↔ (old.ext = [] → new.ext = []) := by
    by_cases dotless : old.ext = []
    · rw [if_neg (not_not.mpr dotless), eq_comm, new.extension_eq_noExt]
      exact ⟨fun empty _ => empty, fun empty => empty dotless⟩
    · rw [if_pos dotless]
      exact iff_of_true rfl fun empty => absurd empty dotless
  rw [sameExt] at exact_
  rw [← exact_, answer]
  simp only [Option.some.injEq, exists_eq_left']

/-- The folder `d` is renamed to `e`. -/
theorem rename_line_iff_folder :
    ∃ s s', commandCallMv s (lineOf (MvLine.rename nameD targetE).text) 0 = some s' ∧
      Renames s.kernel s'.kernel rootClusterNumber 1 nameD targetE := by
  obtain ⟨k, run, written⟩ := run_first folderD (l := []) (by decide) (by decide) rfl rfl rfl
  obtain ⟨slot, entry⟩ := first_entry written
  have fresh : ∀ i, (k.disk.table rootClusterNumber i).Live →
      (k.disk.table rootClusterNumber i).name = targetE.name →
      (k.disk.table rootClusterNumber i).ext ≠ targetE.extension :=
    fun i _ name => absurd name (first_names written targetE.name_ne (by decide) (by decide) i)
  have wellFormed : (startShell k).kernel.disk.WellFormed := (run_regular run).wellFormed
  have name : (k.disk.table rootClusterNumber 1).name = nameD.name := entry ▸ name_newEntry
  have ext : (k.disk.table rootClusterNumber 1).ext = nameD.extension := entry ▸ rfl
  have folder : (k.disk.table rootClusterNumber 1).filesize = 0 := entry ▸ filesize_newEntry
  exact ⟨startShell k, (rename_line_iff wellFormed slot name ext fresh).mpr ⟨fun _ => rfl, .inl folder⟩⟩

/-- The only byte of the file `a.t` is overwritten when it is renamed to `b.t`. -/
theorem rename_line_overwrites :
    ∃ k, Run perform Intended Fresh [(.write (zeroFile 1), 0)] k ∧
      k.disk.volume.Slot rootClusterNumber 1 ∧
      (k.disk.table rootClusterNumber 1).name = nameAT.name ∧
      (k.disk.table rootClusterNumber 1).ext = nameAT.extension ∧
      (∀ i, (k.disk.table rootClusterNumber i).Live → (k.disk.table rootClusterNumber i).name ≠ targetBT.name) ∧
      ¬ ∃ s', commandCallMv (startShell k) (lineOf (MvLine.rename nameAT targetBT).text) 0 = some s' ∧
        Renames k s'.kernel rootClusterNumber 1 nameAT targetBT := by
  obtain ⟨k, run, written⟩ :=
    run_first (zeroFile 1) (l := []) (by decide) (by decide) rfl rfl (by decide)
  obtain ⟨slot, entry⟩ := first_entry written
  have unused : ∀ i, (k.disk.table rootClusterNumber i).name ≠ targetBT.name :=
    first_names written targetBT.name_ne (by decide) (by decide)
  have wellFormed := (run_regular run).wellFormed
  have name : (k.disk.table rootClusterNumber 1).name = nameAT.name := entry ▸ name_newEntry
  have ext : (k.disk.table rootClusterNumber 1).ext = nameAT.extension :=
    entry ▸ ext_newEntry (by decide)
  refine ⟨k, run, slot, name, ext, fun i _ => unused i, ?_⟩
  rintro ⟨s', answer, renames⟩
  obtain ⟨s'', answer', disk⟩ := rename_line (s := startShell k) targetBT 0 wellFormed slot name ext
  rw [answer] at answer'
  rw [← Option.some.inj answer'] at disk
  have kept := ((renames_iff wellFormed slot name ext (fun i named => unused i named.name) disk).mp renames).2
  rw [entry, filesize_newEntry] at kept
  have starts : StartsWith k.disk rootClusterNumber 1 targetBT.name targetBT.extension := by
    rcases kept with folder | hidden | starts
    · exact absurd folder (by decide)
    · exact absurd hidden (by decide)
    · exact starts
  have size : (0 : Nat) < (k.disk.table rootClusterNumber 1).filesize.toNat := by
    rw [entry, filesize_newEntry]
    decide
  -- the first byte of the file is 0 and that of the new name is not
  have byte := starts 0 size
  have cluster : (k.disk.table rootClusterNumber 1).cluster = 3 :=
    entry ▸ cluster_newEntry (by decide)
  rw [cluster, written.content (by decide) 0 3 rfl] at byte
  exact absurd byte (by decide)

end Shell

end Brother420
