import Brother420.Fat32.Writing
import Brother420.Fat32.Deleting

/-! # Writes and deletes as changes of the volume

On a sound disk a write with room either is refused or adds one entry, and a
delete whose match is in use either is refused or removes that entry.
-/

namespace Brother420.Fat32

open Packed (Bytes Layout)
open Linked (Chain link)
open Kernel Volume

variable {k k' : Kernel} {request : FAT32DriverRequest} {c p : Nat} {s : Fin 64} {e : FAT32DirectoryEntry}
  {l : List Nat}

/-! ## Writing -/

/-- The number of clusters that a write of `size` bytes takes. -/
def needed (size : UInt32) : Nat := if size = 0 then 1 else totalCluster size

/-- The parent's table has a free slot and the allocation table enough free clusters. -/
structure Room (d : Disk) (p : Nat) (size : UInt32) : Prop where
  slot : ∃ i, ¬ (d.table p i).Live
  clusters : needed size ≤ (freeList d.fatTable).length

/-- A slot of the table, in use or not, has the name that the request would create. -/
def Taken (table : FAT32DirectoryTable) (request : FAT32DriverRequest) : Prop :=
  ∃ i, (table i).name = request.name ∧ (request.bufferSize ≠ 0 → (table i).ext = request.ext)

theorem taken_folder_iff {table : FAT32DirectoryTable} (folder : request.bufferSize = 0) :
    Taken table request ↔ (findName table request.name).isSome = true := by
  rw [Option.isSome_iff_ne_none, ne_eq, findName_none, not_forall]
  simp only [Taken, ne_eq, not_not, folder, not_true_eq_false, false_imp_iff, and_true]

theorem taken_file_iff {table : FAT32DirectoryTable} (file : request.bufferSize ≠ 0) :
    Taken table request ↔ (findNameExt table request.name request.ext).isSome = true := by
  rw [Option.isSome_iff_ne_none, ne_eq, findNameExt_none, not_forall]
  simp only [Taken, ne_eq, Classical.not_imp, not_not, file, not_false_eq_true, forall_true_left]

/-- The search that a write of a folder makes for a new name. -/
theorem findName_of_new {table : FAT32DirectoryTable} (folder : request.bufferSize = 0)
    (new : ¬ Taken table request) : findName table request.name = none :=
  Option.not_isSome_iff_eq_none.mp (mt (taken_folder_iff folder).mpr new)

theorem findNameExt_of_new {table : FAT32DirectoryTable} (file : request.bufferSize ≠ 0)
    (new : ¬ Taken table request) : findNameExt table request.name request.ext = none :=
  Option.not_isSome_iff_eq_none.mp (mt (taken_file_iff file).mpr new)

/-- No slot in use has the name that the request would create. -/
def NewName (table : FAT32DirectoryTable) (request : FAT32DriverRequest) : Prop :=
  ∀ i, (table i).Live → (table i).name = request.name → request.bufferSize ≠ 0 ∧ (table i).ext ≠ request.ext

/-- The name that the request would create is all zeros, as in a free slot. -/
def FAT32DriverRequest.Unnamed (request : FAT32DriverRequest) : Prop :=
  request.name = (fun _ => 0) ∧ (request.bufferSize ≠ 0 → request.ext = fun _ => 0)

theorem newName_of_not_taken {table : FAT32DirectoryTable} (new : ¬ Taken table request) : NewName table request := by
  intro i _ name
  by_contra same
  exact new ⟨i, name, fun file => by_contra fun ext => same ⟨file, ext⟩⟩

theorem NewName.update {table : FAT32DirectoryTable} (new : NewName table request)
    (different : e.name ≠ request.name) : NewName (Function.update table s e) request := by
  intro i live name
  by_cases here : i = s
  · rw [here, Function.update_self] at name
    exact absurd name different
  · rw [Function.update_of_ne here] at live name ⊢
    exact new i live name

/-- Next to a free slot, a name that no slot in use has is taken exactly if it is zeros. -/
theorem taken_iff_unnamed (sound : k.disk.Sound) (directory : k.disk.volume.Directory p)
    (new : NewName (k.disk.table p) request) (vacant : ¬ (k.disk.table p s).Live) :
    Taken (k.disk.table p) request ↔ request.Unnamed := by
  have empty {j : Fin 64} (vacant : ¬ (k.disk.table p j).Live) : k.disk.table p j = .zero :=
    sound.volume.free directory vacant
  constructor
  · rintro ⟨j, name, ext⟩
    have free : ¬ (k.disk.table p j).Live := fun live => (new j live name).2 (ext (new j live name).1)
    rw [empty free] at name ext
    exact ⟨name.symm, fun file => (ext file).symm⟩
  · rintro ⟨name, ext⟩
    refine ⟨s, ?_, fun file => ?_⟩ <;> rw [empty vacant]
    · exact name.symm
    · exact (ext file).symm

/-- A write added the entry `e` in slot `s` of directory `p`, on the clusters `l`. -/
structure Written (request : FAT32DriverRequest) (p : Nat) (s : Fin 64) (e : FAT32DirectoryEntry) (l : List Nat)
    (k k' : Kernel) : Prop where
  added : Added k.disk.volume k'.disk.volume p s e l
  cached : k'.driverState.fatTable = k'.disk.fatTable
  boot : k'.disk.bootSector = k.disk.bootSector
  frame : ∀ x, x ≠ 1 → x ≠ p → x ∉ l → k'.disk.cluster x = k.disk.cluster x
  name : e.name = request.name
  ext : e.ext = if request.bufferSize = 0 then fun _ => 0 else request.ext
  filesize : e.filesize = request.bufferSize
  plain : e.attributeByte = 0
  newName : ¬ Taken (k.disk.table p) request
  first : FirstFree (k.disk.table p) s
  free : ∃ rest, freeList k.disk.fatTable = l ++ rest
  content : request.bufferSize ≠ 0 → ∀ j x, l[j]? = some x → k'.disk.cluster x = lastCluster request j

theorem firstFree_of_vacant {table : FAT32DirectoryTable} (vacant : ∃ i, ¬ (table i).Live) :
    ∃ s, FirstFree table s := by
  cases found : Fin.find? fun i => decide ¬ (table i).Live with
  | none =>
    obtain ⟨i, notLive⟩ := vacant
    have live := Fin.find?_eq_none_iff.mp found i
    simp [notLive] at live
  | some s =>
    obtain ⟨notLive, before⟩ := Fin.find?_eq_some_iff.mp found
    exact ⟨s, by simpa using notLive, fun j below => by simpa using before j below⟩

/-- Filling the first free slot moves the search to the next slot. -/
theorem FirstFree.update {table : FAT32DirectoryTable} {s' : Fin 64} (first : FirstFree table s)
    (live : e.Live)
    (next : s'.val = s.val + 1) (vacant : ¬ (table s').Live) :
    FirstFree (Function.update table s e) s' := by
  have apart : s' ≠ s := by
    rintro rfl
    omega
  refine ⟨by rwa [Function.update_of_ne apart], ?_⟩
  intro j below
  by_cases here : j = s
  · rw [here, Function.update_self]
    exact live
  · rw [Function.update_of_ne here]
    exact first.2 j (by omega)

theorem not_taken_update {table : FAT32DirectoryTable} (new : ¬ Taken table request)
    (different : e.name = request.name → request.bufferSize ≠ 0 ∧ e.ext ≠ request.ext) :
    ¬ Taken (Function.update table s e) request := by
  rintro ⟨i, name, ext⟩
  by_cases here : i = s
  · rw [here, Function.update_self] at name ext
    exact (different name).2 (ext (different name).1)
  · rw [Function.update_of_ne here] at name ext
    exact new ⟨i, name, ext⟩

theorem cluster_initDirectoryTable {name : Bytes 8} (inside : c < 512) :
    (initDirectoryTable (fun _ => .zero) name c 0).cluster = c := by
  -- below 512 the high word is 0 and the low word is the whole number
  have high : c >>> 16 = 0 := by
    rw [Nat.shiftRight_eq_div_pow]
    omega
  have low : c &&& 0xFFFF = c := by
    rw [show (0xFFFF : Nat) = 2 ^ 16 - 1 by rfl, Nat.and_two_pow_sub_one_eq_mod]
    omega
  have word : (initDirectoryTable (fun _ => .zero) name c 0).cluster = c % 2 ^ 16 := by
    apply FAT32DirectoryEntry.cluster_of_low
    · simp only [initDirectoryTable, Function.update_self, high]
      rfl
    · simp only [initDirectoryTable, Function.update_self, low]
  omega

theorem initDirectoryTable_other {name : Bytes 8} {i : Fin 64} (entry : i ≠ 0) :
    initDirectoryTable (fun _ => .zero) name c i = .zero := by
  simp [initDirectoryTable, entry]

theorem firstFree_initDirectoryTable {name : Bytes 8} :
    FirstFree (initDirectoryTable (fun _ => .zero) name c) 1 := by
  refine ⟨by rw [initDirectoryTable_other (by decide)]; exact FAT32DirectoryEntry.not_live_zero, ?_⟩
  intro j below
  obtain rfl : j = 0 := by omega
  rfl

theorem cluster_fileEntry (inside : c < 512) : (fileEntry .zero request c).cluster = c := by
  have word : (fileEntry .zero request c).cluster = c % 2 ^ 16 :=
    FAT32DirectoryEntry.cluster_of_low rfl rfl
  omega

/-- The entry that an accepted write adds, on a chain that starts at cluster `c`. -/
def newEntry (request : FAT32DriverRequest) (c : Nat) : FAT32DirectoryEntry :=
  if request.bufferSize = 0 then initDirectoryTable (fun _ => .zero) request.name c 0 else fileEntry .zero request c

theorem live_newEntry : (newEntry request c).Live := by
  unfold newEntry
  split <;> rfl

theorem name_newEntry : (newEntry request c).name = request.name := by
  unfold newEntry
  split <;> rfl

theorem filesize_newEntry : (newEntry request c).filesize = request.bufferSize := by
  unfold newEntry
  split
  · rename_i folder
    exact folder.symm
  · simp [fileEntry, FAT32DirectoryEntry.zero]

theorem ext_newEntry (file : request.bufferSize ≠ 0) : (newEntry request c).ext = request.ext := by
  rw [newEntry, if_neg file]
  rfl

theorem cluster_newEntry (inside : c < 512) : (newEntry request c).cluster = c := by
  unfold newEntry
  split
  · exact cluster_initDirectoryTable inside
  · exact cluster_fileEntry inside

/-- A directory that holds the entry of a folder request has that folder. -/
theorem edge_newEntry {i : Fin 64} (directory : k.disk.volume.Directory p) (entry : i ≠ 0)
    (folder : request.bufferSize = 0) (inside : c < 512)
    (placed : k.disk.table p i = newEntry request c) : k.disk.volume.Edge p i c := by
  refine ⟨⟨directory, entry, ?_⟩, ?_, ?_⟩ <;> rw [Disk.volume_table, placed]
  · exact live_newEntry
  · rw [filesize_newEntry, folder]
  · exact cluster_newEntry inside

theorem clusters_eq_needed : e.clusters = needed e.filesize := by
  rw [FAT32DirectoryEntry.clusters, needed, totalCluster_eq]

theorem needed_pos {size : UInt32} : 0 < needed size := by
  unfold needed
  split
  · exact Nat.one_pos
  · rename_i positive
    have size_ne : size.toNat ≠ 0 := fun zero => positive (UInt32.toNat_inj.mp zero)
    rw [totalCluster_eq]
    omega

theorem fatTarget_ofNat (inside : c < 512) : fatTarget (UInt32.ofNat c) = some c := by
  have value : (UInt32.ofNat c).toNat = c :=
    UInt32.toNat_ofNat_of_lt' (Nat.lt_trans inside (by decide))
  have notEnd : UInt32.ofNat c ≠ fat32FatEndOfFile := by
    intro same
    have bad := congrArg UInt32.toNat same
    rw [value] at bad
    simp [fat32FatEndOfFile] at bad
    omega
  exact fatTarget_eq_some.mpr ⟨notEnd, value⟩

/-- The search for a free cluster comes in front of the check for the name. -/
theorem write_taken (parent : request.parentClusterNumber.toNat = p) (inside : p < 512)
    (valid : k.disk.fat p = fat32FatEndOfFile) (found : freeCluster (k.load p) 0 = some c)
    (taken : Taken (k.disk.table p) request) : write k request = some (1, k.load p) := by
  rw [← load_dirTableBuf (by omega)] at taken
  rw [write_found parent inside valid found]
  by_cases folder : request.bufferSize = 0
  · rw [if_pos folder, writeFolder, if_pos ((taken_folder_iff folder).mp taken)]
  · rw [if_neg folder, writeFile, if_pos ((taken_file_iff folder).mp taken)]

/-- The other directories are in clusters that a write leaves alone. -/
theorem table_elsewhere {q : Nat} (sound : k.disk.Sound) (other : k.disk.volume.Directory q) (different : q ≠ p)
    (unused : ∀ x ∈ l, k.disk.fat x = 0)
    (frame : ∀ x, x ≠ 1 → x ≠ p → x ∉ l → k'.disk.cluster x = k.disk.cluster x) :
    k'.disk.table q = k.disk.table q := by
  have range := sound.volume.directory_range other
  have used := sound.volume.directory_fat other
  apply Disk.table_congr
  apply frame q (by omega) different
  intro member
  exact absurd (used.symm.trans (unused q member)) (by decide)

section Write

variable (sound : k.disk.Sound) (directory : k.disk.volume.Directory p)
include sound directory

theorem free_apart (free : k.disk.fat c = 0) : c ≠ 0 ∧ c ≠ 1 ∧ c ≠ p := by
  have volume := sound.volume
  refine ⟨?_, ?_, ?_⟩
  · rintro rfl
    exact absurd (volume.reserved0.symm.trans free) (by decide)
  · rintro rfl
    exact absurd (volume.reserved1.symm.trans free) (by decide)
  · rintro rfl
    exact absurd ((volume.directory_fat directory).symm.trans free) (by decide)

/-- A folder that was stored in a free cluster and entered in a free slot. -/
theorem added_folder {name : Bytes 8} (slot : FirstFree (k.disk.table p) s) (bound : c < 512)
    (zero : k.disk.fat c = 0)
    (fat : k'.disk.fat = Function.update k.disk.fat c fat32FatEndOfFile)
    (tables : k'.disk.table p =
      Function.update (k.disk.table p) s (initDirectoryTable (fun _ => .zero) name c 0))
    (newTable : k'.disk.table c = initDirectoryTable (fun _ => .zero) name c)
    (elsewhere : ∀ x, x ≠ 1 → x ≠ p → x ≠ c → k'.disk.cluster x = k.disk.cluster x) :
    Added k.disk.volume k'.disk.volume p s (initDirectoryTable (fun _ => .zero) name c 0) [c] := by
  have cluster : (initDirectoryTable (fun _ => .zero) name c 0).cluster = c :=
    cluster_initDirectoryTable bound
  have unused : ∀ x ∈ [c], k.disk.fat x = 0 := by
    intro x member
    obtain rfl := List.mem_singleton.mp member
    exact zero
  refine ⟨directory, slot.1, rfl, tables, ?_, unused, ?_, ?_, ?_, rfl, ?_⟩
  · intro q other different
    exact table_elsewhere sound other different unused fun x notTable notParent outside =>
      elsewhere x notTable notParent (by simpa using outside)
  · intro x member
    obtain rfl := List.mem_singleton.mp member
    exact bound
  · intro x outside
    rw [Disk.volume_fat, fat, Function.update_of_ne (by simpa using outside)]
    rfl
  · rw [cluster]
    refine .last (next_eq_none.mpr ?_)
    rw [Disk.volume_fat, fat, Function.update_self]
  · intro _
    rw [cluster, Disk.volume_table, newTable]
    exact ⟨rfl, cluster, fun i entry => initDirectoryTable_other entry⟩

theorem written_folder (parent : request.parentClusterNumber.toNat = p)
    (folder : request.bufferSize = 0)
    (new : ¬ Taken (k.disk.table p) request) {rest : List Nat}
    (free : freeList k.disk.fatTable = c :: rest) (slot : FirstFree (k.disk.table p) s) :
    ∃ k', write k request = some (0, k') ∧
      Written request p s (initDirectoryTable (fun _ => .zero) request.name c 0) [c] k k' := by
  obtain ⟨lower, inside⟩ := sound.volume.directory_range directory
  obtain ⟨bound, zero⟩ := freeList_head free
  obtain ⟨notBoot, notFat, notParent⟩ := free_apart sound directory zero
  have absent := findName_of_new folder new
  obtain ⟨k', wrote, cached, disk⟩ :=
    write_folder parent inside (sound.volume.directory_fat directory) folder absent free slot
  have fat : k'.disk.fat = Function.update k.disk.fat c fat32FatEndOfFile := by
    rw [disk, Disk.fat_setTable (by omega), Disk.fat_setTable notFat, Disk.fat_setFat,
      FAT32FileAllocationTable.at_set _ bound]
    rfl
  -- the write stores the allocation table, the new table and the parent's
  have elsewhere (x : Nat) (notTable : x ≠ 1) (other : x ≠ p) (old : x ≠ c) :
      k'.disk.cluster x = k.disk.cluster x := by
    rw [disk]
    exact (Disk.cluster_setCluster_of_ne other).trans
      ((Disk.cluster_setCluster_of_ne old).trans (Disk.cluster_setCluster_of_ne notTable))
  have newTable : k'.disk.table c = initDirectoryTable (fun _ => .zero) request.name c := by
    rw [disk, Disk.table_setTable_of_ne notParent, Disk.table_setTable]
  refine ⟨k', wrote, ?added, ?cached, ?boot, ?frame, rfl, ?ext, folder.symm, rfl, new, slot, ⟨rest, free⟩, ?content⟩
  case added =>
    have tables : k'.disk.table p = Function.update (k.disk.table p) s
        (initDirectoryTable (fun _ => .zero) request.name c 0) := by
      rw [disk, Disk.table_setTable]
    exact added_folder sound directory slot bound zero fat tables newTable elsewhere
  case cached =>
    rw [cached, disk]
    exact ((Disk.fatTable_setCluster (by omega)).trans
      ((Disk.fatTable_setCluster notFat).trans Disk.fatTable_setFat)).symm
  case boot => exact Disk.bootSector_congr (elsewhere 0 (by omega) (by omega) (Ne.symm notBoot))
  case frame =>
    intro x notTable other old
    exact elsewhere x notTable other (by simpa using old)
  case ext => rw [if_pos folder]; rfl
  case content => exact fun file => absurd folder file

/-- A file that was written to free clusters and entered in a free slot. -/
theorem added_file (file : request.bufferSize ≠ 0) (slot : FirstFree (k.disk.table p) s)
    (unused : ∀ x ∈ c :: l, x < 512 ∧ k.disk.fat x = 0) (distinct : (c :: l).Nodup)
    (count : (c :: l).length = totalCluster request.bufferSize)
    (written : FileWritten request p s c l k k') :
    Added k.disk.volume k'.disk.volume p s (fileEntry .zero request c) (c :: l) := by
  -- `write` adds the size to what the slot held, which is zero on a sound disk
  have empty : k.disk.table p s = .zero := sound.volume.free directory slot.1
  have size : (fileEntry .zero request c).filesize = request.bufferSize := by
    simp [fileEntry, FAT32DirectoryEntry.zero]
  refine ⟨directory, slot.1, rfl, empty ▸ written.table, ?_, ?_, ?_, ?_, ?_, ?_, ?_⟩
  · exact fun q other different =>
      table_elsewhere sound other different (fun x member => (unused x member).2) written.frame
  · exact fun x member => (unused x member).2
  · exact fun x member => (unused x member).1
  · intro x outside
    rw [Disk.volume_fat, written.fat, Linked.link_frame outside]
    rfl
  · rw [cluster_fileEntry (unused c List.mem_cons_self).1]
    have linked : Volume.next k'.disk.volume =
        fun x => fatTarget (link UInt32.ofNat fat32FatEndOfFile (c :: l) k.disk.fat x) := by
      funext x
      rw [Volume.next, Disk.volume_fat, written.fat]
    rw [linked]
    apply Linked.chain_link distinct rfl
    intro b member
    exact fatTarget_ofNat (unused b (List.mem_cons_of_mem _ member)).1
  · rw [clusters_eq_needed, size, needed, if_neg file, count]
  · rw [size]
    exact fun folder => absurd folder file

theorem written_file (parent : request.parentClusterNumber.toNat = p)
    (file : request.bufferSize ≠ 0)
    (new : ¬ Taken (k.disk.table p) request) {rest : List Nat}
    (free : freeList k.disk.fatTable = c :: l ++ rest)
    (count : (c :: l).length = totalCluster request.bufferSize)
    (slot : FirstFree (k.disk.table p) s) :
    ∃ k', write k request = some (0, k') ∧ Written request p s (fileEntry .zero request c)
      (c :: l) k k' := by
  obtain ⟨lower, inside⟩ := sound.volume.directory_range directory
  have unused : ∀ x ∈ c :: l, x < 512 ∧ k.disk.fat x = 0 :=
    fun x member => mem_freeList.mp (free ▸ List.mem_append_left rest member)
  have distinct : (c :: l).Nodup := by
    have nodup : (freeList k.disk.fatTable).Nodup := Search.hits_nodup 0 512
    rw [free] at nodup
    exact nodup.of_append_left
  have reserved : k.disk.fat 1 ≠ 0 := fun zero => (free_apart sound directory zero).2.1 rfl
  have absent := findNameExt_of_new file new
  obtain ⟨k', wrote, written⟩ :=
    write_file parent inside (by omega) (sound.volume.directory_fat directory) file absent free
      count reserved slot
  have added := added_file sound directory file slot unused distinct count written
  refine ⟨k', wrote, added, written.stored.symm, ?boot, written.frame, rfl, ?ext, ?size, rfl, new, slot,
    ⟨rest, free⟩, fun _ => written.data⟩
  case boot =>
    apply Disk.bootSector_congr
    have notBoot : (0 : Nat) ∉ c :: l :=
      fun member => (free_apart sound directory (unused 0 member).2).1 rfl
    exact written.frame 0 (by omega) (by omega) notBoot
  case ext => rw [if_neg file]; rfl
  case size => simp [fileEntry, FAT32DirectoryEntry.zero]

/-- A write with room is refused when its name is taken. -/
theorem write_refused (parent : request.parentClusterNumber.toNat = p)
    (room : Room k.disk p request.bufferSize)
    (taken : Taken (k.disk.table p) request) : write k request = some (1, k.load p) := by
  obtain ⟨_, inside⟩ := sound.volume.directory_range directory
  obtain ⟨c, rest, free⟩ :=
    List.exists_cons_of_length_pos (Nat.lt_of_lt_of_le needed_pos room.clusters)
  exact write_taken parent inside (sound.volume.directory_fat directory)
    (freeCluster_zero ((freeList_load (by omega)).trans free)) taken

/-- A write under a new name goes to the first free slot and the first free clusters. -/
theorem write_adds (parent : request.parentClusterNumber.toNat = p)
    (new : ¬ Taken (k.disk.table p) request)
    {rest : List Nat} (free : freeList k.disk.fatTable = c :: l ++ rest)
    (count : (c :: l).length = needed request.bufferSize) (slot : FirstFree (k.disk.table p) s) :
    ∃ k', write k request = some (0, k') ∧ Written request p s (newEntry request c)
    (c :: l) k k' := by
  unfold needed at count
  unfold newEntry
  by_cases folder : request.bufferSize = 0
  · rw [if_pos folder] at count ⊢
    obtain rfl : l = [] := by simpa using count
    exact written_folder sound directory parent folder new free slot
  · rw [if_neg folder] at count ⊢
    exact written_file sound directory parent folder new free count slot

/-- The table of a new folder has its self entry and nothing else. -/
theorem write_newTable (parent : request.parentClusterNumber.toNat = p) (folder : request.bufferSize = 0)
    (new : ¬ Taken (k.disk.table p) request) {rest : List Nat} (free : freeList k.disk.fatTable = c :: rest)
    (slot : FirstFree (k.disk.table p) s) (wrote : write k request = some (0, k')) :
    k'.disk.table c = initDirectoryTable (fun _ => .zero) request.name c := by
  obtain ⟨_, inside⟩ := sound.volume.directory_range directory
  obtain ⟨k'', wrote', _, disk⟩ :=
    write_folder parent inside (sound.volume.directory_fat directory) folder (findName_of_new folder new) free slot
  obtain ⟨_, rfl⟩ := Prod.mk.inj (Option.some.inj (wrote.symm.trans wrote'))
  have apart : c ≠ p := (free_apart sound directory (freeList_head free).2).2.2
  rw [disk, Disk.table_setTable_of_ne apart, Disk.table_setTable]

/-- A write with room under a new name adds its entry. -/
theorem write_accepted (parent : request.parentClusterNumber.toNat = p)
    (room : Room k.disk p request.bufferSize)
    (new : ¬ Taken (k.disk.table p) request) :
    ∃ k' s e l, write k request = some (0, k') ∧ Written request p s e l k k' := by
  obtain ⟨s, slot⟩ := firstFree_of_vacant room.slot
  have enough := room.clusters
  -- the entry gets the first `total` free clusters, and `total` is positive
  have positive : 0 < needed request.bufferSize := needed_pos
  obtain ⟨total, count⟩ := Nat.exists_eq_succ_of_ne_zero (Nat.pos_iff_ne_zero.mp positive)
  obtain ⟨c, rest, free⟩ := List.exists_cons_of_length_pos (Nat.lt_of_lt_of_le needed_pos enough)
  have split : freeList k.disk.fatTable = c :: rest.take total ++ rest.drop total := by
    rw [List.cons_append, List.take_append_drop, free]
  rw [free, count, List.length_cons] at enough
  have length : (c :: rest.take total).length = needed request.bufferSize := by
    rw [List.length_cons, List.length_take, count]
    omega
  obtain ⟨k', wrote, written⟩ := write_adds sound directory parent new split length slot
  exact ⟨k', s, _, _, wrote, written⟩

end Write

/-- The free clusters behind those that a write took stay free. -/
theorem Written.freeList (written : Written request p s e l k k') (sound : k.disk.Sound)
    {rest : List Nat}
    (free : freeList k.disk.fatTable = l ++ rest) : Fat32.freeList k'.disk.fatTable = rest := by
  have added := written.added
  have slot : k'.disk.volume.Slot p s := (added.slot_iff sound.volume).mpr (.inr ⟨rfl, rfl⟩)
  have chain : k'.disk.volume.SlotChain p s l := by
    unfold Volume.SlotChain
    rw [added.table_new]
    exact added.chain
  apply Search.hits_without free
  · intro c member
    have used : k'.disk.fat c ≠ 0 := (added.sound sound.volume).fat_ne_zero slot chain member
    exact beq_eq_false_iff_ne.mpr used
  · intro c outside
    have same : k'.disk.fat c = k.disk.fat c := added.fatFrame c outside
    exact congrArg (· == 0) same

/-! ## Deleting -/

/-- A delete removed the entry in slot `s` of directory `p`, on the clusters `l`. -/
structure Deleted (p : Nat) (s : Fin 64) (l : List Nat) (k k' : Kernel) : Prop where
  removed : Removed k.disk.volume k'.disk.volume p s l
  cached : k'.driverState.fatTable = k'.disk.fatTable
  boot : k'.disk.bootSector = k.disk.bootSector
  frame : ∀ x, x ≠ 1 → x ≠ p → k'.disk.cluster x = k.disk.cluster x

/-- Both paths of `delete` end by storing an allocation table and the parent's table. -/
theorem deleted_of_disk (sound : k.disk.Sound) (slot : k.disk.volume.Slot p s)
    (chain : k.disk.volume.SlotChain p s l)
    {m : FAT32FileAllocationTable} (cached : k'.driverState.fatTable = m)
    (disk : k'.disk = (k.disk.setFat m).setTable p (Function.update (k.disk.table p) s .zero))
    (fat : ∀ c, c ∉ l → FAT32FileAllocationTable.at m c = k.disk.fat c) :
    Deleted p s l k k' ∧ k'.disk.fat = FAT32FileAllocationTable.at m := by
  have range := sound.volume.directory_range slot.directory
  have stored : k'.disk.fat = FAT32FileAllocationTable.at m := by
    rw [disk, Disk.fat_setTable (by omega), Disk.fat_setFat]
  have frame {x : Nat} (notFat : x ≠ 1) (other : x ≠ p) : k'.disk.cluster x = k.disk.cluster x := by
    rw [disk]
    exact (Disk.cluster_setCluster_of_ne other).trans (Disk.cluster_setCluster_of_ne notFat)
  refine ⟨⟨⟨slot, chain, ?_, ?_, ?_⟩, ?_, ?_, fun x => frame⟩, stored⟩
  · rw [Disk.volume_table, disk, Disk.table_setTable]
    rfl
  · intro q other different
    have bounds := sound.volume.directory_range other
    exact Disk.table_congr (frame (by omega) different)
  · intro c outside
    rw [Disk.volume_fat, stored]
    exact fat c outside
  · rw [cached, disk]
    exact ((Disk.fatTable_setCluster (by omega)).trans Disk.fatTable_setFat).symm
  · exact Disk.bootSector_congr (frame (by omega) (by omega))

theorem slot_cluster (sound : k.disk.Sound) (slot : k.disk.volume.Slot p s) :
    (k.disk.table p s).cluster < 512 :=
  (sound.volume.slot_range slot).2

/-- The folder path on a slot in use: refused, or the slot is cleared and its first cluster freed. -/
theorem delete_folder_spec (sound : k.disk.Sound) (parent : request.parentClusterNumber.toNat = p)
    (folder : request.bufferSize = 0) (found : findName (k.disk.table p) request.name = some s)
    (slot : k.disk.volume.Slot p s) (chain : k.disk.volume.SlotChain p s l) :
    (∃ code, code ≠ 0 ∧ delete k request = some (code, k.load p) ∧
      (occupied (k.disk.table (k.disk.table p s).cluster) = true ∨ request.name = rootName)) ∨
    ∃ k', delete k request = some (0, k') ∧ Deleted p s l k k' ∧
      occupied (k.disk.table (k.disk.table p s).cluster) = false ∧
      k'.disk.fat = Function.update k.disk.fat (k.disk.table p s).cluster 0 := by
  obtain ⟨_, inside⟩ := sound.volume.directory_range slot.directory
  have bound := slot_cluster sound slot
  rw [delete_folder parent inside folder (folderTarget_some found) bound]
  by_cases busy : occupied (k.disk.table (k.disk.table p s).cluster) = true
  · rw [if_pos busy]
    exact .inl ⟨2, by decide, rfl, .inl busy⟩
  · rw [if_neg busy]
    by_cases root : request.name = rootName
    · rw [if_pos root]
      exact .inl ⟨-1, by decide, rfl, .inr root⟩
    · rw [if_neg root]
      have fat := FAT32FileAllocationTable.at_set k.disk.fatTable bound 0
      have kept : ∀ c, c ∉ l → FAT32FileAllocationTable.at
          (k.disk.fatTable.set (k.disk.table p s).cluster 0) c = k.disk.fat c := by
        intro c outside
        -- only the first cluster is freed, whatever follows it in the chain
        have different : c ≠ (k.disk.table p s).cluster :=
          fun same => outside (same ▸ chain.head_mem)
        rw [fat, Function.update_of_ne different]
        rfl
      exact .inr ⟨_, rfl, (deleted_of_disk sound slot chain rfl rfl kept).1, by simpa using busy,
        (deleted_of_disk sound slot chain rfl rfl kept).2.trans fat⟩

/-- The file path on a slot in use: the slot is cleared and its whole chain freed. -/
theorem delete_file_spec (sound : k.disk.Sound) (parent : request.parentClusterNumber.toNat = p)
    (file : request.bufferSize ≠ 0)
    (found : findNameExt (k.disk.table p) request.name request.ext = some s)
    (slot : k.disk.volume.Slot p s) (chain : k.disk.volume.SlotChain p s l) :
    ∃ k', delete k request = some (0, k') ∧ Deleted p s l k k' ∧ ∀ c ∈ l, k'.disk.fat c = 0 := by
  obtain ⟨_, inside⟩ := sound.volume.directory_range slot.directory
  have range : ∀ x ∈ l, x < 512 := fun x member => (sound.volume.range slot chain member).2
  obtain ⟨k', m, removed, cached, disk, freed⟩ := delete_file parent inside file found chain range
  obtain ⟨deleted, stored⟩ := deleted_of_disk sound slot chain cached disk fun c outside => by
    rw [freed c, if_neg outside]
  refine ⟨k', removed, deleted, ?_⟩
  intro c member
  rw [stored, freed c, if_pos member]

/-! ## What both keep -/

theorem Written.sound (written : Written request p s e l k k') (sound : k.disk.Sound) :
    k'.disk.Sound :=
  ⟨written.boot.trans sound.boot, written.added.sound sound.volume⟩

theorem Deleted.sound (deleted : Deleted p s l k k') (sound : k.disk.Sound) : k'.disk.Sound :=
  ⟨deleted.boot.trans sound.boot, deleted.removed.sound sound.volume⟩

end Brother420.Fat32
