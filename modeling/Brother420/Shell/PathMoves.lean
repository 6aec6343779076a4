import Brother420.Shell.PathShell

/-! # Changing directories and moving on paths

`cd` and `mv` as the shell on paths knows them, and runs of all commands.  `mv`
to the parent leaves the current directory and comes back to it by its name.
-/

namespace Brother420

open Packed (Bytes)
open Runs (Run replay)
open Paths (Leads rebase)

namespace Shell

open Fat32 Kernel Volume

variable {s s' : ShellState} {a : PathShell} {p t : Nat} {i m o : Fin 64} {l : List Nat} {name newName : Bytes 8}
  {ext newExt : Bytes 3} {path : Memory} {dst : Path} {k' : Kernel} {key : EntryName} {selfLocation : Nat}

/-! ## cd -/

theorem upward_iff : Upward path ↔ Dots (path.bytes 0 8) := by
  constructor
  · intro upward
    exact ⟨congrFun upward 0, congrFun upward 1⟩
  · rintro ⟨first, second⟩
    funext i
    fin_cases i
    · exact first
    · exact second

/-- What is entered is a folder, whose cluster fits a cell of the stack. -/
def CdSensible (s : ShellState) (path : Memory) : Prop :=
  ¬ Upward path → ∀ i, findLive (s.kernel.disk.table s.currentDirectoryCluster) (path.bytes 0 8) noExt = some i →
    (s.kernel.disk.table s.currentDirectoryCluster i).filesize = 0 ∧
      (s.kernel.disk.table s.currentDirectoryCluster i).cluster < 256

namespace Mirrors

theorem at_root (mirrors : Mirrors s a) (root : s.currentDirectoryCluster = rootClusterNumber) : a.cwd = [] := by
  have leads := mirrors.leads
  rw [root] at leads
  exact leads.path_unique mirrors.wellFormed.volume.entryTree .here

/-- Behind the root the path ends with the name under which the current directory is entered above. -/
theorem cwd_concat (mirrors : Mirrors s a) (edge : s.kernel.disk.volume.Edge p i s.currentDirectoryCluster) :
    ∃ above, a.cwd = above ++ [(s.kernel.disk.table p i).entryName] ∧ s.kernel.disk.volume.At above p := by
  have tree := mirrors.wellFormed.volume.entryTree
  obtain ⟨l, route⟩ := edge.directory.route
  obtain ⟨above, leads⟩ := edge.directory.exists_at
  have below : s.kernel.disk.volume.At (above ++ [(s.kernel.disk.table p i).entryName]) s.currentDirectoryCluster := by
    rw [← edge.cluster]
    exact .enter leads edge.toSlot.entry_name
  exact ⟨above, mirrors.leads.path_unique tree below, leads⟩

theorem goUp (mirrors : Mirrors s a) (upward : Upward path) :
    ∃ code s', commandCallCd s path = some (code, s') ∧ Mirrors s' { a with cwd := a.cwd.dropLast } := by
  obtain ⟨l, standing, small⟩ := mirrors.tracking
  by_cases root : s.currentDirectoryCluster = rootClusterNumber
  · refine ⟨1, s, leave_root upward root, ?_⟩
    rw [mirrors.at_root root, List.dropLast_nil, ← mirrors.at_root root]
    exact mirrors
  · obtain ⟨l', p, rfl, route, i, edge⟩ := standing.footing.split root
    obtain ⟨above, split, leads⟩ := mirrors.cwd_concat edge
    obtain ⟨s', answer, standing', kernel, here⟩ := standing.leave upward (small p (by simp)) route
    refine ⟨0, s', answer, kernel ▸ mirrors.orderly, kernel ▸ mirrors.shows, ?_, ⟨_, standing', ?_⟩, ?_⟩
    · rw [split, List.dropLast_concat, here, kernel]
      exact leads
    · intro c member
      apply small c
      rw [List.append_cons]
      exact List.mem_append_left _ member
    · intro key member
      exact mirrors.entered key (List.mem_of_mem_dropLast member)

theorem goDown (mirrors : Mirrors s a) (notUp : ¬ Upward path) (sensible : CdSensible s path) :
    ∃ code s', commandCallCd s path = some (code, s') ∧ Mirrors s' (a.cd (path.bytes 0 8)) := by
  obtain ⟨l, standing, small⟩ := mirrors.tracking
  rw [PathShell.cd, if_neg (mt upward_iff.mpr notUp)]
  cases found : findLive (s.kernel.disk.table s.currentDirectoryCluster) (path.bytes 0 8) noExt with
  | none =>
    rw [mirrors.absent_of_missing found]
    exact ⟨1, s, stay_absent standing.directory_lt notUp found, mirrors⟩
  | some i =>
    obtain ⟨slot, sameName⟩ := mirrors.slot_of_found found
    obtain ⟨folder, inside⟩ := sensible notUp i found
    have edge : s.kernel.disk.volume.Edge s.currentDirectoryCluster i
        (s.kernel.disk.table s.currentDirectoryCluster i).cluster := ⟨slot, folder, rfl⟩
    have there : a.tree (a.cwd ++ [(path.bytes 0 8, noExt)]) = some .folder :=
      mirrors.some_iff.mpr ⟨i, slot, sameName, .folder edge.directory_child⟩
    rw [there]
    obtain ⟨s', answer, footing, kernel, here⟩ := standing.footing.enter notUp found edge
      (standing.route.length_lt standing.disk.volume.toSound small)
    have disk := mirrors.wellFormed
    refine ⟨0, s', answer, kernel ▸ mirrors.orderly, kernel ▸ mirrors.shows, ?_,
      ⟨_, footing.standing (kernel ▸ disk), ?_⟩, ?_⟩
    · rw [kernel, here, ← sameName]
      exact .enter mirrors.leads slot.entry_name
    · intro c member
      rcases List.mem_append.mp member with old | new
      · exact small c old
      · rw [List.mem_singleton.mp new]
        exact inside
    · intro key member
      rcases List.mem_append.mp member with old | new
      · exact mirrors.entered key old
      · rw [List.mem_singleton.mp new]
        exact mt upward_iff.mpr notUp

theorem cd (mirrors : Mirrors s a) (sensible : CdSensible s path) :
    ∃ code s', commandCallCd s path = some (code, s') ∧ Mirrors s' (a.cd (path.bytes 0 8)) := by
  by_cases upward : Upward path
  · rw [PathShell.cd, if_pos (upward_iff.mp upward)]
    exact mirrors.goUp upward
  · exact mirrors.goDown upward sensible

/-! ## mv to a new name -/

/-- The new name is free in the current directory and in a folder that gets it, folders get no extension, and the
    name is not empty. -/
def RenameSensible (s : ShellState) (m : Fin 64) (newName : Bytes 8) (newExt : Bytes 3) : Prop :=
  (∀ i, i ≠ m → ¬ (s.kernel.disk.table s.currentDirectoryCluster i).Named newName newExt) ∧
    ((s.kernel.disk.table s.currentDirectoryCluster m).filesize = 0 → newExt = noExt ∧ ∀ i, i ≠ 0 →
      ¬ (s.kernel.disk.table (s.kernel.disk.table s.currentDirectoryCluster m).cluster i).Named newName newExt) ∧
    Sayable (renamed (s.kernel.disk.table s.currentDirectoryCluster m) newName newExt)

/-- An entry on the way to the current directory is not one in it. -/
theorem elsewhere (mirrors : Mirrors s a) (slot : s.kernel.disk.volume.Slot s.currentDirectoryCluster m)
    (route : s.kernel.disk.volume.Route s.currentDirectoryCluster l) {q : Nat}
    (member : (s.kernel.disk.table q i).cluster ∈ l) : q ≠ s.currentDirectoryCluster ∨ i ≠ m := by
  by_contra both
  obtain ⟨rfl, rfl⟩ : q = s.currentDirectoryCluster ∧ i = m := by simpa using both
  exact mirrors.orderly.regular.sound.volume.not_mem_route slot route member

theorem rename (mirrors : Mirrors s a)
    (sensible : ∀ m, findLive (s.kernel.disk.table s.currentDirectoryCluster) name ext = some m →
      RenameSensible s m newName newExt) :
    Mirrors (mvRename s name ext newName newExt) (a.mv (name, ext) (.rename newName newExt)) := by
  have wellFormed := mirrors.wellFormed
  obtain ⟨l, standing, _⟩ := mirrors.tracking
  cases found : findLive (s.kernel.disk.table s.currentDirectoryCluster) name ext with
  | none =>
    rw [mvRename_missing standing.directory_lt found, PathShell.mv, mirrors.absent_of_missing found]
    exact mirrors
  | some m =>
    obtain ⟨slot, sameName⟩ := mirrors.slot_of_found found
    obtain ⟨alone, folder, sayable⟩ := sensible m found
    obtain ⟨node, there, _⟩ := mirrors.shown slot
    have bound : (s.kernel.disk.table s.currentDirectoryCluster m).cluster < 2 ^ 26 := by
      have range := wellFormed.volume.slot_range slot
      rw [Disk.volume_table] at range
      omega
    have result : mvRename s name ext newName newExt = { s with kernel := { s.kernel with
        disk := renamedDisk s.kernel.disk s.currentDirectoryCluster m newName newExt } } := by
      unfold mvRename
      simp only [mirrors.readTable_eq, found]
      rw [Shell.readTable_eq bound, writeTable_eq standing.directory_lt, writeTable_eq bound]
      rfl
    rw [result, PathShell.mv, ← sameName, there]
    refine mirrors.change
      (mirrors.orderly.rename slot alone (fun size => (folder size).2) (fun size => (folder size).1) sayable)
      (shows_renamed mirrors.orderly slot alone mirrors.leads mirrors.shows there) fun l route q i other member => ?_
    rcases renamedDisk_cases newName newExt wellFormed slot q i with
      ⟨rfl, rfl, _⟩ | ⟨_, self, _⟩ | ⟨_, _, same⟩
    · exact absurd rfl ((mirrors.elsewhere slot route member).resolve_left fun no => no rfl)
    · exact absurd self other.entry
    · exact .of_eq other.live same

/-! ## mv to another directory -/

theorem move (mirrors : Mirrors s a) (slot : s.kernel.disk.volume.Slot s.currentDirectoryCluster m)
    (sameName : (s.kernel.disk.table s.currentDirectoryCluster m).entryName = (name, ext))
    (target : s.kernel.disk.volume.Directory t)
    (free : findFree ((clearedDisk s.kernel.disk s.currentDirectoryCluster m).table t) = some o)
    (apart : Apart s.kernel.disk.volume s.currentDirectoryCluster m t)
    (lacks : t ≠ s.currentDirectoryCluster → Lacks (s.kernel.disk.table t) name ext)
    (above : s.kernel.disk.volume.At dst t)
    (disk : k'.disk = movedDisk s.kernel.disk s.currentDirectoryCluster m t) :
    Mirrors { s with kernel := k' }
      { a with tree := rebase (a.cwd ++ [(name, ext)]) (dst ++ [(name, ext)]) a.tree } := by
  obtain ⟨isName, isExt⟩ := Prod.mk.inj sameName
  have moved := moved_of_free mirrors.wellFormed slot target free
  rw [← isName, ← isExt] at lacks
  have shows := shows_moved mirrors.orderly slot target free apart lacks mirrors.leads above mirrors.shows
  rw [sameName, ← disk] at shows
  refine mirrors.change ?_ shows fun l route q i other member => ?_
  · rw [disk]
    exact mirrors.orderly.move slot target free apart lacks
  · rw [disk]
    exact .of_eq other.live (moved.kept other.live (mirrors.elsewhere slot route member))

/-- The entry that the line names is in use. -/
theorem slot_of_entry (mirrors : Mirrors s a)
    (found : findEntry (s.kernel.disk.table s.currentDirectoryCluster) name ext = some m)
    (live : (s.kernel.disk.table s.currentDirectoryCluster m).Live) :
    s.kernel.disk.volume.Slot s.currentDirectoryCluster m ∧
      (s.kernel.disk.table s.currentDirectoryCluster m).entryName = (name, ext) := by
  obtain ⟨⟨entry, sameName, sameExt⟩, _⟩ := findEntry_some.mp found
  exact ⟨⟨mirrors.directory, entry, live⟩, Prod.ext sameName sameExt⟩

/-- A folder and an entry of the current directory that are named by a line: the folder is one, has a slot left and
    lacks the name, and is not the entry. -/
def IntoSensible (s : ShellState) (name : Bytes 8) (ext : Bytes 3) (newPath : Bytes 8) : Prop :=
  ∀ i m, Matches (s.kernel.disk.table s.currentDirectoryCluster) newPath i →
    findEntry (s.kernel.disk.table s.currentDirectoryCluster) name ext = some m →
    (s.kernel.disk.table s.currentDirectoryCluster m).Live ∧
      (s.kernel.disk.table s.currentDirectoryCluster i).filesize = 0 ∧ i ≠ m ∧
      HasFree (s.kernel.disk.table (s.kernel.disk.table s.currentDirectoryCluster i).cluster) ∧
      Lacks (s.kernel.disk.table (s.kernel.disk.table s.currentDirectoryCluster i).cluster) name ext

theorem mvFolder_kernel (s : ShellState) (name : Bytes 8) (ext : Bytes 3) (newPath : Bytes 8) :
    ∃ k', mvFolder s name ext newPath = { s with kernel := k' } := by
  unfold mvFolder
  exact ⟨_, rfl⟩

theorem into (mirrors : Mirrors s a) {newPath : Bytes 8} (sensible : IntoSensible s name ext newPath) :
    Mirrors (mvFolder s name ext newPath) (a.mv (name, ext) (.folder newPath)) := by
  obtain ⟨l, standing, _⟩ := mirrors.tracking
  have sound := mirrors.wellFormed.volume.toSound
  rw [PathShell.mv]
  by_cases folder : ∃ i, Matches (s.kernel.disk.table s.currentDirectoryCluster) newPath i
  · obtain ⟨i, is⟩ := folder
    have slot : s.kernel.disk.volume.Slot s.currentDirectoryCluster i := ⟨mirrors.directory, is.1, is.2.1⟩
    cases found : findEntry (s.kernel.disk.table s.currentDirectoryCluster) name ext with
    | none =>
      have absent : a.tree (a.cwd ++ [(name, ext)]) = none := by
        refine mirrors.none_iff.mpr fun j slot same => ?_
        obtain ⟨sameName, sameExt⟩ := Prod.mk.inj same
        exact findEntry_none.mp found j slot.entry sameName sameExt
      rw [mvFolder_missing standing.directory_lt (.inr found), absent]
      cases a.tree (a.cwd ++ [(newPath, noExt)]) with
      | none => exact mirrors
      | some node => exact mirrors
    | some m =>
      obtain ⟨live, size, other, hasFree, lacks⟩ := sensible i m is found
      obtain ⟨source, sameName⟩ := mirrors.slot_of_entry found live
      have edge : s.kernel.disk.volume.Edge s.currentDirectoryCluster i
          (s.kernel.disk.table s.currentDirectoryCluster i).cluster := ⟨slot, size, rfl⟩
      have notSource : (s.kernel.disk.table s.currentDirectoryCluster i).cluster ≠
          (s.kernel.disk.table s.currentDirectoryCluster m).cluster := by
        intro same
        exact other (sound.slot_unique source slot same).2
      have below : (s.kernel.disk.table s.currentDirectoryCluster i).cluster ≠ s.currentDirectoryCluster :=
        sound.slot_cluster_ne slot
      obtain ⟨o, free⟩ := hasFree_iff.mp hasFree
      rw [← clearedDisk_other (m := m) below] at free
      have folderName : (s.kernel.disk.table s.currentDirectoryCluster i).entryName = (newPath, noExt) :=
        Prod.ext is.2.2.1 is.2.2.2
      obtain ⟨_, folderThere, _⟩ := mirrors.shown slot
      obtain ⟨_, sourceThere, _⟩ := mirrors.shown source
      rw [folderName] at folderThere
      rw [sameName] at sourceThere
      have there : s.kernel.disk.volume.At (a.cwd ++ [(newPath, noExt)])
          (s.kernel.disk.table s.currentDirectoryCluster i).cluster := by
        rw [← folderName]
        exact .enter mirrors.leads slot.entry_name
      have disk := mvFolder_disk mirrors.wellFormed slot is.2.2.1 is.2.2.2 found
      obtain ⟨k', answer⟩ := mvFolder_kernel s name ext newPath
      rw [answer] at disk ⊢
      rw [folderThere, sourceThere]
      exact mirrors.move source sameName edge.directory_child free (sound.apart_child source edge notSource)
        (fun _ => lacks) there disk
  · have absent : a.tree (a.cwd ++ [(newPath, noExt)]) = none := by
      refine mirrors.none_iff.mpr fun j slot same => folder ⟨j, slot.entry, slot.live, ?_⟩
      exact Prod.mk.inj same
    rw [mvFolder_missing standing.directory_lt (.inl (not_exists.mp folder)), absent]
    exact mirrors

/-! ## mv to the parent -/

/-- The entry is in use, and the directory above, if there is one, has a slot left and lacks the name. -/
def UpSensible (s : ShellState) (name : Bytes 8) (ext : Bytes 3) : Prop :=
  ∃ m, findEntry (s.kernel.disk.table s.currentDirectoryCluster) name ext = some m ∧
    (s.kernel.disk.table s.currentDirectoryCluster m).Live ∧
    ∀ u i, s.kernel.disk.volume.Edge u i s.currentDirectoryCluster →
      HasFree (s.kernel.disk.table u) ∧ Lacks (s.kernel.disk.table u) name ext

/-- The first part of the branch clears the slot. -/
theorem mvParent_eq (mirrors : Mirrors s a) (selfLocation : Nat)
    (found : findEntry (s.kernel.disk.table s.currentDirectoryCluster) name ext = some m) :
    ∃ k, k.disk = clearedDisk s.kernel.disk s.currentDirectoryCluster m ∧
      mvParent s name ext selfLocation =
        mvParentRest { s with kernel := k } (s.kernel.disk.table s.currentDirectoryCluster 0).name name ext
          (s.kernel.disk.table s.currentDirectoryCluster m).filesize
          (s.kernel.disk.table s.currentDirectoryCluster m).cluster := by
  obtain ⟨l, standing, _⟩ := mirrors.tracking
  refine ⟨{ s.kernel with disk := clearedDisk s.kernel.disk s.currentDirectoryCluster m }, rfl, ?_⟩
  unfold mvParent
  simp only [mirrors.readTable_eq, found]
  rw [writeTable_eq standing.directory_lt]
  rfl

/-- The second part inserts where `cd ..` leads, and goes to the directory `temporal`. -/
theorem mvParentRest_eq {temporal : Bytes 8} {size : UInt32} {c : Nat} {code : UInt8} {s₀ s₁ : ShellState}
    (answer : commandCallCd s₀ (Memory.store (fun _ => 0) 0 (dotDot : Bytes 2)) = some (code, s₁))
    (bound : s₁.currentDirectoryCluster < 512)
    (self : (s₁.kernel.disk.table s₁.currentDirectoryCluster 0).cluster = s₁.currentDirectoryCluster) :
    ∃ k, k.disk = insertedDisk s₁.kernel.disk s₁.currentDirectoryCluster name ext size c ∧
      mvParentRest s₀ temporal name ext size c =
        (commandCallCd { s₁ with kernel := k } (Memory.store (fun _ => 0) 0 temporal)).map Prod.snd := by
  have table : readTable s₁.kernel s₁.currentDirectoryCluster = s₁.kernel.disk.table s₁.currentDirectoryCluster :=
    Shell.readTable_eq (by omega)
  refine ⟨{ s₁.kernel with disk := insertedDisk s₁.kernel.disk s₁.currentDirectoryCluster name ext size c }, rfl, ?_⟩
  simp only [mvParentRest, answer, Option.bind_eq_bind, Option.bind_some, table, self]
  rw [insertEntry_eq (by omega), Option.map_eq_bind]
  rfl

/-- Above the root there is a directory to go up to, whatever the disk holds by then. -/
theorem goes_up (mirrors : Mirrors s a) (below : s.currentDirectoryCluster ≠ rootClusterNumber) :
    ∃ p i cds, s.kernel.disk.volume.Edge p i s.currentDirectoryCluster ∧
      ∀ k, commandCallCd { s with kernel := k } (Memory.store (fun _ => 0) 0 (dotDot : Bytes 2)) =
        some (0, ⟨k, p, cds⟩) := by
  obtain ⟨l, standing, small⟩ := mirrors.tracking
  obtain ⟨l', p, rfl, _, i, edge⟩ := standing.footing.split below
  obtain ⟨notRoot, _, _, last⟩ := standing.footing.popped
  refine ⟨p, i, s.currentDirStack.popCurrentDir, edge, fun k => ?_⟩
  have answer := leave_popped (s := { s with kernel := k }) lineUpward notRoot last
  rwa [UInt8.toNat_ofNat_of_lt' (small p (by simp))] at answer

/-- The name of the self entry leads back down. -/
theorem comes_back (mirrors : Mirrors s a) (below : s.currentDirectoryCluster ≠ rootClusterNumber)
    {cds : CurrentDirStack} (up : commandCallCd s (Memory.store (fun _ => 0) 0 (dotDot : Bytes 2)) =
      some (0, ⟨s.kernel, p, cds⟩)) :
    ∃ s', commandCallCd ⟨s.kernel, p, cds⟩
        (Memory.store (fun _ => 0) 0 (s.kernel.disk.table s.currentDirectoryCluster 0).name) = some (0, s') ∧
      Mirrors s' a := by
  obtain ⟨l, standing, small⟩ := mirrors.tracking
  obtain ⟨l', u, rfl, route, i, edge⟩ := standing.footing.split below
  obtain ⟨s₁, answer, standing₁, kernel, here⟩ := standing.leave lineUpward (small u (by simp)) route
  obtain ⟨_, rfl⟩ := Prod.mk.inj (Option.some.inj (answer.symm.trans up))
  obtain rfl : p = u := here
  obtain ⟨above, split, _⟩ := mirrors.cwd_concat edge
  obtain ⟨own, _⟩ := Prod.mk.inj (mirrors.orderly.own edge)
  have notDots : ¬ Dots (s.kernel.disk.table s.currentDirectoryCluster 0).name := by
    rw [own]
    exact mirrors.entered (s.kernel.disk.table p i).entryName (by rw [split]; simp)
  have bytes : (Memory.store (fun _ => 0) 0 (s.kernel.disk.table s.currentDirectoryCluster 0).name).bytes 0 8 =
      (s.kernel.disk.table s.currentDirectoryCluster 0).name := Memory.bytes_store _
  have enters : Enters ⟨s.kernel, p, cds⟩
      (Memory.store (fun _ => 0) 0 (s.kernel.disk.table s.currentDirectoryCluster 0).name) i
      s.currentDirectoryCluster :=
    ⟨edge, own.symm.trans bytes.symm, mirrors.orderly.bare _ _ edge.toSlot edge.folder⟩
  have room : (l' ++ [p]).length < 256 := by
    have room := standing.room
    simp only [List.length_append, List.length_cons, List.length_nil] at room ⊢
    omega
  obtain ⟨s₂, back, standing₂, kernel₂, here₂⟩ :=
    standing₁.enter enters (mt upward_iff.mp (by rwa [bytes])) room
  refine ⟨s₂, back, kernel₂ ▸ mirrors.orderly, kernel₂ ▸ mirrors.shows, ?_, ⟨_, standing₂, ?_⟩, mirrors.entered⟩
  · rw [here₂, kernel₂]
    exact mirrors.leads
  · rw [List.append_assoc]
    exact small

/-- The root has no entry of its own name. -/
theorem root_lacks_own (mirrors : Mirrors s a) (root : s.currentDirectoryCluster = rootClusterNumber) :
    commandCallCd s (Memory.store (fun _ => 0) 0 (rootName : Bytes 8)) = some (1, s) := by
  obtain ⟨l, standing, _⟩ := mirrors.tracking
  have wellFormed := mirrors.wellFormed
  have bytes : (Memory.store (fun _ => 0) 0 (rootName : Bytes 8)).bytes 0 8 = rootName := Memory.bytes_store _
  obtain ⟨ownName, ownExt⟩ := Prod.mk.inj mirrors.orderly.root
  refine stay_absent standing.directory_lt (fun upward => ?_) (findLive_none.mpr fun i entry live hit hit' => ?_)
  · have dots := upward_iff.mp upward
    rw [bytes] at dots
    exact absurd dots (by decide)
  · rw [bytes] at hit
    rw [root] at live hit hit'
    have self : (s.kernel.disk.table rootClusterNumber 0).Live := (wellFormed.volume.self .root).1
    exact entry (wellFormed.volume.unique .root live self (hit.trans ownName.symm) (hit'.trans ownExt.symm))

theorem hasFree_cleared {d : Disk} (entry : m ≠ 0) : HasFree ((clearedDisk d p m).table p) := by
  refine ⟨m, entry, ?_⟩
  rw [clearedDisk_table, Function.update_self]
  exact cleared_not_live _

/-- Wherever `cd ..` leads, the entry has moved there before the shell comes back. -/
theorem mvParent_moves (mirrors : Mirrors s a) (slot : s.kernel.disk.volume.Slot s.currentDirectoryCluster m)
    (sameName : (s.kernel.disk.table s.currentDirectoryCluster m).entryName = (name, ext))
    (found : findEntry (s.kernel.disk.table s.currentDirectoryCluster) name ext = some m)
    {code : UInt8} {cds : CurrentDirStack} (selfLocation : Nat)
    (goes : ∀ k, commandCallCd { s with kernel := k } (Memory.store (fun _ => 0) 0 (dotDot : Bytes 2)) =
      some (code, ⟨k, t, cds⟩))
    (target : s.kernel.disk.volume.Directory t)
    (free : findFree ((clearedDisk s.kernel.disk s.currentDirectoryCluster m).table t) = some o)
    (apart : Apart s.kernel.disk.volume s.currentDirectoryCluster m t)
    (lacks : t ≠ s.currentDirectoryCluster → Lacks (s.kernel.disk.table t) name ext)
    (above : s.kernel.disk.volume.At dst t) :
    ∃ k', Mirrors { s with kernel := k' }
        { a with tree := rebase (a.cwd ++ [(name, ext)]) (dst ++ [(name, ext)]) a.tree } ∧
      k'.disk.table s.currentDirectoryCluster 0 = s.kernel.disk.table s.currentDirectoryCluster 0 ∧
      mvParent s name ext selfLocation = (commandCallCd ⟨k', t, cds⟩
        (Memory.store (fun _ => 0) 0 (s.kernel.disk.table s.currentDirectoryCluster 0).name)).map Prod.snd := by
  have range := mirrors.wellFormed.volume.toSound.directory_range target
  obtain ⟨isName, isExt⟩ := Prod.mk.inj sameName
  obtain ⟨k₀, cleared, first⟩ := mirrors.mvParent_eq selfLocation found
  have self : (k₀.disk.table t 0).cluster = t := by
    rw [cleared]
    exact clearedDisk_self mirrors.wellFormed slot target
  obtain ⟨k', inserted, second⟩ := mvParentRest_eq (goes k₀) range.2 self
  have disk : k'.disk = movedDisk s.kernel.disk s.currentDirectoryCluster m t := by
    rw [movedDisk, isName, isExt, inserted, cleared]
  refine ⟨k', mirrors.move slot sameName target free apart lacks above disk, ?_, first.trans second⟩
  rw [disk]
  exact movedDisk_self mirrors.orderly slot target free s.currentDirectoryCluster

theorem up (mirrors : Mirrors s a) (sensible : UpSensible s name ext) :
    ∃ s', mvParent s name ext selfLocation = some s' ∧ Mirrors s' (a.mv (name, ext) .parent) := by
  obtain ⟨m, found, live, fits⟩ := sensible
  obtain ⟨slot, sameName⟩ := mirrors.slot_of_entry found live
  have sound := mirrors.wellFormed.volume.toSound
  rw [PathShell.mv]
  by_cases root : s.currentDirectoryCluster = rootClusterNumber
  · -- `cd ..` stays, and the entry goes to a free slot of its own table
    obtain ⟨o, free⟩ := hasFree_iff.mp (hasFree_cleared (d := s.kernel.disk) slot.entry)
    obtain ⟨k', mirrors', self, answer⟩ := mirrors.mvParent_moves slot sameName found selfLocation
      (fun k => leave_root lineUpward root) mirrors.directory free (sound.apart_self slot) (fun other => absurd rfl other)
      mirrors.leads
    have ownName : (s.kernel.disk.table s.currentDirectoryCluster 0).name = rootName := by
      rw [root]
      exact congrArg Prod.fst mirrors.orderly.root
    have back : commandCallCd ⟨k', s.currentDirectoryCluster, s.currentDirStack⟩
        (Memory.store (fun _ => 0) 0 (rootName : Bytes 8)) = some (1, { s with kernel := k' }) :=
      mirrors'.root_lacks_own root
    refine ⟨{ s with kernel := k' }, ?_, ?_⟩
    · rw [answer, ownName, back]
      rfl
    · rw [mirrors.at_root root] at mirrors' ⊢
      exact mirrors'
  · obtain ⟨u, i, cds, edge, goes⟩ := mirrors.goes_up root
    obtain ⟨path, split, above⟩ := mirrors.cwd_concat edge
    obtain ⟨hasFree, lacks⟩ := fits u i edge
    have other : u ≠ s.currentDirectoryCluster := Ne.symm (sound.child_ne edge)
    obtain ⟨o, free⟩ := hasFree_iff.mp hasFree
    rw [← clearedDisk_other (m := m) other] at free
    obtain ⟨k', mirrors', self, answer⟩ := mirrors.mvParent_moves slot sameName found selfLocation goes
      edge.directory free (sound.apart_parent slot edge) (fun _ => lacks) above
    obtain ⟨s', back, there⟩ := mirrors'.comes_back root (goes k')
    have ownName : (k'.disk.table s.currentDirectoryCluster 0).name =
        (s.kernel.disk.table s.currentDirectoryCluster 0).name := congrArg (·.name) self
    have back' : commandCallCd ⟨k', u, cds⟩
        (Memory.store (fun _ => 0) 0 (s.kernel.disk.table s.currentDirectoryCluster 0).name) = some (0, s') := by
      rw [← ownName]
      exact back
    refine ⟨s', by rw [answer, back']; rfl, ?_⟩
    have top : a.cwd.dropLast = path := by rw [split, List.dropLast_concat]
    rw [top]
    exact there

/-! ## All commands -/

/-- A line of `mv` parses, and its new name, its parent or its folder can take the entry. -/
def MvSensible (s : ShellState) (path : Memory) : Prop :=
  ∃ name ext isFile i target, parseMvSource path = some (name, ext, isFile, i) ∧
    parseMvTarget path isFile i = some target ∧
    match target with
    | .rename newName newExt => ∀ m,
      findLive (s.kernel.disk.table s.currentDirectoryCluster) name ext = some m → RenameSensible s m newName newExt
    | .parent => UpSensible s name ext
    | .folder newPath => IntoSensible s name ext newPath

theorem mv (mirrors : Mirrors s a) (selfLocation : Nat) (output : Output) (sensible : MvSensible s path) :
    ∃ s', commandCallMv s path selfLocation = some s' ∧ Mirrors s' (a.next (.mv path selfLocation) output) := by
  obtain ⟨name, ext, isFile, i, target, source, goal, fits⟩ := sensible
  simp only [commandCallMv, PathShell.next, source, goal, Option.bind_eq_bind, Option.bind_some]
  cases target with
  | rename newName newExt => exact ⟨_, rfl, mirrors.rename fits⟩
  | parent => exact mirrors.up fits
  | folder newPath => exact ⟨_, rfl, mirrors.into fits⟩

end Mirrors

/-- What a line needs in the state in which it is entered. -/
def Sensible (s : ShellState) : Line → Prop
  | .command (.cd path) => CdSensible s path
  | .command (.mkdir _) => Room s.kernel.disk s.currentDirectoryCluster 0
  | .command (.cp line _) => Mirrors.CpSensible s line
  | .command (.rm line) => Mirrors.RmSensible s line
  | .command (.ls _ _) => True
  | .mv path _ => Mirrors.MvSensible s path

/-- A sensible line is answered, and the shell on paths does what it means. -/
theorem Mirrors.step (mirrors : Mirrors s a) {line : Line} (sensible : Sensible s line) :
    ∃ output s', execute s line = some (output, s') ∧ Mirrors s' (a.next line output) := by
  cases line with
  | mv path selfLocation =>
    obtain ⟨s', answer, mirrors'⟩ := mirrors.mv selfLocation .done sensible
    refine ⟨.done, s', ?_, mirrors'⟩
    simp only [execute, answer, Option.bind_eq_bind, Option.bind_some]
  | command command =>
    cases command with
    | cd path =>
      obtain ⟨code, s', answer, mirrors'⟩ := mirrors.cd sensible
      refine ⟨.code code, s', ?_, mirrors'⟩
      simp only [execute, issue, answer, Option.bind_eq_bind, Option.bind_some]
    | mkdir line =>
      obtain ⟨s', answer, mirrors'⟩ := mirrors.mkdir sensible
      refine ⟨.done, s', ?_, mirrors'⟩
      simp only [execute, issue, answer, Option.bind_eq_bind, Option.bind_some]
    | cp line cbuf =>
      obtain ⟨buf, s', answer, mirrors'⟩ := mirrors.cp cbuf .done sensible
      refine ⟨.copied buf, s', ?_, mirrors'⟩
      simp only [execute, issue, answer, Option.bind_eq_bind, Option.bind_some]
    | rm line =>
      obtain ⟨s', answer, mirrors'⟩ := mirrors.rm .done sensible
      refine ⟨.done, s', ?_, mirrors'⟩
      simp only [execute, issue, answer, Option.bind_eq_bind, Option.bind_some]
    | ls type rowShell => exact ⟨_, s, rfl, mirrors⟩

/-- A shell that has just started on a new file system. -/
def FreshShell (s : ShellState) : Prop := ∃ k, Fresh k ∧ s = startShell k

theorem FreshShell.mirrors (fresh : FreshShell s) : Mirrors s ⟨newTree, []⟩ := by
  obtain ⟨k, fresh, rfl⟩ := fresh
  have noSlot {p : Nat} {i : Fin 64} (slot : k.disk.volume.Slot p i) : False := fresh.onlyRoot.no_slot slot
  refine ⟨⟨fresh.regular, fun _ _ slot => (noSlot slot).elim, fun slot => (noSlot slot).elim,
    fun edge => (noSlot edge.toSlot).elim, ?_⟩, fresh.onlyRoot.shows, .here,
    (started_startShell fresh.regular.wellFormed).tracking, by simp⟩
  have table : (startShell k).kernel.disk.table rootClusterNumber = freshRoot := fresh.root
  rw [table]
  rfl

theorem mirrors_inductive : Runs.Inductive execute Sensible FreshShell fun s => ∃ a, Mirrors s a where
  start := fun _ fresh => ⟨_, fresh.mirrors⟩
  step := fun _ _ ⟨_, mirrors⟩ sensible => by
    obtain ⟨output, s', answer, mirrors'⟩ := mirrors.step sensible
    exact ⟨output, s', answer, _, mirrors'⟩

/-- After any sensible lines on a new file system the shell stands where the replayed lines lead, its disk shows the
    tree that they leave, and the next sensible line is answered. -/
theorem run_refines_paths {history : List (Line × Output)} (run : Run execute Sensible FreshShell history s) :
    Mirrors s (replay PathShell.next ⟨newTree, []⟩ history) ∧
      ∀ line, Sensible s line → ∃ output s', execute s line = some (output, s') := by
  refine ⟨?_, fun line sensible => run.answered mirrors_inductive sensible⟩
  apply Run.refines Mirrors (fun _ fresh => fresh.mirrors) mirrors_inductive _ run
  intro s a line output s' _ mirrors sensible answer
  obtain ⟨output', s'', answer', mirrors'⟩ := mirrors.step sensible
  obtain ⟨rfl, rfl⟩ := Prod.mk.inj (Option.some.inj (answer.symm.trans answer'))
  exact mirrors'

/-- The line `mkdir d`. -/
def lineMkdirD : Memory := Memory.store (fun _ => 0) 6 (text ['d'] : Bytes 8)

theorem newTree_accepts : ¬ PathShell.Refuses ⟨newTree, []⟩ (text ['d']) noExt .folder := by
  rintro (zero | own | ⟨e, there⟩)
  · exact absurd zero (by decide)
  · exact absurd own (by decide)
  · exact there rfl

/-- After the line the new root holds the folder `d`, at cluster 3. -/
theorem run_lineMkdirD :
    ∃ k, Run execute Sensible FreshShell [(.command (.mkdir lineMkdirD), .done)] (startShell k) ∧
      Mirrors (startShell k) ⟨Function.update newTree [(text ['d'], noExt)] (some .folder), []⟩ ∧
      Enters (startShell k) lineD 1 3 := by
  obtain ⟨k₀, fresh⟩ : ∃ k, Fresh k := ⟨_, fresh_zeroKernel⟩
  have new : ¬ Taken (k₀.disk.table rootClusterNumber) folderD := by
    rw [fresh.root]
    exact not_taken_freshRoot (by decide) (by decide)
  have split : freeList k₀.disk.fatTable = 3 :: [] ++ List.range' 4 508 := fresh.freeList.trans rfl
  have slot : FirstFree (k₀.disk.table rootClusterNumber) 1 := fresh.root ▸ firstFree_freshRoot
  have intended : Intended k₀ (.write folderD) := intended_write .root rfl split (by decide) slot
  have room : Room k₀.disk rootClusterNumber 0 := intended.write folderD rfl
  obtain ⟨k, wrote, written⟩ := write_adds fresh.regular.sound .root rfl new split (by decide) slot
  have bytes : lineMkdirD.bytes 6 8 = text ['d'] := Memory.bytes_store _
  have made : commandCallMkdir (startShell k₀) lineMkdirD = some (startShell k) := by
    unfold commandCallMkdir
    rw [bytes]
    simp only [Option.bind_eq_bind]
    exact congrArg (Option.bind · fun r => some { startShell k₀ with kernel := r.2 }) wrote
  have freshShell : FreshShell (startShell k₀) := ⟨k₀, fresh, rfl⟩
  refine ⟨k, ?_, ?_, enters_folderD fresh.regular.sound (by decide) written⟩
  · have start : Run execute Sensible FreshShell [] (startShell k₀) := .start freshShell
    refine .step start room ?_
    simp only [execute, issue, made, Option.bind_eq_bind, Option.bind_some]
  · obtain ⟨s, answer, mirrors⟩ : ∃ s, commandCallMkdir (startShell k₀) lineMkdirD = some s ∧
        Mirrors s (PathShell.create ⟨newTree, []⟩ (lineMkdirD.bytes 6 8) noExt .folder) :=
      freshShell.mirrors.mkdir room
    obtain rfl := Option.some.inj (made.symm.trans answer)
    rw [bytes, PathShell.create, if_neg newTree_accepts] at mirrors
    exact mirrors

/-- `mkdir d` and `cd d`. -/
theorem run_refines_paths_folder :
    ∃ s, Run execute Sensible FreshShell
        [(.command (.mkdir lineMkdirD), .done), (.command (.cd lineD), .code 0)] s ∧
      Mirrors s ⟨Function.update newTree [(text ['d'], noExt)] (some .folder), [(text ['d'], noExt)]⟩ := by
  obtain ⟨k, run, mirrors, enters⟩ := run_lineMkdirD
  have started : Started (startShell k) := started_startShell mirrors.wellFormed
  have standing := started.standing
  obtain ⟨s, answer, _, _, _⟩ := standing.enter enters lineD_not_upward (by decide)
  have sensible : Sensible (startShell k) (.command (.cd lineD)) := by
    intro _ i found
    obtain rfl := Option.some.inj ((standing.found enters).symm.trans found)
    exact ⟨enters.folder, enters.cluster ▸ (by decide : 3 < 256)⟩
  have run' : Run execute Sensible FreshShell
      [(.command (.mkdir lineMkdirD), .done), (.command (.cd lineD), .code 0)] s := by
    refine .step run sensible ?_
    simp only [execute, issue, answer, Option.bind_eq_bind, Option.bind_some]
  refine ⟨s, run', ?_⟩
  have bytes : lineMkdirD.bytes 6 8 = text ['d'] := Memory.bytes_store _
  have meant : replay PathShell.next ⟨newTree, []⟩
      [(.command (.mkdir lineMkdirD), .done), (.command (.cd lineD), .code 0)] =
      ⟨Function.update newTree [(text ['d'], noExt)] (some .folder), [(text ['d'], noExt)]⟩ := by
    rw [replay, List.foldl_cons, List.foldl_cons, List.foldl_nil, PathShell.next, PathShell.next, bytes, lineD_bytes,
      PathShell.create, if_neg newTree_accepts, PathShell.cd, if_neg (by decide)]
    simp [PathShell.keyOf]
  rw [← meant]
  exact (run_refines_paths run').1

end Shell

end Brother420
