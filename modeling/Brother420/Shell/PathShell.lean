import Brother420.Shell.Trees
import Brother420.Shell.Whereabouts

/-! # The shell on paths

What the commands mean to a user, who sees a tree of names and stands at a path.
The shell of the source works on clusters, slots and a stack of bytes; it mirrors
the shell on paths through every run of commands that have room, do not double a
name and do not lose an entry.
-/

namespace Brother420

open Packed (Bytes)
open Runs (Run replay)
open Paths (Leads rebase)

namespace Shell

open Fat32 Kernel Volume

/-! ## The shell on paths -/

structure PathShell where
  tree : Path → Option Node
  cwd : Path

/-- The name that the self entry of the current directory has. -/
def ownName (cwd : Path) : EntryName := cwd.getLast?.getD (rootName, noExt)

/-- `cd` takes the name for the parent. -/
def Dots (name : Bytes 8) : Prop := name ⟨0, by decide⟩ = dot ∧ name ⟨1, by decide⟩ = dot

instance (name : Bytes 8) : Decidable (Dots name) := inferInstanceAs (Decidable (_ ∧ _))

namespace PathShell

def cd (a : PathShell) (name : Bytes 8) : PathShell :=
  if Dots name then { a with cwd := a.cwd.dropLast }
  else match a.tree (a.cwd ++ [(name, noExt)]) with
    | some .folder => { a with cwd := a.cwd ++ [(name, noExt)] }
    | _ => a

/-- The current directory has no room for the name: a folder shares its name with nothing, a file its name and
    extension, and neither may be empty or the directory's own. -/
def Refuses (a : PathShell) (name : Bytes 8) (ext : Bytes 3) : Node → Prop
  | .folder => name = (fun _ => 0) ∨ name = (ownName a.cwd).1 ∨ ∃ e, a.tree (a.cwd ++ [(name, e)]) ≠ none
  | .file _ => (name = (fun _ => 0) ∧ ext = fun _ => 0) ∨ (name, ext) = ownName a.cwd ∨
      a.tree (a.cwd ++ [(name, ext)]) ≠ none

def keyOf (name : Bytes 8) (ext : Bytes 3) : Node → EntryName
  | .folder => (name, noExt)
  | .file _ => (name, ext)

open Classical in
noncomputable def create (a : PathShell) (name : Bytes 8) (ext : Bytes 3) (node : Node) : PathShell :=
  if a.Refuses name ext node then a
  else { a with tree := Function.update a.tree (a.cwd ++ [keyOf name ext node]) (some node) }

/-- A folder that is not empty stays, and so does a folder whose name is that of the root. -/
def Stuck (a : PathShell) (key : EntryName) : Node → Prop
  | .folder => (∃ child, a.tree (a.cwd ++ [key, child]) ≠ none) ∨ key.1 = rootName
  | .file _ => False

open Classical in
noncomputable def rm (a : PathShell) (key : EntryName) : PathShell :=
  match a.tree (a.cwd ++ [key]) with
  | none => a
  | some node =>
    if a.Stuck key node then a else { a with tree := Function.update a.tree (a.cwd ++ [key]) none }

noncomputable def cp (a : PathShell) (key : EntryName) (newName : Bytes 8) (newExt : Bytes 3) : PathShell :=
  match a.tree (a.cwd ++ [key]) with
  | none => a
  | some node => a.create newName newExt node

def mv (a : PathShell) (key : EntryName) : MvTarget → PathShell
  | .rename newName newExt =>
    match a.tree (a.cwd ++ [key]) with
    | none => a
    | some node => { a with
        tree := rebase (a.cwd ++ [key]) (a.cwd ++ [(newName, newExt)])
          (Function.update a.tree (a.cwd ++ [key]) (some (restamped newName newExt node))) }
  | .parent => { a with tree := rebase (a.cwd ++ [key]) (a.cwd.dropLast ++ [key]) a.tree }
  | .folder newPath =>
    match a.tree (a.cwd ++ [(newPath, noExt)]), a.tree (a.cwd ++ [key]) with
    | some _, some _ => { a with tree := rebase (a.cwd ++ [key]) (a.cwd ++ [(newPath, noExt)] ++ [key]) a.tree }
    | _, _ => a

end PathShell

/-! ## Lines -/

/-- A command, or `mv` with the value of its uninitialised variable. -/
inductive Line
  | command (command : Command)
  | mv (path : Memory) (selfLocation : Nat)

def execute (s : ShellState) : Line → Option (Output × ShellState)
  | .command command => issue s command
  | .mv path selfLocation => do
    let s ← commandCallMv s path selfLocation
    some (.done, s)

/-- What a line does to the shell on paths. -/
noncomputable def PathShell.next (a : PathShell) : Line → Output → PathShell
  | .command (.cd path), _ => a.cd (path.bytes 0 8)
  | .command (.mkdir line), _ => a.create (line.bytes 6 8) noExt .folder
  | .command (.cp line _), _ =>
    match parseCpSource line with
    | none => a
    | some (name, ext, j) =>
      match parseCpTarget line ext j with
      | none => a
      | some (newName, newExt) => a.cp (name, ext) newName newExt
  | .command (.rm line), _ =>
    match parseRm line with
    | none => a
    | some key => a.rm key
  | .command (.ls _ _), _ => a
  | .mv path _, _ =>
    match parseMvSource path with
    | none => a
    | some (name, ext, isFile, i) =>
      match parseMvTarget path isFile i with
      | none => a
      | some target => a.mv (name, ext) target

/-! ## The relation -/

/-- The shell stands where the path leads, and its disk shows the tree. -/
structure Mirrors (s : ShellState) (a : PathShell) : Prop where
  orderly : Orderly s.kernel.disk
  shows : Shows s.kernel.disk a.tree
  leads : s.kernel.disk.volume.At a.cwd s.currentDirectoryCluster
  tracking : Tracking s
  entered : ∀ key ∈ a.cwd, ¬ Dots key.1

variable {s s' : ShellState} {a : PathShell} {v v' : Volume} {d : Disk} {p c : Nat} {i m : Fin 64} {l : List Nat}
  {path : Path} {name : Bytes 8} {ext : Bytes 3} {k : Kernel} {request : FAT32DriverRequest} {line : Memory}
  {node : Node} {key : EntryName}

/-- The entry is still there under its name. -/
structure Stays (e e' : FAT32DirectoryEntry) : Prop where
  live : e'.Live
  filesize : e'.filesize = e.filesize
  cluster : e'.cluster = e.cluster
  entryName : e'.entryName = e.entryName

theorem Stays.of_eq {e e' : FAT32DirectoryEntry} (live : e.Live) (same : e' = e) : Stays e e' := by
  subst same
  exact ⟨live, rfl, rfl, rfl⟩

/-- Route and path stay when the entries on the way do. -/
theorem route_and_path_kept (wellFormed : v.WellFormed) (route : v.Route c l) (leads : v.At path c)
    (stays : ∀ q i, v.Slot q i → (v.table q i).cluster ∈ l → Stays (v.table q i) (v'.table q i)) :
    v'.Route c l ∧ v'.At path c := by
  induction route generalizing path with
  | root =>
    cases leads with
    | here => exact ⟨.root, .here⟩
    | enter _ step => exact absurd step wellFormed.entryTree.root
  | @enter p c i l route edge ih =>
    cases leads with
    | here => exact absurd edge wellFormed.rootless
    | enter above step =>
      obtain ⟨j, slot, rfl, start⟩ := step
      obtain ⟨rfl, rfl⟩ := wellFormed.toSound.slot_unique edge.toSlot slot (start.trans edge.cluster.symm)
      have kept := stays _ j slot (List.mem_append_right _ (by rw [start]; exact List.mem_cons_self))
      obtain ⟨route', above'⟩ := ih above fun q i other member => stays q i other (List.mem_append_left _ member)
      have slot' : v'.Slot _ j := ⟨route'.directory, slot.entry, kept.live⟩
      have edge' : v'.Edge _ j c := ⟨slot', kept.filesize.trans edge.folder, kept.cluster.trans start⟩
      exact ⟨.enter route' edge', .enter above' ⟨j, slot', kept.entryName, kept.cluster.trans start⟩⟩

namespace Mirrors

theorem wellFormed (mirrors : Mirrors s a) : s.kernel.disk.WellFormed := mirrors.orderly.regular.wellFormed

theorem directory (mirrors : Mirrors s a) : s.kernel.disk.volume.Directory s.currentDirectoryCluster := by
  obtain ⟨l, standing, _⟩ := mirrors.tracking
  exact standing.route.directory

theorem readTable_eq (mirrors : Mirrors s a) :
    readTable s.kernel s.currentDirectoryCluster = s.kernel.disk.table s.currentDirectoryCluster := by
  obtain ⟨l, standing, _⟩ := mirrors.tracking
  exact standing.readTable_eq

theorem parent_eq (mirrors : Mirrors s a) :
    (UInt32.ofNat s.currentDirectoryCluster).toNat = s.currentDirectoryCluster := by
  obtain ⟨l, standing, _⟩ := mirrors.tracking
  exact standing.footing.toNat_current

/-- The disk has changed, but no entry on the way to the current directory has. -/
theorem change (mirrors : Mirrors s a) {k' : Kernel} {tree : Path → Option Node} (orderly : Orderly k'.disk)
    (shows : Shows k'.disk tree)
    (stays : ∀ l, s.kernel.disk.volume.Route s.currentDirectoryCluster l → ∀ q i, s.kernel.disk.volume.Slot q i →
      (s.kernel.disk.table q i).cluster ∈ l → Stays (s.kernel.disk.table q i) (k'.disk.table q i)) :
    Mirrors { s with kernel := k' } { a with tree := tree } := by
  obtain ⟨l, standing, small⟩ := mirrors.tracking
  obtain ⟨route, leads⟩ : k'.disk.volume.Route s.currentDirectoryCluster l ∧
      k'.disk.volume.At a.cwd s.currentDirectoryCluster :=
    route_and_path_kept mirrors.wellFormed.volume standing.route mirrors.leads (stays l standing.route)
  exact ⟨orderly, shows, leads, ⟨l, ⟨orderly.regular.wellFormed, route, standing.top, standing.room, standing.entries⟩,
    small⟩, mirrors.entered⟩

/-- The kernel has changed, but not its disk. -/
theorem of_disk (mirrors : Mirrors s a) {k' : Kernel} (same : k'.disk = s.kernel.disk) :
    Mirrors { s with kernel := k' } a :=
  mirrors.change (same ▸ mirrors.orderly) (same ▸ mirrors.shows)
    fun _ _ q i slot _ => .of_eq slot.live (congrFun (congrFun (congrArg Disk.table same) q) i)

/-! ### What the tree says about the current directory -/

theorem some_iff (mirrors : Mirrors s a) :
    a.tree (a.cwd ++ [key]) = some node ↔
      ∃ i, s.kernel.disk.volume.Slot s.currentDirectoryCluster i ∧
        (s.kernel.disk.table s.currentDirectoryCluster i).entryName = key ∧
        Content s.kernel.disk (s.kernel.disk.table s.currentDirectoryCluster i).cluster node :=
  shows_some_iff mirrors.wellFormed.volume.distinct mirrors.shows mirrors.leads

theorem none_iff (mirrors : Mirrors s a) :
    a.tree (a.cwd ++ [key]) = none ↔ ∀ i, s.kernel.disk.volume.Slot s.currentDirectoryCluster i →
      (s.kernel.disk.table s.currentDirectoryCluster i).entryName ≠ key :=
  shows_none_iff mirrors.wellFormed.volume.distinct mirrors.shows mirrors.leads

/-- The self entry has the last name of the path. -/
theorem own (mirrors : Mirrors s a) :
    (s.kernel.disk.table s.currentDirectoryCluster 0).entryName = ownName a.cwd := by
  have leads := mirrors.leads
  have directory := mirrors.directory
  generalize s.currentDirectoryCluster = here at leads directory ⊢
  generalize a.cwd = path at leads ⊢
  cases leads with
  | here => exact mirrors.orderly.root
  | enter _ step =>
    obtain ⟨i, slot, rfl, rfl⟩ := step
    obtain ⟨l, chain, _⟩ := mirrors.orderly.regular.sound.volume.chain slot
    have edge := mirrors.orderly.regular.sound.volume.slot_of_directory_mem slot chain chain.head_mem directory
    rw [ownName, List.getLast?_concat, Option.getD_some]
    exact mirrors.orderly.own edge

/-! ### Writing -/

variable (request) in
/-- The driver refuses a name exactly if the shell on paths does. -/
theorem taken_iff (mirrors : Mirrors s a) (vacant : ∃ i, ¬ (s.kernel.disk.table s.currentDirectoryCluster i).Live) :
    Taken (s.kernel.disk.table s.currentDirectoryCluster) request ↔
      a.Refuses request.name request.ext request.newNode := by
  have sound := mirrors.orderly.regular.sound.volume
  have directory := mirrors.directory
  obtain ⟨o, vacant⟩ := vacant
  have empty : s.kernel.disk.table s.currentDirectoryCluster o = .zero := sound.free directory vacant
  obtain ⟨ownName, ownExt⟩ := Prod.mk.inj mirrors.own
  -- a slot is free, the self entry, or shown
  have shown (i : Fin 64) : s.kernel.disk.table s.currentDirectoryCluster i = .zero ∨ i = 0 ∨
      s.kernel.disk.volume.Slot s.currentDirectoryCluster i := by
    by_cases live : (s.kernel.disk.table s.currentDirectoryCluster i).Live
    · by_cases self : i = 0
      · exact .inr (.inl self)
      · exact .inr (.inr ⟨directory, self, live⟩)
    · exact .inl (sound.free directory live)
  by_cases folder : request.bufferSize = 0
  · rw [newNode_folder folder]
    constructor
    · rintro ⟨i, same, _⟩
      rcases shown i with zero | rfl | slot
      · rw [zero] at same
        exact .inl same.symm
      · exact .inr (.inl (same.symm.trans ownName))
      · refine .inr (.inr ⟨(s.kernel.disk.table s.currentDirectoryCluster i).ext, fun absent => ?_⟩)
        exact mirrors.none_iff.mp absent i slot (Prod.ext same rfl)
    · have fits {i : Fin 64} (same : (s.kernel.disk.table s.currentDirectoryCluster i).name = request.name) :
          Taken (s.kernel.disk.table s.currentDirectoryCluster) request := ⟨i, same, fun file => absurd folder file⟩
      rintro (zero | own | ⟨e, there⟩)
      · exact fits (i := o) (by rw [empty, zero]; rfl)
      · exact fits (ownName.trans own.symm)
      · obtain ⟨node, found⟩ := Option.ne_none_iff_exists'.mp there
        obtain ⟨i, _, same, _⟩ := mirrors.some_iff.mp found
        exact fits (Prod.mk.inj same).1
  · rw [newNode_file folder]
    constructor
    · rintro ⟨i, same, sameExt⟩
      have sameExt := sameExt folder
      rcases shown i with zero | rfl | slot
      · rw [zero] at same sameExt
        exact .inl ⟨same.symm, sameExt.symm⟩
      · exact .inr (.inl (Prod.ext (same.symm.trans ownName) (sameExt.symm.trans ownExt)))
      · refine .inr (.inr fun absent => ?_)
        exact mirrors.none_iff.mp absent i slot (Prod.ext same sameExt)
    · rintro (⟨zero, zero'⟩ | own | there)
      · exact ⟨o, by rw [empty, zero]; rfl, fun _ => by rw [empty, zero']; rfl⟩
      · obtain ⟨same, sameExt⟩ := Prod.mk.inj own
        exact ⟨0, ownName.trans same.symm, fun _ => ownExt.trans sameExt.symm⟩
      · obtain ⟨node, found⟩ := Option.ne_none_iff_exists'.mp there
        obtain ⟨i, _, same, _⟩ := mirrors.some_iff.mp found
        obtain ⟨same, sameExt⟩ := Prod.mk.inj same
        exact ⟨i, same, fun _ => sameExt⟩

theorem entryName_eq : request.entryName = PathShell.keyOf request.name request.ext request.newNode := by
  by_cases folder : request.bufferSize = 0
  · rw [entryName_folder folder, newNode_folder folder]
    rfl
  · rw [entryName_file folder, newNode_file folder]
    rfl

variable (request) in
/-- A write with room in the current directory creates the node, unless the name is refused. -/
theorem create (mirrors : Mirrors s a) (same : k.disk = s.kernel.disk)
    (parent : request.parentClusterNumber = UInt32.ofNat s.currentDirectoryCluster)
    (room : Room s.kernel.disk s.currentDirectoryCluster request.bufferSize) :
    ∃ code k', Fat32.write k request = some (code, k') ∧
      Mirrors { s with kernel := k' } (a.create request.name request.ext request.newNode) := by
  have asParent : request.parentClusterNumber.toNat = s.currentDirectoryCluster := by
    rw [parent]
    exact mirrors.parent_eq
  have sound := mirrors.orderly.regular.sound
  have directory := mirrors.directory
  have decided := mirrors.taken_iff request room.slot
  rw [← same] at room sound directory decided
  rw [PathShell.create]
  by_cases taken : Taken (k.disk.table s.currentDirectoryCluster) request
  · rw [if_pos (decided.mp taken)]
    exact ⟨1, _, write_refused sound directory asParent room taken, mirrors.of_disk same⟩
  · rw [if_neg (mt decided.mpr taken)]
    obtain ⟨k', o, c, l, wrote, written, inside, newTable⟩ := write_enters sound directory asParent room taken
    have orderly : Orderly k.disk := same ▸ mirrors.orderly
    have leads : k.disk.volume.At a.cwd s.currentDirectoryCluster := same ▸ mirrors.leads
    have shows := written.shows orderly.regular.lossy leads (same ▸ mirrors.shows)
    rw [entryName_eq] at shows
    refine ⟨0, k', wrote, mirrors.change (orderly.write written inside newTable) shows ?_⟩
    intro _ _ q i slot _
    rw [← same] at slot ⊢
    exact .of_eq slot.live (written.added.table_eq slot.directory slot.live)

theorem mkdir (mirrors : Mirrors s a) (room : Room s.kernel.disk s.currentDirectoryCluster 0) :
    ∃ s', commandCallMkdir s line = some s' ∧ Mirrors s' (a.create (line.bytes 6 8) noExt .folder) := by
  obtain ⟨code, k', wrote, mirrors'⟩ := mirrors.create
    ⟨fun _ => 0, line.bytes 6 8, noExt, UInt32.ofNat s.currentDirectoryCluster, 0⟩ rfl rfl room
  refine ⟨{ s with kernel := k' }, ?_, mirrors'⟩
  simp only [commandCallMkdir, wrote, Option.bind_eq_bind, Option.bind_some]

/-! ### Finding -/

theorem slot_of_found (mirrors : Mirrors s a)
    (found : findLive (s.kernel.disk.table s.currentDirectoryCluster) name ext = some m) :
    s.kernel.disk.volume.Slot s.currentDirectoryCluster m ∧
      (s.kernel.disk.table s.currentDirectoryCluster m).entryName = (name, ext) := by
  obtain ⟨⟨entry, live, sameName, sameExt⟩, _⟩ := findLive_some.mp found
  exact ⟨⟨mirrors.directory, entry, live⟩, Prod.ext sameName sameExt⟩

theorem absent_of_missing (mirrors : Mirrors s a)
    (missing : findLive (s.kernel.disk.table s.currentDirectoryCluster) name ext = none) :
    a.tree (a.cwd ++ [(name, ext)]) = none := by
  refine mirrors.none_iff.mpr fun i slot same => ?_
  obtain ⟨sameName, sameExt⟩ := Prod.mk.inj same
  exact findLive_none.mp missing i slot.entry slot.live sameName sameExt

/-- What is shown under the name of a slot, which `read` copies if it is a file. -/
theorem shown (mirrors : Mirrors s a) (slot : s.kernel.disk.volume.Slot s.currentDirectoryCluster m) :
    ∃ node, a.tree (a.cwd ++ [(s.kernel.disk.table s.currentDirectoryCluster m).entryName]) = some node ∧
      (node = .folder ∧ (s.kernel.disk.table s.currentDirectoryCluster m).filesize = 0 ∨
        ∃ data, node = .file data ∧ data.length = (s.kernel.disk.table s.currentDirectoryCluster m).filesize.toNat ∧
          (s.kernel.disk.table s.currentDirectoryCluster m).filesize ≠ 0) := by
  by_cases folder : (s.kernel.disk.table s.currentDirectoryCluster m).filesize = 0
  · have edge : s.kernel.disk.volume.Edge s.currentDirectoryCluster m
        (s.kernel.disk.table s.currentDirectoryCluster m).cluster := ⟨slot, folder, rfl⟩
    exact ⟨.folder, mirrors.some_iff.mpr ⟨m, slot, rfl, .folder edge.directory_child⟩, .inl ⟨rfl, folder⟩⟩
  · obtain ⟨l, chain, _⟩ := mirrors.orderly.regular.sound.volume.chain slot
    exact ⟨_, mirrors.some_iff.mpr ⟨m, slot, rfl, .file slot folder chain⟩, .inr ⟨_, rfl, fileBytes_length, folder⟩⟩

/-! ### Copying -/

/-- The request that `cp` reads by. -/
def firstCopy (s : ShellState) (m : Fin 64) (name : Bytes 8) (ext : Bytes 3) (cbuf : Memory) : FAT32DriverRequest :=
  ⟨cbuf, name, ext, UInt32.ofNat s.currentDirectoryCluster, (s.kernel.disk.table s.currentDirectoryCluster m).filesize⟩

/-- The request that it writes, with what it has read by the first. -/
def secondCopy (s : ShellState) (m : Fin 64) (first : FAT32DriverRequest) (name : Bytes 8) (ext : Bytes 3) :
    FAT32DriverRequest :=
  ⟨(Fat32.read s.kernel first).2.2, name, ext, UInt32.ofNat s.currentDirectoryCluster,
    (s.kernel.disk.table s.currentDirectoryCluster m).filesize⟩

/-- The second request hands over what the tree shows. -/
theorem newNode_secondCopy (mirrors : Mirrors s a) (slot : s.kernel.disk.volume.Slot s.currentDirectoryCluster m)
    (sameName : (s.kernel.disk.table s.currentDirectoryCluster m).entryName = (name, ext))
    (there : a.tree (a.cwd ++ [(name, ext)]) = some node) (cbuf : Memory) (newName : Bytes 8) (newExt : Bytes 3) :
    (secondCopy s m (firstCopy s m name ext cbuf) newName newExt).newNode = node := by
  obtain ⟨node', there', is⟩ := mirrors.shown slot
  rw [sameName, there] at there'
  obtain rfl := Option.some.inj there'
  rcases is with ⟨rfl, folder⟩ | ⟨data, rfl, length, file⟩
  · exact newNode_folder folder
  · have parent : (firstCopy s m name ext cbuf).parentClusterNumber.toNat = s.currentDirectoryCluster :=
      mirrors.parent_eq
    have bytes := (read_shown mirrors.orderly.regular.lossy mirrors.shows (parent ▸ mirrors.leads) there
      (Nat.le_of_eq length)).2
    rw [length] at bytes
    exact (newNode_file file).trans (congrArg Node.file bytes)

/-- What `cp` needs: a file of at most four clusters, and room for the copy. -/
def CpSensible (s : ShellState) (line : Memory) : Prop :=
  ∀ name ext j m, parseCpSource line = some (name, ext, j) →
    findLive (s.kernel.disk.table s.currentDirectoryCluster) name ext = some m →
    (s.kernel.disk.table s.currentDirectoryCluster m).filesize.toNat ≤ 4 * clusterSize ∧
      ∀ newName newExt, parseCpTarget line ext j = some (newName, newExt) →
        Room s.kernel.disk s.currentDirectoryCluster (s.kernel.disk.table s.currentDirectoryCluster m).filesize

theorem cp (mirrors : Mirrors s a) (cbuf : Memory) (output : Output) (sensible : CpSensible s line) :
    ∃ buf s', commandCallCp s line cbuf = some (buf, s') ∧ Mirrors s' (a.next (.command (.cp line cbuf)) output) := by
  simp only [commandCallCp, mirrors.readTable_eq, PathShell.next]
  cases source : parseCpSource line with
  | none => exact ⟨none, s, rfl, mirrors⟩
  | some parsed =>
    obtain ⟨name, ext, j⟩ := parsed
    simp only
    cases found : findLive (s.kernel.disk.table s.currentDirectoryCluster) name ext with
    | none =>
      refine ⟨none, s, rfl, ?_⟩
      cases parseCpTarget line ext j with
      | none => exact mirrors
      | some target =>
        simp only [PathShell.cp, mirrors.absent_of_missing found]
        exact mirrors
    | some m =>
      obtain ⟨slot, sameName⟩ := mirrors.slot_of_found found
      simp only
      cases target : parseCpTarget line ext j with
      | none => exact ⟨_, _, rfl, mirrors.of_disk (read_disk _ _)⟩
      | some new =>
        obtain ⟨newName, newExt⟩ := new
        obtain ⟨node, there, _⟩ := mirrors.shown slot
        rw [sameName] at there
        have copied := mirrors.newNode_secondCopy slot sameName there cbuf newName newExt
        obtain ⟨code, k', wrote, mirrors'⟩ := mirrors.create
          (secondCopy s m (firstCopy s m name ext cbuf) newName newExt)
          (read_disk s.kernel (firstCopy s m name ext cbuf)) rfl
          ((sensible name ext j m source found).2 newName newExt target)
        rw [copied] at mirrors'
        refine ⟨some (Fat32.read s.kernel (firstCopy s m name ext cbuf)).2.2, { s with kernel := k' }, ?_, ?_⟩
        · simp only [firstCopy, secondCopy] at wrote ⊢
          simp only [wrote, Option.bind_eq_bind, Option.bind_some]
        · simp only [PathShell.cp, there]
          exact mirrors'

/-! ### Removing -/

/-- The driver looks a folder up by its name alone: no other slot in use may have it. -/
def RmSensible (s : ShellState) (line : Memory) : Prop :=
  ∀ name ext m, parseRm line = some (name, ext) →
    findLive (s.kernel.disk.table s.currentDirectoryCluster) name ext = some m →
    (s.kernel.disk.table s.currentDirectoryCluster m).filesize = 0 →
    ∀ j, (s.kernel.disk.table s.currentDirectoryCluster j).Live →
      (s.kernel.disk.table s.currentDirectoryCluster j).name = name → j = m

/-- An accepted delete takes out what is shown under the name of the request. -/
theorem erase (mirrors : Mirrors s a) {k' : Kernel} {o : Fin 64}
    (erased : Erased request s.currentDirectoryCluster o l s.kernel k') :
    Mirrors { s with kernel := k' }
      { a with tree := Function.update a.tree (a.cwd ++ [request.entryName]) none } := by
  have shows := erased.shows mirrors.orderly.regular.lossy mirrors.leads mirrors.shows
  rw [erased.entryName mirrors.orderly.bare] at shows
  refine mirrors.change (mirrors.orderly.delete erased) shows fun l route q i other member => ?_
  refine .of_eq other.live (erased.removed.table_eq other.directory ?_)
  by_contra both
  obtain ⟨rfl, rfl⟩ : q = s.currentDirectoryCluster ∧ i = o := by simpa using both
  exact mirrors.orderly.regular.sound.volume.not_mem_route other route member

section Remove

variable (mirrors : Mirrors s a) (slot : s.kernel.disk.volume.Slot s.currentDirectoryCluster m)
  (sameName : (s.kernel.disk.table s.currentDirectoryCluster m).entryName = (name, ext))
include mirrors slot sameName

/-- The driver refuses to delete a folder exactly if it is stuck. -/
theorem stuck_iff (folder : (s.kernel.disk.table s.currentDirectoryCluster m).filesize = 0) :
    a.Stuck (name, ext) .folder ↔
      occupied (s.kernel.disk.table (s.kernel.disk.table s.currentDirectoryCluster m).cluster) = true ∨
        name = rootName := by
  have leads : s.kernel.disk.volume.At (a.cwd ++ [(name, ext)])
      (s.kernel.disk.table s.currentDirectoryCluster m).cluster := by
    rw [← sameName]
    exact .enter mirrors.leads slot.entry_name
  have edge : s.kernel.disk.volume.Edge s.currentDirectoryCluster m
      (s.kernel.disk.table s.currentDirectoryCluster m).cluster := ⟨slot, folder, rfl⟩
  refine or_congr ?_ Iff.rfl
  rw [occupied_iff]
  constructor
  · rintro ⟨child, there⟩
    by_contra empty
    apply there
    rw [List.append_cons]
    refine (shows_none_iff mirrors.wellFormed.volume.distinct mirrors.shows leads).mpr fun i inner _ => ?_
    exact empty ⟨i, inner.entry, inner.live⟩
  · rintro ⟨i, entry, live⟩
    refine ⟨(s.kernel.disk.table (s.kernel.disk.table s.currentDirectoryCluster m).cluster i).entryName,
      fun absent => ?_⟩
    rw [List.append_cons] at absent
    exact (shows_none_iff mirrors.wellFormed.volume.distinct mirrors.shows leads).mp absent i ⟨edge.directory_child, entry, live⟩ rfl

variable (asName : request.name = name)
  (parent : request.parentClusterNumber = UInt32.ofNat s.currentDirectoryCluster)
  (size : request.bufferSize = (s.kernel.disk.table s.currentDirectoryCluster m).filesize)
include asName parent size

theorem deleteFolder (folder : (s.kernel.disk.table s.currentDirectoryCluster m).filesize = 0)
    (there : a.tree (a.cwd ++ [(name, ext)]) = some .folder)
    (only : ∀ j, (s.kernel.disk.table s.currentDirectoryCluster j).Live →
      (s.kernel.disk.table s.currentDirectoryCluster j).name = name → j = m) :
    ∃ code k', Fat32.delete s.kernel request = some (code, k') ∧
      Mirrors { s with kernel := k' } (a.rm (name, ext)) := by
  have regular := mirrors.orderly.regular
  have asParent : request.parentClusterNumber.toNat = s.currentDirectoryCluster := by
    rw [parent]
    exact mirrors.parent_eq
  obtain ⟨isName, isExt⟩ := Prod.mk.inj sameName
  have found : findName (s.kernel.disk.table s.currentDirectoryCluster) request.name = some m := by
    have lookup := regular.volume.findName_folder slot folder (by rw [Disk.volume_table, isName]; exact only)
    rwa [Disk.volume_table, isName, ← asName] at lookup
  have answer := delete_folder asParent (regular.volume.directory_range mirrors.directory).2 (size.trans folder)
    (folderTarget_some found) (regular.volume.slot_range slot).2
  have stuck := mirrors.stuck_iff slot sameName folder
  rw [asName] at answer
  rw [PathShell.rm, there]
  by_cases isStuck : a.Stuck (name, ext) .folder
  · simp only [if_pos isStuck]
    -- the driver answers 2 or -1 and has changed nothing
    have refused : ∃ code, Fat32.delete s.kernel request = some (code, s.kernel.load s.currentDirectoryCluster) := by
      by_cases busy : occupied
          (s.kernel.disk.table (s.kernel.disk.table s.currentDirectoryCluster m).cluster) = true
      · exact ⟨2, by rw [answer, if_pos busy]⟩
      · exact ⟨-1, by rw [answer, if_neg busy, if_pos ((stuck.mp isStuck).resolve_left busy)]⟩
    obtain ⟨code, refused⟩ := refused
    exact ⟨code, _, refused, mirrors.of_disk rfl⟩
  · obtain ⟨empty, notRoot⟩ := not_or.mp (mt stuck.mpr isStuck)
    rw [if_neg empty, if_neg notRoot] at answer
    have aimed : Aimed s.kernel.disk s.currentDirectoryCluster request := by
      rw [Aimed, if_pos (size.trans folder), asName]
      exact ⟨m, slot, folder, only, isName⟩
    have key : request.entryName = (name, ext) := by
      rw [entryName_folder (size.trans folder), asName, ← isExt]
      exact Prod.ext rfl (mirrors.orderly.bare _ _ slot folder).symm
    simp only [if_neg isStuck]
    obtain ⟨o, l, erased⟩ := delete_erased regular mirrors.directory asParent aimed answer
    exact ⟨0, _, answer, key ▸ mirrors.erase erased⟩

theorem deleteFile (asExt : request.ext = ext) {data : List UInt8}
    (file : (s.kernel.disk.table s.currentDirectoryCluster m).filesize ≠ 0)
    (there : a.tree (a.cwd ++ [(name, ext)]) = some (.file data)) :
    ∃ code k', Fat32.delete s.kernel request = some (code, k') ∧
      Mirrors { s with kernel := k' } (a.rm (name, ext)) := by
  have regular := mirrors.orderly.regular
  have asParent : request.parentClusterNumber.toNat = s.currentDirectoryCluster := by
    rw [parent]
    exact mirrors.parent_eq
  obtain ⟨isName, isExt⟩ := Prod.mk.inj sameName
  have found : findNameExt (s.kernel.disk.table s.currentDirectoryCluster) request.name request.ext = some m := by
    have lookup := regular.volume.findNameExt_slot slot
    rwa [Disk.volume_table, isName, isExt, ← asName, ← asExt] at lookup
  have aimed : Aimed s.kernel.disk s.currentDirectoryCluster request := by
    rw [Aimed, if_neg (size ▸ file), asName, asExt]
    exact .inl ⟨m, slot, file, isName, isExt⟩
  have key : request.entryName = (name, ext) := by rw [entryName_file (size ▸ file), asName, asExt]
  have notStuck : ¬ a.Stuck (name, ext) (.file data) := id
  rw [PathShell.rm, there]
  simp only [if_neg notStuck]
  obtain ⟨l, chain, _⟩ := regular.sound.volume.chain slot
  obtain ⟨k', answer, _⟩ := delete_file_spec regular.sound asParent (size ▸ file) found slot chain
  obtain ⟨o, l, erased⟩ := delete_erased regular mirrors.directory asParent aimed answer
  exact ⟨0, k', answer, key ▸ mirrors.erase erased⟩

end Remove

theorem rm (mirrors : Mirrors s a) (output : Output) (sensible : RmSensible s line) :
    ∃ s', commandCallRm s line = some s' ∧ Mirrors s' (a.next (.command (.rm line)) output) := by
  simp only [commandCallRm, mirrors.readTable_eq, PathShell.next]
  cases parsed : parseRm line with
  | none => exact ⟨s, rfl, mirrors⟩
  | some key =>
    obtain ⟨name, ext⟩ := key
    simp only
    cases found : findLive (s.kernel.disk.table s.currentDirectoryCluster) name ext with
    | none =>
      refine ⟨s, rfl, ?_⟩
      rw [PathShell.rm, mirrors.absent_of_missing found]
      exact mirrors
    | some m =>
      obtain ⟨slot, sameName⟩ := mirrors.slot_of_found found
      have only := sensible name ext m parsed found
      obtain ⟨node, there, is⟩ := mirrors.shown slot
      rw [sameName] at there
      let request : FAT32DriverRequest := ⟨fun _ => 0, name, ext, UInt32.ofNat s.currentDirectoryCluster,
        (s.kernel.disk.table s.currentDirectoryCluster m).filesize⟩
      have deleted : ∃ code k', Fat32.delete s.kernel request = some (code, k') ∧
          Mirrors { s with kernel := k' } (a.rm (name, ext)) := by
        rcases is with ⟨rfl, folder⟩ | ⟨data, rfl, _, file⟩
        · exact mirrors.deleteFolder slot sameName rfl rfl rfl folder there (only folder)
        · exact mirrors.deleteFile slot sameName rfl rfl rfl rfl file there
      obtain ⟨code, k', answer, mirrors'⟩ := deleted
      refine ⟨{ s with kernel := k' }, ?_, mirrors'⟩
      simp only [request] at answer
      simp only [answer, Option.bind_eq_bind, Option.bind_some]

end Mirrors

end Shell

end Brother420
