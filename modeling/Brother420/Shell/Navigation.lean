import Brother420.Fat32.Files
import Brother420.Fat32.Routes
import Brother420.Shell.Tables

/-! # Changing directories

The directory stack follows the route from the root to the current directory as
long as every cluster on it fits the 8-bit cells of the stack.  Routes in a sound
volume do not repeat a directory, so the 256 cells are then enough.
-/

namespace Brother420

open Packed (Bytes Layout)
open Runs (Run)

namespace Shell

open Fat32 Volume

/-! ## The stack as a list -/

namespace CurrentDirStack

def cell (cds : CurrentDirStack) (i : Nat) : UInt8 := if h : i < 256 then cds.cdStack ⟨i, h⟩ else 0

/-- The cells up to the top, from the bottom. -/
def entries (cds : CurrentDirStack) : List UInt8 := (List.range (cds.top + 1).toNat).map cds.cell

variable {cds cds' : CurrentDirStack} {dir : UInt8} {n : Nat}

theorem pushCurrentDir_entries (dir : UInt8) (top : cds.top + 1 = n) (room : n < 256) :
    ∃ cds', cds.pushCurrentDir dir = some cds' ∧ cds'.top = n ∧
    cds'.entries = cds.entries ++ [dir] := by
  have range : 0 ≤ cds.top + 1 ∧ cds.top + 1 < 256 := by omega
  refine ⟨_, dif_pos range, top, ?_⟩
  have count : (cds.top + 1 + 1).toNat = n + 1 := by omega
  have count' : (cds.top + 1).toNat = n := by omega
  simp only [entries, count, count', List.range_succ, List.map_append, List.map_cons, List.map_nil]
  -- the cells below are untouched, and the new top cell holds `dir`
  congr 1
  · apply List.map_congr_left
    intro i member
    have below := List.mem_range.mp member
    have inside : i < 256 := by omega
    have apart : (⟨i, inside⟩ : Fin 256) ≠ ⟨n, room⟩ := by
      intro same
      have := Fin.mk.inj same
      omega
    simp [cell, inside, Function.update_of_ne apart]
  · simp [cell, room]

theorem popCurrentDir_entries (top : cds.top + 1 = (n + 1 : Nat)) :
    cds.popCurrentDir.top + 1 = n ∧ cds.popCurrentDir.entries = cds.entries.dropLast := by
  have count : (cds.top + 1).toNat = n + 1 := by omega
  have count' : (cds.top - 1 + 1).toNat = n := by omega
  refine ⟨by simp only [popCurrentDir]; omega, ?_⟩
  simp only [entries, popCurrentDir, count, count', List.range_succ, List.map_append, List.map_cons, List.map_nil,
    List.dropLast_concat]
  rfl

theorem getTopCurrentDir_entries {rest : List UInt8} (top : cds.top + 1 = (n + 1 : Nat))
    (room : n < 256)
    (split : cds.entries = rest ++ [dir]) : cds.getTopCurrentDir = some dir := by
  have count : (cds.top + 1).toNat = n + 1 := by omega
  have range : 0 ≤ cds.top ∧ cds.top < 256 := by omega
  have position : cds.top.toNat = n := by omega
  simp only [entries, count, List.range_succ, List.map_append, List.map_cons, List.map_nil] at split
  have last := (List.append_inj' split rfl).2
  simp only [List.cons.injEq, and_true] at last
  rw [getTopCurrentDir, dif_pos range, ← last]
  simp [cell, position, room]

end CurrentDirStack

/-! ## One command -/

/-- The line starts with two dots, which `cd` takes for the parent. -/
abbrev Upward (path : Memory) : Prop := path.bytes 0 2 = dotDot

/-- The line names the folder in slot `i` of the current directory, at cluster `c`. -/
structure Enters (s : ShellState) (path : Memory) (i : Fin 64) (c : Nat) : Prop
    extends s.kernel.disk.volume.Edge s.currentDirectoryCluster i c where
  name : (s.kernel.disk.table s.currentDirectoryCluster i).name = path.bytes 0 8
  ext : (s.kernel.disk.table s.currentDirectoryCluster i).ext = noExt

/-- The shell stands in a directory of a sound volume, and the cells of its stack up to the top hold
    the low bytes of the clusters on the route there. -/
structure Footing (s : ShellState) (l : List Nat) : Prop where
  sound : s.kernel.disk.Sound
  route : s.kernel.disk.volume.Route s.currentDirectoryCluster l
  top : s.currentDirStack.top + 1 = l.length
  room : l.length ≤ 256
  entries : s.currentDirStack.entries = l.map UInt8.ofNat

/-- The same in a well-formed volume. -/
structure Standing (s : ShellState) (l : List Nat) : Prop where
  disk : s.kernel.disk.WellFormed
  route : s.kernel.disk.volume.Route s.currentDirectoryCluster l
  top : s.currentDirStack.top + 1 = l.length
  room : l.length ≤ 256
  entries : s.currentDirStack.entries = l.map UInt8.ofNat

variable {s s' : ShellState} {path up : Memory} {i : Fin 64} {c p : Nat} {l : List Nat}
  {history : List (Memory × UInt8)}

theorem Standing.footing (standing : Standing s l) : Footing s l :=
  ⟨standing.disk.sound, standing.route, standing.top, standing.room, standing.entries⟩

theorem Footing.standing (footing : Footing s l) (disk : s.kernel.disk.WellFormed) : Standing s l :=
  ⟨disk, footing.route, footing.top, footing.room, footing.entries⟩

theorem Footing.readTable_eq (footing : Footing s l) :
    readTable s.kernel s.currentDirectoryCluster = s.kernel.disk.table s.currentDirectoryCluster := by
  have range := footing.sound.volume.directory_range footing.route.directory
  exact Shell.readTable_eq (by omega)

theorem Standing.directory_lt (standing : Standing s l) : s.currentDirectoryCluster < 2 ^ 26 := by
  have range := standing.disk.volume.directory_range standing.route.directory
  omega

theorem Standing.readTable_eq (standing : Standing s l) :
    readTable s.kernel s.currentDirectoryCluster = s.kernel.disk.table s.currentDirectoryCluster :=
  Shell.readTable_eq standing.directory_lt

/-- The first slot in use with the name is entered, if its cluster can be pushed. -/
theorem enter_found {cds : CurrentDirStack} (inside : s.currentDirectoryCluster < 2 ^ 26) (notUp : ¬ Upward path)
    (found : findLive (s.kernel.disk.table s.currentDirectoryCluster) (path.bytes 0 8) noExt = some i)
    (pushed : s.currentDirStack.pushCurrentDir
      (UInt8.ofNat (s.kernel.disk.table s.currentDirectoryCluster i).cluster) = some cds) :
    commandCallCd s path =
      some (0, ⟨s.kernel, (s.kernel.disk.table s.currentDirectoryCluster i).cluster, cds⟩) := by
  have notDots : ¬ memcmp (path.bytes 0 2) dotDot = 0 := by rwa [memcmp_eq_zero_iff]
  simp only [commandCallCd, Shell.readTable_eq inside, notDots, ↓reduceIte, found, pushDirectory, pushed,
    Option.bind_eq_bind, Option.bind_some]

/-- Without such a slot `cd` does nothing. -/
theorem stay_absent (inside : s.currentDirectoryCluster < 2 ^ 26) (notUp : ¬ Upward path)
    (absent : findLive (s.kernel.disk.table s.currentDirectoryCluster) (path.bytes 0 8) noExt = none) :
    commandCallCd s path = some (1, s) := by
  have notDots : ¬ memcmp (path.bytes 0 2) dotDot = 0 := by rwa [memcmp_eq_zero_iff]
  simp only [commandCallCd, Shell.readTable_eq inside, notDots, ↓reduceIte, absent]

/-- Where `cd` enters, it pushes the low byte of the cluster that it has gone to. -/
theorem cd_entered (notUp : ¬ Upward path) (answer : commandCallCd s path = some (0, s')) :
    s.currentDirStack.pushCurrentDir (UInt8.ofNat s'.currentDirectoryCluster) = some s'.currentDirStack := by
  have notDots : ¬ memcmp (path.bytes 0 2) dotDot = 0 := by rwa [memcmp_eq_zero_iff]
  simp only [commandCallCd, notDots, ↓reduceIte] at answer
  split at answer
  · obtain ⟨s₁, pushed, same⟩ := Option.bind_eq_some_iff.mp answer
    obtain ⟨cds, stored, entered⟩ := Option.bind_eq_some_iff.mp pushed
    cases entered
    cases same
    exact stored
  · cases answer

theorem cd_left (upward : Upward path) (below : s.currentDirectoryCluster ≠ rootClusterNumber)
    (answer : commandCallCd s path = some (0, s')) : s'.currentDirStack = s.currentDirStack.popCurrentDir := by
  have dots : memcmp (path.bytes 0 2) dotDot = 0 := memcmp_eq_zero_iff.mpr upward
  have notRoot : s.currentDirectoryCluster ≠ 2 := below
  simp only [commandCallCd, dots, notRoot, ↓reduceIte] at answer
  obtain ⟨s₁, popped, same⟩ := Option.bind_eq_some_iff.mp answer
  obtain ⟨top, _, left⟩ := Option.bind_eq_some_iff.mp popped
  cases left
  cases same
  rfl

/-- Entering a folder goes down one directory and pushes the low byte of its cluster. -/
theorem Footing.enter (footing : Footing s l) (notUp : ¬ Upward path)
    (found : findLive (s.kernel.disk.table s.currentDirectoryCluster) (path.bytes 0 8) noExt = some i)
    (edge : s.kernel.disk.volume.Edge s.currentDirectoryCluster i c) (room : l.length < 256) :
    ∃ s', commandCallCd s path = some (0, s') ∧ Footing s' (l ++ [c]) ∧ s'.kernel = s.kernel ∧
      s'.currentDirectoryCluster = c := by
  have cluster : (s.kernel.disk.table s.currentDirectoryCluster i).cluster = c := edge.cluster
  obtain ⟨cds, pushed, top, entries⟩ :=
    CurrentDirStack.pushCurrentDir_entries (UInt8.ofNat c) footing.top room
  have range := footing.sound.volume.directory_range footing.route.directory
  refine ⟨⟨s.kernel, c, cds⟩, ?_, ⟨footing.sound, .enter footing.route edge, ?_, ?_, ?_⟩, rfl, rfl⟩
  · rw [← cluster] at pushed ⊢
    exact enter_found (by omega) notUp found pushed
  · rw [top, List.length_append]
    rfl
  · rw [List.length_append]
    exact room
  · rw [entries, footing.entries, List.map_append]
    rfl

/-- Names are unique, so the folder is the entry that is found. -/
theorem Standing.found (standing : Standing s l) (enters : Enters s path i c) :
    findLive (s.kernel.disk.table s.currentDirectoryCluster) (path.bytes 0 8) noExt = some i := by
  have lookup := findLive_slot standing.disk.volume enters.toSlot
  rwa [Disk.volume_table, enters.name, enters.ext] at lookup

theorem Standing.enter (standing : Standing s l) (enters : Enters s path i c)
    (notUp : ¬ Upward path)
    (room : l.length < 256) :
    ∃ s', commandCallCd s path = some (0, s') ∧ Standing s' (l ++ [c]) ∧ s'.kernel = s.kernel ∧
      s'.currentDirectoryCluster = c := by
  obtain ⟨s', answer, footing, kernel, here⟩ :=
    standing.footing.enter notUp (standing.found enters) enters.toEdge room
  exact ⟨s', answer, footing.standing (kernel ▸ standing.disk), kernel, here⟩

/-- Behind the root there is a cell below the top. -/
theorem Footing.popped (footing : Footing s (l ++ [p, s.currentDirectoryCluster])) :
    s.currentDirectoryCluster ≠ 2 ∧ s.currentDirStack.popCurrentDir.top + 1 = (l ++ [p]).length ∧
      s.currentDirStack.popCurrentDir.entries = (l ++ [p]).map UInt8.ofNat ∧
      s.currentDirStack.popCurrentDir.getTopCurrentDir = some (UInt8.ofNat p) := by
  have split : l ++ [p, s.currentDirectoryCluster] = l ++ [p] ++ [s.currentDirectoryCluster] := by
    simp
  have length : (l ++ [p, s.currentDirectoryCluster]).length = l.length + 1 + 1 := by simp
  have length' : (l ++ [p]).length = l.length + 1 := by simp
  -- the route to the root has one directory, this one has two at least
  have below : s.currentDirectoryCluster ≠ 2 := by
    intro same
    have atRoot : s.kernel.disk.volume.Route s.currentDirectoryCluster [rootClusterNumber] := by
      rw [show s.currentDirectoryCluster = rootClusterNumber from same]
      exact .root
    have lengths := congrArg List.length (footing.route.unique footing.sound.volume atRoot)
    rw [length] at lengths
    simp at lengths
  obtain ⟨top, entries⟩ :=
    CurrentDirStack.popCurrentDir_entries (footing.top.trans (congrArg Nat.cast length))
  have rest : s.currentDirStack.popCurrentDir.entries = (l ++ [p]).map UInt8.ofNat := by
    rw [entries, footing.entries, split, List.map_append, List.map_cons, List.map_nil, List.dropLast_concat]
  have room := footing.room
  rw [length] at room
  have last := CurrentDirStack.getTopCurrentDir_entries top (by omega) (rest.trans List.map_append)
  exact ⟨below, by rw [top, length'], rest, last⟩

/-- Leaving pops, and goes to the cluster that the cell below the top names. -/
theorem leave_popped {dir : UInt8} (upward : Upward path) (below : s.currentDirectoryCluster ≠ 2)
    (last : s.currentDirStack.popCurrentDir.getTopCurrentDir = some dir) :
    commandCallCd s path = some (0, ⟨s.kernel, dir.toNat, s.currentDirStack.popCurrentDir⟩) := by
  have dots : memcmp (path.bytes 0 2) dotDot = 0 := memcmp_eq_zero_iff.mpr upward
  simp only [commandCallCd, dots, ↓reduceIte, below, popAndGetTop, last, Option.bind_eq_bind, Option.bind_some]

theorem Footing.leave (footing : Footing s (l ++ [p, s.currentDirectoryCluster]))
    (upward : Upward path)
    (small : p < 256) (route : s.kernel.disk.volume.Route p (l ++ [p])) :
    ∃ s', commandCallCd s path = some (0, s') ∧ Footing s' (l ++ [p]) ∧ s'.kernel = s.kernel ∧
      s'.currentDirectoryCluster = p := by
  obtain ⟨below, top, entries, last⟩ := footing.popped
  have answer := leave_popped upward below last
  rw [UInt8.toNat_ofNat_of_lt' small] at answer
  refine ⟨_, answer, ⟨footing.sound, route, top, ?_, entries⟩, rfl, rfl⟩
  have room := footing.room
  simp only [List.length_append, List.length_cons, List.length_nil] at room ⊢
  omega

theorem Standing.leave (standing : Standing s (l ++ [p, s.currentDirectoryCluster]))
    (upward : Upward path)
    (small : p < 256) (route : s.kernel.disk.volume.Route p (l ++ [p])) :
    ∃ s', commandCallCd s path = some (0, s') ∧ Standing s' (l ++ [p]) ∧ s'.kernel = s.kernel ∧
      s'.currentDirectoryCluster = p := by
  obtain ⟨s', answer, footing, kernel, here⟩ := standing.footing.leave upward small route
  exact ⟨s', answer, footing.standing (kernel ▸ standing.disk), kernel, here⟩

theorem leave_root (upward : Upward path) (root : s.currentDirectoryCluster = rootClusterNumber) :
    commandCallCd s path = some (1, s) := by
  have dots : memcmp (path.bytes 0 2) dotDot = 0 := memcmp_eq_zero_iff.mpr upward
  have atRoot : s.currentDirectoryCluster = 2 := root
  simp only [commandCallCd, dots, atRoot, ↓reduceIte]

/-- `cd` is answered while the stack has a cell above its top, and one below it outside the root. -/
theorem cd_answered (path : Memory) (top : 0 ≤ s.currentDirStack.top)
    (room : s.currentDirStack.top + 1 < 256)
    (deep : s.currentDirectoryCluster ≠ 2 → 1 ≤ s.currentDirStack.top) :
    ∃ code s', commandCallCd s path = some (code, s') ∧ s'.kernel = s.kernel := by
  unfold commandCallCd
  simp only
  split
  · split
    · exact ⟨1, s, rfl, rfl⟩
    · rename_i below
      have range : 0 ≤ s.currentDirStack.popCurrentDir.top ∧ s.currentDirStack.popCurrentDir.top < 256 := by
        have positive := deep below
        simp only [CurrentDirStack.popCurrentDir]
        omega
      simp only [popAndGetTop, CurrentDirStack.getTopCurrentDir, dif_pos range]
      exact ⟨_, _, rfl, rfl⟩
  · split
    · have range : 0 ≤ s.currentDirStack.top + 1 ∧ s.currentDirStack.top + 1 < 256 := by omega
      simp only [pushDirectory, CurrentDirStack.pushCurrentDir, dif_pos range]
      exact ⟨_, _, rfl, rfl⟩
    · exact ⟨1, s, rfl, rfl⟩

/-! ## Sequences of commands -/

/-- The shell as it starts, in the root of a well-formed volume. -/
structure Started (s : ShellState) : Prop where
  disk : s.kernel.disk.WellFormed
  root : s.currentDirectoryCluster = rootClusterNumber
  stack : ∃ cds, s.currentDirStack = CurrentDirStack.initCurrentDirStack cds

/-- `cd ..`, or `cd` to a folder of the current directory. -/
def Changes (s : ShellState) (path : Memory) : Prop :=
  path.bytes 0 8 = dotDot ∨ ∃ i c, Enters s path i c

/-- A folder that is entered lies in one of the first 256 clusters and is not taken for the parent. -/
def Fits (s : ShellState) (path : Memory) : Prop :=
  path.bytes 0 8 = dotDot ∨ ∃ i c, Enters s path i c ∧ c < 256 ∧ ¬ Upward path

/-- The stack holds the clusters of the route to the current directory. -/
structure Tracks (s : ShellState) : Prop where
  top : 0 ≤ s.currentDirStack.top ∧ s.currentDirStack.top < 256
  path : ∃ l, s.kernel.disk.volume.Route s.currentDirectoryCluster l ∧
    s.currentDirStack.entries.map UInt8.toNat = l
  current : ∃ dir, s.currentDirStack.getTopCurrentDir = some dir ∧ dir.toNat = s.currentDirectoryCluster

/-- `cd` by the line `path` and then `cd ..` lead back to the same directory with the same stack. -/
def Returns (s : ShellState) (path up : Memory) : Prop :=
  ∃ s₁ s₂, commandCallCd s path = some (0, s₁) ∧ commandCallCd s₁ up = some (0, s₂) ∧
    s₂.currentDirectoryCluster = s.currentDirectoryCluster ∧ s₂.currentDirStack.top = s.currentDirStack.top ∧
    s₂.currentDirStack.entries = s.currentDirStack.entries

/-- The invariant of runs whose commands all fit. -/
def Tracking (s : ShellState) : Prop := ∃ l, Standing s l ∧ ∀ c ∈ l, c < 256

theorem Started.standing (started : Started s) : Standing s [rootClusterNumber] := by
  obtain ⟨cds, stack⟩ := started.stack
  refine ⟨started.disk, ?_, ?_, by decide, ?_⟩
  · rw [started.root]
    exact .root
  · rw [stack]
    rfl
  · rw [stack]
    rfl

theorem Started.tracking (started : Started s) : Tracking s :=
  ⟨_, started.standing, by simp [rootClusterNumber]⟩

/-- The route behind the root ends with the parent and the current directory. -/
theorem Footing.split (footing : Footing s l)
    (below : s.currentDirectoryCluster ≠ rootClusterNumber) :
    ∃ l' p, l = l' ++ [p, s.currentDirectoryCluster] ∧ s.kernel.disk.volume.Route p (l' ++ [p]) ∧
      ∃ i, s.kernel.disk.volume.Edge p i s.currentDirectoryCluster := by
  have route := footing.route
  generalize s.currentDirectoryCluster = here at route below ⊢
  cases route with
  | root => exact absurd rfl below
  | enter parent edge =>
    cases parent with
    | root => exact ⟨[], _, rfl, .root, _, edge⟩
    | @enter _ _ _ l' parent edge' => exact ⟨l', _, by simp, .enter parent edge', _, edge⟩

/-- The parent is next to last on the route. -/
theorem Standing.path_of_edge (standing : Standing s l)
    (edge : s.kernel.disk.volume.Edge p i s.currentDirectoryCluster) :
    ∃ l', l = l' ++ [p, s.currentDirectoryCluster] := by
  have sound := standing.disk.volume.toSound
  obtain ⟨l', p', rfl, _, j, edge'⟩ := standing.footing.split (sound.child_ne_root edge)
  obtain ⟨rfl, _⟩ := sound.edge_unique edge edge'
  exact ⟨l', rfl⟩

theorem upward_of_dotDot (dots : path.bytes 0 8 = dotDot) : Upward path := by
  funext i
  have there := congrFun dots ⟨i.val, by omega⟩
  fin_cases i <;> exact there

/-- A command that fits is answered and keeps the stack on the route. -/
theorem Tracking.step (tracking : Tracking s) (fits : Fits s path) :
    ∃ code s', commandCallCd s path = some (code, s') ∧ Tracking s' := by
  obtain ⟨l, standing, small⟩ := tracking
  rcases fits with dots | ⟨i, c, enters, inside, notUp⟩
  · have upward := upward_of_dotDot dots
    -- `cd ..` in the root does nothing; elsewhere it goes to the parent
    by_cases root : s.currentDirectoryCluster = rootClusterNumber
    · exact ⟨1, s, leave_root upward root, l, standing, small⟩
    · obtain ⟨l', p, rfl, route, _⟩ := standing.footing.split root
      have parent : p < 256 := small p (by simp)
      obtain ⟨s', answer, standing', _⟩ := standing.leave upward parent route
      refine ⟨0, s', answer, _, standing', ?_⟩
      intro c member
      apply small c
      simp only [List.mem_append, List.mem_cons, List.not_mem_nil, or_false] at member ⊢
      tauto
  · have room := standing.route.length_lt standing.disk.volume.toSound small
    obtain ⟨s', answer, standing', _⟩ := standing.enter enters notUp room
    refine ⟨0, s', answer, _, standing', ?_⟩
    intro x member
    rcases List.mem_append.mp member with old | new
    · exact small x old
    · rw [List.mem_singleton.mp new]
      exact inside

theorem Tracking.tracks (tracking : Tracking s) : Tracks s := by
  obtain ⟨l, standing, small⟩ := tracking
  -- a route of clusters below 256 leaves a cell free, so the push succeeds
  have room := standing.route.length_lt standing.disk.volume.toSound small
  have inside := small _ standing.route.mem
  obtain ⟨before, rfl⟩ := standing.route.append
  have length : (before ++ [s.currentDirectoryCluster]).length = before.length + 1 := by simp
  have top := standing.top
  have entries := standing.entries
  rw [length] at room top
  rw [List.map_append] at entries
  refine ⟨by omega, ⟨_, standing.route, ?_⟩, ?_⟩
  · rw [standing.entries, List.map_map]
    apply (List.map_congr_left _).trans (List.map_id _)
    intro c member
    exact UInt8.toNat_ofNat_of_lt' (small c member)
  · exact ⟨_, CurrentDirStack.getTopCurrentDir_entries top (by omega) entries, UInt8.toNat_ofNat_of_lt' inside⟩

theorem Tracking.returns (tracking : Tracking s) (enters : Enters s path i c) (inside : c < 256)
    (notUp : ¬ Upward path) (dots : up.bytes 0 8 = dotDot) : Returns s path up := by
  obtain ⟨l, standing, small⟩ := tracking
  have room := standing.route.length_lt standing.disk.volume.toSound small
  have parent := small _ standing.route.mem
  obtain ⟨s₁, down, standing₁, kernel, rfl⟩ := standing.enter enters notUp room
  obtain ⟨before, rfl⟩ := standing.route.append
  have route : s₁.kernel.disk.volume.Route s.currentDirectoryCluster (before ++ [s.currentDirectoryCluster]) := by
    rw [kernel]
    exact standing.route
  rw [List.append_assoc] at standing₁
  obtain ⟨s₂, back, standing₂, _, here⟩ := standing₁.leave (upward_of_dotDot dots) parent route
  refine ⟨s₁, s₂, down, back, here, ?_, ?_⟩
  · have top := standing.top
    have top₂ := standing₂.top
    omega
  · rw [standing₂.entries, standing.entries]

theorem tracking_inductive : Runs.Inductive commandCallCd Fits Started Tracking where
  start := fun _ started => started.tracking
  step := fun _ _ tracking fits => tracking.step fits

/-! ## Entries of a small root -/

def folderD : FAT32DriverRequest := ⟨fun _ => 0, text ['d'], fun _ => 0, 2, 0⟩

/-- The file `a.t` of zeros. -/
def zeroFile (size : UInt32) : FAT32DriverRequest := ⟨fun _ => 0, text ['a'], text ['t'], 2, size⟩

def lineD : Memory := Memory.store (fun _ => 0) 0 (text ['d'] : Bytes 8)

def lineUp : Memory := Memory.store (fun _ => 0) 0 (dotDot : Bytes 8)

theorem lineD_bytes : lineD.bytes 0 8 = text ['d'] := Memory.bytes_store _

theorem lineUp_bytes : lineUp.bytes 0 8 = dotDot := Memory.bytes_store _

theorem lineD_not_upward : ¬ Upward lineD := by
  intro upward
  exact absurd (congrFun upward 0) (by decide)

/-- The shell that starts on this kernel. -/
def startShell (k : Kernel) : ShellState :=
  ⟨k, 2, CurrentDirStack.initCurrentDirStack ⟨fun _ => 0, 0⟩⟩

theorem started_startShell {k : Kernel} (wellFormed : k.disk.WellFormed) : Started (startShell k) :=
  ⟨wellFormed, rfl, _, rfl⟩

/-- A line with the name of a folder in the current directory names that. -/
theorem enters_newEntry {request : FAT32DriverRequest}
    (directory : s.kernel.disk.volume.Directory s.currentDirectoryCluster) (entry : i ≠ 0)
    (folder : request.bufferSize = 0) (inside : c < 512)
    (placed : s.kernel.disk.table s.currentDirectoryCluster i = newEntry request c)
    (named : path.bytes 0 8 = request.name) : Enters s path i c := by
  refine ⟨edge_newEntry directory entry folder inside placed, ?_, ?_⟩ <;> rw [placed]
  · exact name_newEntry.trans named.symm
  · rw [newEntry, if_pos folder]
    rfl

/-- After a write of the folder `d` into the root, `cd d` names it. -/
theorem enters_folderD {k k' : Kernel} (sound : k.disk.Sound) (inside : c < 512)
    (written : Written folderD rootClusterNumber i (newEntry folderD c) [c] k k') :
    Enters (startShell k') lineD i c := by
  have slot : k'.disk.volume.Slot rootClusterNumber i :=
    (written.added.slot_iff sound.volume).mpr (.inr ⟨rfl, rfl⟩)
  exact enters_newEntry slot.directory slot.entry rfl inside written.added.table_new lineD_bytes

/-! ## cd and cd .. -/

/-- After any sequence of `cd` commands that fit, the stack holds the route to the current
    directory, and `cd ..` undoes the next `cd` that fits. -/
theorem fitting_cd_tracks (run : Run commandCallCd Fits Started history s) :
    Tracks s ∧ ∀ path i c up, Enters s path i c → c < 256 → ¬ Upward path → up.bytes 0 8 = dotDot →
      Returns s path up := by
  have tracking := run.invariant tracking_inductive
  exact ⟨tracking.tracks, fun _ _ _ _ enters inside notUp dots => tracking.returns enters inside notUp dots⟩

/-- A folder in cluster 3 of a new file system. -/
theorem fitting_cd_tracks_folder :
    ∃ s s', Run commandCallCd Fits Started [(lineD, 0)] s' ∧ s'.currentDirectoryCluster = 3 ∧
    Tracks s' ∧
      Returns s lineD lineUp := by
  obtain ⟨k, run, written⟩ := run_first folderD (l := []) (by decide) (by decide) rfl rfl rfl
  have started := started_startShell (run_regular run).wellFormed
  have enters := enters_folderD fresh_zeroKernel.regular.sound (by decide) written
  obtain ⟨s', answer, _, _, here⟩ := started.standing.enter enters lineD_not_upward (by decide)
  have fits : Fits (startShell k) lineD := .inr ⟨1, 3, enters, by decide, lineD_not_upward⟩
  have atStart : Run commandCallCd Fits Started [] (startShell k) := .start started
  have down : Run commandCallCd Fits Started [(lineD, 0)] s' := .step atStart fits answer
  exact ⟨_, s', down, here, (fitting_cd_tracks down).1,
    (fitting_cd_tracks atStart).2 lineD 1 3 lineUp enters (by decide) lineD_not_upward lineUp_bytes⟩

/-- Behind a file of 256 clusters a folder gets cluster 259, and `cd` pushes 3. -/
theorem cd_into_high_cluster :
    ∃ s s', Started s ∧ Changes s lineD ∧ commandCallCd s lineD = some (0, s') ∧
      s'.currentDirectoryCluster = 259 ∧ s'.currentDirStack.getTopCurrentDir = some 3 ∧ ¬ Tracks s' := by
  -- the file takes clusters 3 to 258, and the folder the next one
  have split : List.range' 3 509 = 3 :: List.range' 4 255 ++ (259 :: [] ++ List.range' 260 252) := by
    have tail : List.range' 259 253 = 259 :: List.range' 260 252 := List.range'_succ
    rw [List.cons_append, List.cons_append, List.nil_append, ← tail, List.range'_succ,
      ← List.range'_append (s := 4) (m := 255) (n := 253)]
  have count : (3 :: List.range' 4 255).length = needed (zeroFile 524288).bufferSize := by
    rw [List.length_cons, List.length_range']
    decide
  obtain ⟨k₁, run₁, written₁⟩ := run_first (zeroFile 524288) (by decide) (by decide) rfl split count
  obtain ⟨k₂, run₂, written₂⟩ := run_second folderD run₁ written₁ (by decide) (by decide)
    (fun same => absurd same (by decide)) rfl split rfl
  have started := started_startShell (run_regular run₂).wellFormed
  have enters := enters_folderD (run_regular run₁).sound (by decide) written₂
  obtain ⟨s', answer, standing', _, here⟩ :=
    started.standing.enter enters lineD_not_upward (by decide)
  have entries : s'.currentDirStack.entries = [2] ++ [3] := standing'.entries
  have top := CurrentDirStack.getTopCurrentDir_entries (n := 1) standing'.top (by decide) entries
  refine ⟨_, s', started, .inr ⟨2, 259, enters⟩, answer, here, top, ?_⟩
  intro tracks
  -- 259 is 3 modulo 256
  obtain ⟨dir, current, value⟩ := tracks.current
  rw [top] at current
  obtain rfl := Option.some.inj current
  rw [here] at value
  exact absurd value (by decide)

end Shell

end Brother420
