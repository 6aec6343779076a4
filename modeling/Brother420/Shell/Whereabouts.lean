import Brother420.Fat32.Refusals
import Brother420.Shell.Listing
import Brother420.Shell.Navigation

/-! # Where the shell stands

`cd` enters whatever has no extension and pushes eight bits of its cluster, and
`mkdir`, `cp` and `rm` trust the directory that it left the shell in.  Commands
that avoid what the driver and the stack cannot hold keep the shell in a
directory, and the volume sound.
-/

namespace Brother420

open Packed (Bytes)
open Runs (Run)

namespace Shell

open Fat32 Kernel Volume

/-! ## Commands -/

/-- `cbuf` is the buffer of `cp` and the memory behind it, and `rowShell` the row where `ls` starts. -/
inductive Command
  | cd (path : Memory)
  | mkdir (line : Memory)
  | cp (line cbuf : Memory)
  | rm (line : Memory)
  | ls (type : Nat) (rowShell : UInt8)

/-- What a command hands back besides the new state of the shell. -/
inductive Output
  | code (code : UInt8)
  | copied (cbuf : Option Memory)
  | listed (listing : Listing)
  | done

def issue (s : ShellState) : Command → Option (Output × ShellState)
  | .cd path => do
    let (code, s) ← commandCallCd s path
    some (.code code, s)
  | .mkdir line => do
    let s ← commandCallMkdir s line
    some (.done, s)
  | .cp line cbuf => do
    let (cbuf, s) ← commandCallCp s line cbuf
    some (.copied cbuf, s)
  | .rm line => do
    let s ← commandCallRm s line
    some (.done, s)
  | .ls type rowShell =>
    some (.listed (commandCallLs (readTable s.kernel s.currentDirectoryCluster) type rowShell), s)

/-! ## What they should respect -/

/-- The current directory is one that is reached from the root, its cluster is allocated and holds
    no data of a file. -/
structure InDirectory (s : ShellState) : Prop where
  directory : s.kernel.disk.volume.Directory s.currentDirectoryCluster
  allocated : s.kernel.disk.fat s.currentDirectoryCluster ≠ 0
  data : ∀ p i l, s.kernel.disk.volume.Slot p i → (s.kernel.disk.table p i).filesize ≠ 0 →
    s.kernel.disk.volume.SlotChain p i l → s.currentDirectoryCluster ∉ l

/-- `cd` goes up to a cluster that fits a cell of the stack, or down into a folder while the stack has
    a cell left. -/
def CdGrounded (s : ShellState) (path : Memory) : Prop :=
  if path.bytes 0 2 = dotDot then ∀ p i, s.kernel.disk.volume.Edge p i s.currentDirectoryCluster → p < 256
  else ∀ i, findLive (s.kernel.disk.table s.currentDirectoryCluster) (path.bytes 0 8) noExt = some i →
    (s.kernel.disk.table s.currentDirectoryCluster i).filesize = 0 ∧ s.currentDirStack.top + 1 < 256

/-- A write finds a free cluster to look at when its name is taken, and otherwise the room it needs. -/
def WriteGrounded (d : Disk) (p : Nat) (request : FAT32DriverRequest) : Prop :=
  (Taken (d.table p) request → freeList d.fatTable ≠ []) ∧
    (¬ Taken (d.table p) request → Room d p request.bufferSize)

/-- What a command needs in the state in which it is issued. -/
def Grounded (s : ShellState) : Command → Prop
  | .cd path => CdGrounded s path
  | .mkdir line => WriteGrounded s.kernel.disk s.currentDirectoryCluster
      ⟨fun _ => 0, line.bytes 6 8, noExt, UInt32.ofNat s.currentDirectoryCluster, 0⟩
  | .cp line _ => ∀ name ext j m, parseCpSource line = some (name, ext, j) →
      findLive (s.kernel.disk.table s.currentDirectoryCluster) name ext = some m →
      (s.kernel.disk.table s.currentDirectoryCluster m).filesize ≤ 8192 ∧
        ∀ newName newExt, parseCpTarget line ext j = some (newName, newExt) →
          WriteGrounded s.kernel.disk s.currentDirectoryCluster
            ⟨fun _ => 0, newName, newExt, UInt32.ofNat s.currentDirectoryCluster,
              (s.kernel.disk.table s.currentDirectoryCluster m).filesize⟩
  | .rm line => ∀ name ext m, parseRm line = some (name, ext) →
      findLive (s.kernel.disk.table s.currentDirectoryCluster) name ext = some m →
      DeleteGuarded s.kernel.disk s.currentDirectoryCluster
        ⟨fun _ => 0, name, ext, UInt32.ofNat s.currentDirectoryCluster,
          (s.kernel.disk.table s.currentDirectoryCluster m).filesize⟩
  | .ls _ _ => True

variable {s s' : ShellState} {path line cbuf : Memory} {l : List Nat} {p : Nat} {i : Fin 64} {command : Command}
  {k : Kernel} {request : FAT32DriverRequest} {history : List (Command × Output)}

theorem Footing.inDirectory (footing : Footing s l) : InDirectory s where
  directory := footing.route.directory
  allocated := by
    have value : s.kernel.disk.fat s.currentDirectoryCluster = fat32FatEndOfFile :=
      footing.sound.volume.directory_fat footing.route.directory
    rw [value]
    decide
  data _ _ _ slot file chain member :=
    footing.sound.volume.file_not_directory slot file chain member footing.route.directory

theorem Footing.toNat_current (footing : Footing s l) :
    (UInt32.ofNat s.currentDirectoryCluster).toNat = s.currentDirectoryCluster := by
  have range := footing.sound.volume.directory_range footing.route.directory
  exact UInt32.toNat_ofNat_of_lt' (Nat.lt_trans range.2 (by decide))

/-! ## cd -/

theorem Footing.cd (footing : Footing s l) (grounded : CdGrounded s path) :
    ∃ code s', commandCallCd s path = some (code, s') ∧ ∃ l', Footing s' l' := by
  unfold CdGrounded at grounded
  by_cases upward : Upward path
  · rw [if_pos upward] at grounded
    by_cases root : s.currentDirectoryCluster = rootClusterNumber
    · exact ⟨1, s, leave_root upward root, l, footing⟩
    · obtain ⟨l', p, rfl, route, i, edge⟩ := footing.split root
      obtain ⟨s', answer, footing', _⟩ := footing.leave upward (grounded p i edge) route
      exact ⟨0, s', answer, _, footing'⟩
  · rw [if_neg upward] at grounded
    cases found : findLive (s.kernel.disk.table s.currentDirectoryCluster) (path.bytes 0 8) noExt with
    | none =>
      have notDots : ¬ memcmp (path.bytes 0 2) dotDot = 0 := by rwa [memcmp_eq_zero_iff]
      refine ⟨1, s, ?_, l, footing⟩
      simp only [commandCallCd, footing.readTable_eq, notDots, ↓reduceIte, found]
    | some i =>
      obtain ⟨folder, room⟩ := grounded i found
      obtain ⟨⟨entry, live, _⟩, _⟩ := findLive_some.mp found
      have top := footing.top
      obtain ⟨s', answer, footing', _⟩ := footing.enter upward found
        ⟨⟨footing.route.directory, entry, live⟩, folder, rfl⟩ (by omega)
      exact ⟨0, s', answer, _, footing'⟩

/-! ## Writing and deleting -/

/-- A write in the current directory that has what it needs keeps the route there. -/
theorem Footing.write (footing : Footing s l) (disk : k.disk = s.kernel.disk)
    (parent : request.parentClusterNumber.toNat = s.currentDirectoryCluster)
    (grounded : WriteGrounded s.kernel.disk s.currentDirectoryCluster request) :
    ∃ code k', Fat32.write k request = some (code, k') ∧ Footing { s with kernel := k' } l := by
  rw [← disk] at grounded
  have sound : k.disk.Sound := disk ▸ footing.sound
  have route : k.disk.volume.Route s.currentDirectoryCluster l := disk ▸ footing.route
  by_cases taken : Taken (k.disk.table s.currentDirectoryCluster) request
  · obtain ⟨c, rest, free⟩ := List.exists_cons_of_ne_nil (grounded.1 taken)
    have inside := (sound.volume.directory_range route.directory).2
    have found := freeCluster_zero ((freeList_load (show s.currentDirectoryCluster < 2 ^ 26 by omega)).trans free)
    have answer := write_taken parent inside (sound.volume.directory_fat route.directory) found taken
    exact ⟨1, _, answer, sound, route, footing.top, footing.room, footing.entries⟩
  · obtain ⟨k', s', e, l', answer, written⟩ :=
      write_accepted sound route.directory parent (grounded.2 taken) taken
    exact ⟨0, k', answer, written.sound sound, written.added.route_kept route, footing.top, footing.room,
      footing.entries⟩

/-- A delete in the current directory that is refused or hits a slot in use keeps the route there. -/
theorem Footing.delete (footing : Footing s l)
    (parent : request.parentClusterNumber.toNat = s.currentDirectoryCluster)
    (guarded : DeleteGuarded s.kernel.disk s.currentDirectoryCluster request) :
    ∃ code k', Fat32.delete s.kernel request = some (code, k') ∧ Footing { s with kernel := k' } l := by
  rcases delete_guarded footing.sound footing.route.directory parent guarded with
    ⟨code, _, answer⟩ | ⟨k', i, l', answer, deleted⟩
  · exact ⟨code, _, answer, footing.sound, footing.route, footing.top, footing.room, footing.entries⟩
  · have route := deleted.removed.route_kept footing.route (footing.route.dropLast_ne footing.sound.volume)
    exact ⟨0, k', answer, deleted.sound footing.sound, route, footing.top, footing.room, footing.entries⟩

/-- Only the disk of the kernel matters. -/
theorem Footing.of_disk (footing : Footing s l) (disk : k.disk = s.kernel.disk) : Footing { s with kernel := k } l where
  sound := disk.symm ▸ footing.sound
  route := disk.symm ▸ footing.route
  top := footing.top
  room := footing.room
  entries := footing.entries

theorem Footing.cp (footing : Footing s l) (grounded : Grounded s (.cp line cbuf)) :
    ∃ output s', commandCallCp s line cbuf = some (output, s') ∧ Footing s' l := by
  have table := footing.readTable_eq
  unfold commandCallCp
  simp only [table]
  cases source : parseCpSource line with
  | none => exact ⟨_, s, rfl, footing⟩
  | some parts =>
    obtain ⟨name, ext, j⟩ := parts
    simp only
    cases found : findLive (s.kernel.disk.table s.currentDirectoryCluster) name ext with
    | none => exact ⟨_, s, rfl, footing⟩
    | some m =>
      let request : FAT32DriverRequest := ⟨cbuf, name, ext, UInt32.ofNat s.currentDirectoryCluster,
        (s.kernel.disk.table s.currentDirectoryCluster m).filesize⟩
      have disk : (Fat32.read s.kernel request).2.1.disk = s.kernel.disk := read_disk _ _
      simp only
      cases target : parseCpTarget line ext j with
      | none => exact ⟨_, _, rfl, footing.of_disk disk⟩
      | some names =>
        obtain ⟨newName, newExt⟩ := names
        -- the copy is written under the new name, with the size of the entry and what was read
        have room : WriteGrounded s.kernel.disk s.currentDirectoryCluster
            { request with buf := (Fat32.read s.kernel request).2.2, name := newName, ext := newExt } :=
          (grounded name ext j m source found).2 newName newExt target
        obtain ⟨code, k', answer, footing'⟩ := footing.write disk footing.toNat_current room
        refine ⟨some (Fat32.read s.kernel request).2.2, { s with kernel := k' }, ?_, footing'⟩
        simp only [request] at answer ⊢
        simp only [answer, Option.bind_eq_bind, Option.bind_some]

theorem Footing.rm (footing : Footing s l) (grounded : Grounded s (.rm line)) :
    ∃ s', commandCallRm s line = some s' ∧ Footing s' l := by
  have table := footing.readTable_eq
  unfold commandCallRm
  simp only [table]
  cases target : parseRm line with
  | none => exact ⟨s, rfl, footing⟩
  | some parts =>
    obtain ⟨name, ext⟩ := parts
    simp only
    cases found : findLive (s.kernel.disk.table s.currentDirectoryCluster) name ext with
    | none => exact ⟨s, rfl, footing⟩
    | some m =>
      obtain ⟨code, k', answer, footing'⟩ := footing.delete footing.toNat_current (grounded name ext m target found)
      simp only [answer, Option.bind_eq_bind, Option.bind_some]
      exact ⟨_, rfl, footing'⟩

/-! ## All commands -/

theorem Footing.step (footing : Footing s l) (grounded : Grounded s command) :
    ∃ output s', issue s command = some (output, s') ∧ ∃ l', Footing s' l' := by
  cases command with
  | cd path =>
    obtain ⟨code, s', answer, l', footing'⟩ := footing.cd grounded
    refine ⟨.code code, s', ?_, l', footing'⟩
    simp only [issue, answer, Option.bind_eq_bind, Option.bind_some]
  | mkdir line =>
    obtain ⟨code, k', answer, footing'⟩ := footing.write rfl footing.toNat_current grounded
    refine ⟨.done, _, ?_, l, footing'⟩
    simp only [issue, commandCallMkdir, answer, Option.bind_eq_bind, Option.bind_some]
  | cp line cbuf =>
    obtain ⟨output, s', answer, footing'⟩ := footing.cp grounded
    refine ⟨.copied output, s', ?_, l, footing'⟩
    simp only [issue, answer, Option.bind_eq_bind, Option.bind_some]
  | rm line =>
    obtain ⟨s', answer, footing'⟩ := footing.rm grounded
    refine ⟨.done, s', ?_, l, footing'⟩
    simp only [issue, answer, Option.bind_eq_bind, Option.bind_some]
  | ls type rowShell => exact ⟨_, s, rfl, l, footing⟩

theorem footing_inductive : Runs.Inductive issue Grounded Started fun s => ∃ l, Footing s l where
  start := fun _ started => ⟨_, started.standing.footing⟩
  step := fun _ _ ⟨_, footing⟩ grounded => footing.step grounded

/-- After any sequence of commands that have what they need, the shell stands in a directory. -/
theorem grounded_run_in_directory (run : Run issue Grounded Started history s) : InDirectory s := by
  obtain ⟨l, footing⟩ := run.invariant footing_inductive
  exact footing.inDirectory

/-- `cd` into a folder of a new file system. -/
theorem grounded_run_in_directory_folder :
    ∃ s, Run issue Grounded Started [(.cd lineD, .code 0)] s ∧ s.currentDirectoryCluster = 3 ∧ InDirectory s := by
  obtain ⟨k, run, written⟩ := run_first folderD (l := []) (by decide) (by decide) rfl rfl rfl
  have started := started_startShell (run_regular run).wellFormed
  have enters := enters_folderD fresh_zeroKernel.regular.sound (by decide) written
  obtain ⟨s, answer, _, _, here⟩ := started.standing.enter enters lineD_not_upward (by decide)
  have grounded : Grounded (startShell k) (.cd lineD) := by
    change CdGrounded _ _
    rw [CdGrounded, if_neg lineD_not_upward]
    intro i found
    obtain rfl := Option.some.inj ((started.standing.found enters).symm.trans found)
    exact ⟨enters.folder, show (0 : Int) + 1 < 256 by decide⟩
  have down : Run issue Grounded Started [(.cd lineD, .code 0)] s := by
    refine .step (.start started) grounded ?_
    simp only [issue, answer, Option.bind_eq_bind, Option.bind_some]
  exact ⟨s, down, here, grounded_run_in_directory down⟩

/-- The file `d` of one byte, without an extension. -/
def bareFile : FAT32DriverRequest := ⟨fun _ => 0, text ['d'], noExt, 2, 1⟩

/-- `cd` enters the file and leaves the shell in its data. -/
theorem cd_enters_bare_file :
    ∃ s, Run issue (fun _ _ => True) Started [(.cd lineD, .code 0)] s ∧ s.currentDirectoryCluster = 3 ∧
      ¬ InDirectory s := by
  obtain ⟨k, run, written⟩ := run_first bareFile (l := []) (by decide) (by decide) rfl rfl (by decide)
  have started := started_startShell (run_regular run).wellFormed
  obtain ⟨slot, entry⟩ := first_entry written
  obtain ⟨file, chain, _⟩ := first_file written (by decide) rfl
  have table : readTable k rootClusterNumber = k.disk.table rootClusterNumber := readTable_eq (by decide)
  have found : findLive (k.disk.table rootClusterNumber) (lineD.bytes 0 8) noExt = some 1 := by
    have lookup := findLive_slot (run_regular run).wellFormed.volume slot
    rw [Disk.volume_table, entry, name_newEntry, ext_newEntry (by decide)] at lookup
    rwa [lineD_bytes]
  have cluster : (k.disk.table rootClusterNumber 1).cluster = 3 := by
    rw [entry]
    exact cluster_newEntry (by decide)
  have notDots : ¬ memcmp (lineD.bytes 0 2) dotDot = 0 := by
    rw [memcmp_eq_zero_iff]
    exact lineD_not_upward
  obtain ⟨cds, pushed⟩ : ∃ cds, (startShell k).currentDirStack.pushCurrentDir (UInt8.ofNat 3) = some cds := ⟨_, rfl⟩
  have answer : commandCallCd (startShell k) lineD = some (0, ⟨k, 3, cds⟩) := by
    have table : readTable (startShell k).kernel (startShell k).currentDirectoryCluster =
        k.disk.table rootClusterNumber := table
    simp only [commandCallCd, table, notDots, ↓reduceIte, found, cluster, pushDirectory, pushed, Option.bind_eq_bind,
      Option.bind_some]
    rfl
  refine ⟨⟨k, 3, cds⟩, .step (.start started) trivial ?_, rfl, ?_⟩
  · simp only [issue, answer, Option.bind_eq_bind, Option.bind_some]
  · exact fun inside => inside.data _ _ _ slot file.file chain List.mem_cons_self

/-! ## cd with several names -/

/-- `cd` with several names does what some sequence of single ones does. -/
theorem multiCd_run {stack : Nat → Memory} {fuel : Nat} (answer : commandCallMultiCd s stack fuel path = some s') :
    ∃ history, Run issue (fun _ _ => True) (· = s) history s' ∧ ∀ event ∈ history, ∃ path, event.1 = .cd path := by
  have single {s s₁ : ShellState} {code : UInt8} {path : Memory} (answer : commandCallCd s path = some (code, s₁)) :
      Run issue (fun _ _ => True) (· = s) [(.cd path, .code code)] s₁ := by
    have start : Run issue (fun _ _ => True) (· = s) [] s := .start rfl
    refine .step start trivial ?_
    simp only [issue, answer, Option.bind_eq_bind, Option.bind_some]
  induction fuel generalizing s path with
  | zero => cases answer
  | succ fuel ih =>
    simp only [commandCallMultiCd, Option.bind_eq_bind] at answer
    split at answer
    · cases answer
    · rename_i ends
      generalize (if path (span (fun c => c == 0 || c == slash) path 0 256) = slash then
        span (fun c => c == 0 || c == slash) path 0 256 else 0) = j at answer
      split at answer
      · -- the last name
        simp only [Option.bind_eq_some_iff, Option.some.injEq] at answer
        obtain ⟨⟨code, s₁⟩, one, rfl⟩ := answer
        exact ⟨_, single one, by simp⟩
      · split at answer
        · cases answer
        · simp only [Option.bind_eq_some_iff] at answer
          obtain ⟨⟨code, s₁⟩, one, rest⟩ := answer
          split at rest
          · obtain ⟨history, run, calls⟩ := ih rest
            refine ⟨_, (single one).append run, ?_⟩
            simpa using calls
          · obtain rfl := Option.some.inj rest
            exact ⟨_, single one, by simp⟩

end Shell

end Brother420
