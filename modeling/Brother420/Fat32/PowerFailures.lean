import Brother420.Fat32.TornWrites

/-! # Power failures

The power may fail behind any block of a write.  The kernel then starts again on
the disk that is left, with none of what was in its memory.  To a user who names
files by their paths the write was done or it was not.
-/

namespace Brother420.Fat32

open Packed (Bytes)
open Runs (Run Replays)
open Paths (Leads)
open Kernel Volume

/-- What befalls the machine: a request, a restart, or a power failure behind `n` blocks of a write.  The memory may
    hold anything when the kernel starts again. -/
inductive Event
  | request (path : Path) (request : Request)
  | restart (driverState : FAT32DriverState) (memoryAfter : Memory)
  | powerFailure (path : Path) (request : FAT32DriverRequest) (n : Nat) (driverState : FAT32DriverState)
      (memoryAfter : Memory)

def Event.befall (k : Kernel) : Event → Option (Option Int8 × Kernel)
  | .request _ r => (perform k r).map fun (code, k) => (some code, k)
  | .restart driverState memoryAfter => some (none, initializeFilesystemFat32 ⟨k.disk, driverState, memoryAfter⟩)
  | .powerFailure _ r n driverState memoryAfter =>
    some (none, initializeFilesystemFat32 ⟨k.disk.torn (writeLog k r) n, driverState, memoryAfter⟩)

/-- The requests are intended ones, also those that are interrupted. -/
def Event.Intended (k : Kernel) : Event → Prop
  | .request path r => IntendedAt k (path, r)
  | .restart _ _ => True
  | .powerFailure path r _ _ _ => IntendedAt k (path, .write r)

/-- What may become of the tree: an answered request does what it is to do, a restart nothing, and an interrupted write
    does nothing or adds what it is to add where nothing was. -/
inductive TreeStep (t : Path → Option Node) : Event → Option Int8 → (Path → Option Node) → Prop
  | answered {path : Path} {r : Request} {code : Int8} :
      TreeStep t (.request path r) (some code) (treeNext t (path, r) code)
  | restarted {driverState : FAT32DriverState} {memoryAfter : Memory} :
      TreeStep t (.restart driverState memoryAfter) none t
  | lost {path : Path} {r : FAT32DriverRequest} {n : Nat} {driverState : FAT32DriverState} {memoryAfter : Memory} :
      TreeStep t (.powerFailure path r n driverState memoryAfter) none t
  | stored {path : Path} {r : FAT32DriverRequest} {n : Nat} {driverState : FAT32DriverState} {memoryAfter : Memory} :
      t (path ++ [r.entryName]) = none →
      TreeStep t (.powerFailure path r n driverState memoryAfter) none
        (Function.update t (path ++ [r.entryName]) (some r.newNode))

variable {k k' : Kernel} {d d' : Disk} {request : FAT32DriverRequest} {event : Event} {answer : Option Int8} {p : Nat}
  {s : Fin 64} {e : FAT32DirectoryEntry} {l : List Nat} {path : Path} {t : Path → Option Node}
  {history : List (Event × Option Int8)}

/-! ## Disks with lost clusters show the same -/

theorem Differs.entry (differs : Differs l d d') (sound : d.Sound) (free : ∀ c ∈ l, d.fat c = 0) :
    d'.volume.Entry = d.volume.Entry := by
  have leaked := differs.leaked sound free
  funext q name c
  refine propext (exists_congr fun i => ?_)
  rw [leaked.slot_iff]
  refine and_congr_right fun slot => ?_
  rw [leaked.tables q slot.directory]

theorem Differs.content_iff {x : Nat} {node : Node} (differs : Differs l d d') (sound : d.Sound)
    (free : ∀ c ∈ l, d.fat c = 0) : Content d' x node ↔ Content d x node := by
  have leaked := differs.leaked sound free
  have bytes {q : Nat} {i : Fin 64} {m : List Nat} (slot : d.volume.Slot q i) (chain : d.volume.SlotChain q i m)
      (size : Nat) : fileBytes d' m size = fileBytes d m size := by
    refine fileBytes_congr (fun c member => ?_) size
    have range := sound.volume.range slot chain member
    have used := sound.volume.fat_ne_zero slot chain member
    exact differs.frame c (by simp only [fatClusterNumber]; omega) fun lost => used (free c lost)
  constructor
  · intro content
    cases content with
    | folder directory => exact .folder (leaked.directory_iff.mp directory)
    | @file q i m slot file chain =>
      have old := leaked.slot_iff.mp slot
      have same : d'.table q i = d.table q i := congrFun (leaked.tables q old.directory) i
      have chain := leaked.chain_back sound.volume old chain
      rw [same] at file ⊢
      rw [bytes old chain]
      exact .file old file chain
  · intro content
    cases content with
    | folder directory => exact .folder (leaked.directory_iff.mpr directory)
    | @file q i m slot file chain =>
      have same : d'.table q i = d.table q i := congrFun (leaked.tables q slot.directory) i
      rw [← bytes slot chain, ← same]
      exact .file (leaked.slot_iff.mpr slot) (same ▸ file) (leaked.chain_kept sound.volume slot chain)

theorem Differs.shows (differs : Differs l d d') (sound : d.Sound) (free : ∀ c ∈ l, d.fat c = 0) (shows : Shows d t) :
    Shows d' t := by
  intro path node
  rw [shows path node, differs.entry sound free]
  exact exists_congr fun x => and_congr_right fun _ => (differs.content_iff sound free).symm

theorem Differs.bareFolders (differs : Differs l d d') (sound : d.Sound) (free : ∀ c ∈ l, d.fat c = 0)
    (bare : BareFolders d) : BareFolders d' := by
  have leaked := differs.leaked sound free
  intro q i slot folder
  have old := leaked.slot_iff.mp slot
  have same : d'.table q i = d.table q i := congrFun (leaked.tables q old.directory) i
  rw [same] at folder ⊢
  exact bare q i old folder

/-! ## One event -/

/-- The disk holds a tree, and some lost clusters. -/
structure HoldsTree (d : Disk) (t : Path → Option Node) : Prop where
  lossy : d.Lossy
  bare : BareFolders d
  shows : Shows d t

theorem holdsTree_fresh (fresh : Fresh k) : HoldsTree k.disk newTree :=
  ⟨fresh.regular.lossy, fun _ _ slot => absurd slot fresh.onlyRoot.no_slot, fresh.onlyRoot.shows⟩

theorem Effect.holdsTree {r : Request} {code : Int8} (effect : Effect k r code k') (holds : HoldsTree k.disk t)
    (leads : k.disk.volume.At path r.parent) : HoldsTree k'.disk (treeNext t (path, r) code) :=
  ⟨effect.lossy holds.lossy, effect.bareFolders holds.lossy.sound holds.bare,
    effect.shows holds.lossy holds.bare leads holds.shows⟩

theorem Differs.holdsTree (differs : Differs l d d') (holds : HoldsTree d t) (inside : ∀ c ∈ l, 3 ≤ c ∧ c < 512)
    (free : ∀ c ∈ l, d.fat c = 0) : HoldsTree d' t :=
  ⟨differs.lossy holds.lossy inside free, differs.bareFolders holds.lossy.sound free holds.bare,
    differs.shows holds.lossy.sound free holds.shows⟩

/-- The disk on which the kernel starts again holds the old tree, or the new one. -/
theorem torn_write_holdsTree (holds : HoldsTree k.disk t) (intended : IntendedAt k (path, .write request)) (n : Nat) :
    HoldsTree (k.disk.torn (writeLog k request) n) t ∨ t (path ++ [request.entryName]) = none ∧
      HoldsTree (k.disk.torn (writeLog k request) n)
        (Function.update t (path ++ [request.entryName]) (some request.newNode)) := by
  have sound := holds.lossy.sound
  have directory : k.disk.volume.Directory request.parentClusterNumber.toNat := intended.parent
  have leads : k.disk.volume.At path request.parentClusterNumber.toNat := intended.path
  rcases torn_write sound directory rfl (intended.write request rfl) n with same | ⟨k', s, e, l, written, differs | whole⟩
  · rw [same]
    exact .inl holds
  · have inside : ∀ c ∈ l, 3 ≤ c ∧ c < 512 := fun c member => written.added.mem_range sound.volume member
    exact .inl (differs.holdsTree holds inside written.added.fresh)
  · have effect : Effect k (.write request) 0 k' := .wrote rfl written
    rw [whole]
    refine .inr ⟨?_, effect.holdsTree holds leads⟩
    refine (shows_none_iff holds.lossy.volume.distinct holds.shows leads).mpr fun i slot same => ?_
    -- the name was new
    obtain ⟨name, ext⟩ := Prod.mk.inj same
    exact written.newName ⟨i, name, fun file => ext.trans (if_neg file)⟩

theorem restart_disk {driverState : FAT32DriverState} {memoryAfter : Memory} (boot : d.bootSector = fsSignature) :
    (initializeFilesystemFat32 ⟨d, driverState, memoryAfter⟩).disk = d := by
  rw [initialize_eq boot]

theorem befall_holdsTree (holds : HoldsTree k.disk t) (intended : event.Intended k) :
    ∃ answer k' t', event.befall k = some (answer, k') ∧ TreeStep t event answer t' ∧ HoldsTree k'.disk t' := by
  cases event with
  | request path r =>
    obtain ⟨code, k', performed, effect⟩ := perform_effect holds.lossy intended.toIntended
    refine ⟨some code, k', _, ?_, .answered, effect.holdsTree holds intended.path⟩
    rw [Event.befall, performed]
    rfl
  | restart driverState memoryAfter =>
    refine ⟨none, _, t, rfl, .restarted, ?_⟩
    rw [restart_disk holds.lossy.boot]
    exact holds
  | powerFailure path r n driverState memoryAfter =>
    have torn := torn_write_holdsTree holds intended n
    have boot : (k.disk.torn (writeLog k r) n).bootSector = fsSignature := by
      cases torn with
      | inl lost => exact lost.lossy.boot
      | inr stored => exact stored.2.lossy.boot
    obtain ⟨k', again, disk⟩ : ∃ k', (Event.powerFailure path r n driverState memoryAfter).befall k = some (none, k') ∧
        k'.disk = k.disk.torn (writeLog k r) n := ⟨_, rfl, restart_disk boot⟩
    rw [← disk] at torn
    cases torn with
    | inl lost => exact ⟨none, k', t, again, .lost, lost⟩
    | inr stored => exact ⟨none, k', _, again, .stored stored.1, stored.2⟩

/-! ## All events -/

theorem befall_inductive :
    Runs.Inductive Event.befall Event.Intended Fresh fun k => ∃ t, HoldsTree k.disk t where
  start _ fresh := ⟨newTree, holdsTree_fresh fresh⟩
  step k event holds intended := by
    obtain ⟨t, holds⟩ := holds
    obtain ⟨answer, k', t', befalls, _, holds'⟩ := befall_holdsTree holds intended
    exact ⟨answer, k', befalls, t', holds'⟩

/-- In every run of requests and power failures the disk holds a tree that the history may lead to, a file of the
    tree is read back byte for byte, and the next event is answered. -/
theorem failing_run_refines_tree (run : Run Event.befall Event.Intended Fresh history k) :
    ∃ t, Replays TreeStep newTree history t ∧ Shows k.disk t ∧
      (∀ path data, ∀ request : FAT32DriverRequest, k.disk.volume.At path request.parentClusterNumber.toNat →
        t (path ++ [(request.name, request.ext)]) = some (.file data) → data.length ≤ request.bufferSize.toNat →
        (read k request).1 = 0 ∧ (List.range data.length).map (read k request).2.2 = data) ∧
      ∀ event : Event, event.Intended k → ∃ answer k', event.befall k = some (answer, k') := by
  obtain ⟨t, replays, holds⟩ := run.simulated (fun k t => HoldsTree k.disk t) (fun _ => holdsTree_fresh) befall_inductive
    fun k t event answer k' _ holds intended answered => by
      obtain ⟨_, _, t', befalls, moves, holds'⟩ := befall_holdsTree holds intended
      obtain ⟨rfl, rfl⟩ := Prod.mk.inj (Option.some.inj (answered.symm.trans befalls))
      exact ⟨t', moves, holds'⟩
  exact ⟨t, replays, holds.shows, fun _ _ _ leads there enough => read_shown holds.lossy holds.shows leads there enough,
    fun _ intended => run.answered befall_inductive intended⟩

/-- On a new file system the write of `a.t` is interrupted in the middle of its second cluster. -/
theorem failing_run_refines_tree_file :
    ∃ k, Run Event.befall Event.Intended Fresh
        [(.powerFailure [] twoClusterFile 10 zeroKernel.driverState zeroKernel.memoryAfter, none)] k ∧
      ∃ t, Replays TreeStep newTree
          [(.powerFailure [] twoClusterFile 10 zeroKernel.driverState zeroKernel.memoryAfter, none)] t ∧
        Shows k.disk t := by
  have intended : IntendedAt zeroKernel ([], .write twoClusterFile) := {
    parent := .root
    write := by
      rintro r ⟨rfl⟩
      exact room_zeroKernel (by decide)
    delete := fun r impossible => by cases impossible
    path := .here }
  have run : Run Event.befall Event.Intended Fresh
      ([] ++ [(.powerFailure [] twoClusterFile 10 zeroKernel.driverState zeroKernel.memoryAfter, none)]) _ :=
    .step (.start fresh_zeroKernel) intended rfl
  obtain ⟨t, replays, shows, _⟩ := failing_run_refines_tree run
  exact ⟨_, run, t, replays, shows⟩

end Brother420.Fat32
