import Brother420.Shell.Reaching
import Brother420.Shell.Renaming

/-! # mv and unique names

`write` turns a request away when its name is taken.  `mv` edits the tables behind
the driver and asks nothing of the kind, in any of its branches.
-/

namespace Brother420

open Packed (Bytes)
open Runs (Run)

namespace Shell

open Fat32 Kernel Volume

variable {k k' : Kernel} {s s' : ShellState} {d : Disk} {p t u selfLocation : Nat} {m i j : Fin 64}
  {old new : ShortName}
  {f : FolderName} {path : List Nat}

/-! ## What a line should respect -/

/-- The directory that a line changes, and the name that an entry is to have there. -/
inductive Target (s : ShellState) : MvLine → Nat → ShortName → Prop
  | rename {old : ShortName} {new : TargetName} : Target s (.rename old new) s.currentDirectoryCluster new
  | move (line : MvLine) {t : Nat} : Destination s line t → Target s line t line.old

/-- Names are unique afterwards, and what already had the target's name is still reached by it. -/
structure RespectsNames (s s' : ShellState) (line : MvLine) : Prop where
  unique : s'.kernel.disk.volume.UniqueNames
  reached : ∀ t x i, Target s line t x → s.kernel.disk.volume.Slot t i →
    (s.kernel.disk.table t i).Named x.name x.extension → Reached s.kernel s'.kernel t i

/-- The entry in slot `m` of the current directory has the name that was typed. -/
structure Source (s : ShellState) (m : Fin 64) (x : ShortName) : Prop where
  entry : m ≠ 0
  named : (s.kernel.disk.table s.currentDirectoryCluster m).Named x.name x.extension

/-- The extension that the rename branch gives. -/
def renamedExt (old new : ShortName) : Bytes 3 := if old.ext ≠ [] then new.extension else noExt

/-! ## When it does -/

/-- The new name is new to the current directory and to the folder that is renamed, and a file that
    is given its own name survives that. -/
structure RenameFits (s : ShellState) (m : Fin 64) (old new : ShortName) : Prop where
  alone : ∀ i, i ≠ m → ¬ (s.kernel.disk.table s.currentDirectoryCluster i).Named new.name (renamedExt old new)
  self : (s.kernel.disk.table s.currentDirectoryCluster m).filesize = 0 → ∀ i, i ≠ 0 →
    ¬ (s.kernel.disk.table (s.kernel.disk.table s.currentDirectoryCluster m).cluster i).Named new.name
      (renamedExt old new)
  file : (s.kernel.disk.table s.currentDirectoryCluster m).filesize ≠ 0 → old.name = new.name →
    old.extension = new.extension → (s.kernel.disk.table s.currentDirectoryCluster m).attributeByte = 1 ∨
      StartsWith s.kernel.disk s.currentDirectoryCluster m new.name new.extension

/-- The directory `u` above has no such name if it has room for the entry.  Without an entry to move,
    names also are unique in all that is reached from the cluster in the uninitialised variable. -/
structure UpFits (s : ShellState) (old : ShortName) (selfLocation u : Nat) : Prop where
  small : s.currentDirectoryCluster = rootClusterNumber ∨ u < 256
  moved : (∃ m, Source s m old) → u ≠ s.currentDirectoryCluster → HasFree (s.kernel.disk.table u) →
    Lacks (s.kernel.disk.table u) old.name old.extension
  entered : (¬ ∃ m, Source s m old) → HasFree (s.kernel.disk.table u) →
    Lacks (s.kernel.disk.table u) old.name old.extension ∧
      ∀ q, s.kernel.disk.volume.Under (selfLocation % 2 ^ 16) q → UniqueIn (s.kernel.disk.table q)

/-- The folder has no such name if it has room for the entry; if it is the entry, no entry in it has its name. -/
structure IntoFits (s : ShellState) (m : Fin 64) (old : ShortName) (t : Nat) : Prop where
  moved : t ≠ (s.kernel.disk.table s.currentDirectoryCluster m).cluster → HasFree (s.kernel.disk.table t) →
    Lacks (s.kernel.disk.table t) old.name old.extension
  own : t = (s.kernel.disk.table s.currentDirectoryCluster m).cluster →
    ∀ i, i ≠ 0 → ¬ (s.kernel.disk.table t i).Named old.name old.extension

/-- When a line respects names. -/
def NamesFit (s : ShellState) (selfLocation : Nat) : MvLine → Prop
  | .rename old new => ∀ m, Source s m old → RenameFits s m old new
  | .parent old => ∀ u, Destination s (.parent old) u → UpFits s old selfLocation u ∧
      ((∃ m, Source s m old) → ∀ j, s.kernel.disk.volume.Edge u j s.currentDirectoryCluster →
        ¬ (s.kernel.disk.table u j).Named old.name old.extension)
  | .folder old f =>
      (f.Dotted → ∀ u, Destination s (.parent old) u → UpFits s old selfLocation u) ∧
        (¬ f.Dotted → ∀ m t, Source s m old → Destination s (.folder old f) t → IntoFits s m old t)

/-! ## The entry and the directory above -/

theorem Source.slot (source : Source s m old) (standing : Standing s path) :
    s.kernel.disk.volume.Slot s.currentDirectoryCluster m :=
  ⟨standing.route.directory, source.entry, source.named.live⟩

theorem Source.unique (source : Source s m old) (standing : Standing s path)
    (source' : Source s i old) : i = m :=
  standing.disk.volume.uniqueNames _ standing.route.directory _ _ _ _ source'.named source.named

theorem Source.found (source : Source s m old) (standing : Standing s path) :
    findEntry (s.kernel.disk.table s.currentDirectoryCluster) old.name old.extension = some m :=
  findEntry_line standing.disk (source.slot standing) source.named.name source.named.ext

theorem not_found (standing : Standing s path) (missing : ¬ ∃ m, Source s m old) :
    findEntry (s.kernel.disk.table s.currentDirectoryCluster) old.name old.extension = none := by
  refine findEntry_none.mpr fun j entry name ext => missing ⟨j, entry, ?_, name, ext⟩
  exact live_of_name standing.disk.volume.toSound standing.route.directory old.name_ne name

theorem exists_up (standing : Standing s path) (old : ShortName) :
    ∃ u, Destination s (.parent old) u := by
  by_cases root : s.currentDirectoryCluster = rootClusterNumber
  · exact ⟨_, .root root⟩
  · obtain ⟨_, u, _, _, _, edge⟩ := standing.footing.split root
    exact ⟨u, .parent edge⟩

section Up

variable (standing : Standing s path) (up : Destination s (.parent old) u)
include standing up

/-- The directory above is on the route to the current one. -/
theorem up_mem : u ∈ path := by
  cases up with
  | root root =>
    rw [← root]
    exact standing.route.mem
  | parent edge =>
    obtain ⟨l, rfl⟩ := standing.path_of_edge edge
    simp

theorem up_directory : s.kernel.disk.volume.Directory u :=
  standing.route.directory_of_mem (up_mem standing up)

theorem up_apart (slot : s.kernel.disk.volume.Slot s.currentDirectoryCluster m) :
    Apart s.kernel.disk.volume s.currentDirectoryCluster m u := by
  have sound := standing.disk.volume.toSound
  cases up with
  | root root =>
    rw [← root]
    exact sound.apart_self slot
  | parent edge => exact sound.apart_parent slot edge

theorem up_above (small : s.currentDirectoryCluster = rootClusterNumber ∨ u < 256) :
    Above s path u := by
  cases up with
  | root root => exact .inl ⟨root, rfl⟩
  | parent edge =>
    exact standing.above_parent edge (small.resolve_left (standing.disk.volume.child_ne_root edge))

theorem up_unique (up' : Destination s (.parent old) t) : t = u := by
  have sound := standing.disk.volume.toSound
  cases up with
  | root root =>
    cases up' with
    | root _ => rfl
    | parent edge => exact absurd root (sound.child_ne_root edge)
  | parent edge =>
    cases up' with
    | root root => exact absurd root (sound.child_ne_root edge)
    | parent edge' => exact (sound.edge_unique edge' edge).1

end Up

/-! ## To a new name -/

/-- What a line respects is decided on the state that it leaves. -/
theorem respects_iff {line : MvLine} {fits : Prop}
    (answer : commandCallMv s (lineOf line.text) selfLocation = some s')
    (decided : RespectsNames s s' line ↔ fits) :
    (∃ s', commandCallMv s (lineOf line.text) selfLocation = some s' ∧ RespectsNames s s' line) ↔
    fits := by
  rw [answer]
  simpa only [Option.some.injEq, exists_eq_left'] using decided

section Rename

variable {name : Bytes 8} {ext : Bytes 3} (wellFormed : d.WellFormed) (slot : d.volume.Slot p m)
include wellFormed slot

theorem renamedDisk_directory :
    (renamedDisk d p m name ext).volume.Directory t ↔ d.volume.Directory t := by
  have apart : (d.table p m).cluster ≠ p := wellFormed.volume.slot_cluster_ne slot
  apply directory_congr
  intro q i _ entry
  rw [Disk.volume_table, Disk.volume_table]
  by_cases here : q = p ∧ i = m
  · obtain ⟨rfl, rfl⟩ := here
    rw [renamedDisk_source apart]
    exact ⟨Iff.rfl, rfl, rfl⟩
  · rw [renamedDisk_slot apart (not_and_or.mp here) (.inr entry)]
    exact ⟨Iff.rfl, rfl, rfl⟩

variable (name ext)

/-- The names of the directory stay distinct if no other entry has the new one. -/
theorem renamedDisk_uniqueIn_parent :
    UniqueIn ((renamedDisk d p m name ext).table p) ↔ ∀ i, i ≠ m → ¬ (d.table p i).Named name ext := by
  have apart : (d.table p m).cluster ≠ p := wellFormed.volume.toSound.slot_cluster_ne slot
  have old {j : Fin 64} (other : j ≠ m) : (renamedDisk d p m name ext).table p j = d.table p j :=
    renamedDisk_slot apart (.inr other) (.inl (Ne.symm apart))
  have new : ((renamedDisk d p m name ext).table p m).Named name ext := by
    rw [renamedDisk_source apart]
    exact ⟨slot.live, rfl, rfl⟩
  rw [(wellFormed.volume.uniqueNames p slot.directory).new_iff new fun j other _ => old other]
  exact forall_congr' fun j => imp_congr_right fun other => by rw [old other]

/-- The entry 0 of a renamed folder gets the new name too. -/
theorem renamedDisk_uniqueIn_self (directory : d.volume.Directory (d.table p m).cluster) :
    UniqueIn ((renamedDisk d p m name ext).table (d.table p m).cluster) ↔
      ∀ i, i ≠ 0 → ¬ (d.table (d.table p m).cluster i).Named name ext := by
  have sound := wellFormed.volume.toSound
  have apart : (d.table p m).cluster ≠ p := sound.slot_cluster_ne slot
  have old {j : Fin 64} (other : j ≠ 0) :
      (renamedDisk d p m name ext).table (d.table p m).cluster j = d.table (d.table p m).cluster j :=
    renamedDisk_slot apart (.inl apart) (.inr other)
  have new : ((renamedDisk d p m name ext).table (d.table p m).cluster 0).Named name ext := by
    rw [renamedDisk_self, Function.update_self]
    exact ⟨(sound.self directory).1, rfl, rfl⟩
  rw [(wellFormed.volume.uniqueNames _ directory).new_iff new fun j other _ => old other]
  exact forall_congr' fun j => imp_congr_right fun other => by rw [old other]

/-- A renamed folder has its new name in two tables: in that of its parent and in its own. -/
theorem renamedDisk_uniqueNames_iff :
    (renamedDisk d p m name ext).volume.UniqueNames ↔
      (∀ i, i ≠ m → ¬ (d.table p i).Named name ext) ∧
        ((d.table p m).filesize = 0 → ∀ i, i ≠ 0 → ¬ (d.table (d.table p m).cluster i).Named name ext) := by
  have sound := wellFormed.volume.toSound
  have apart : (d.table p m).cluster ≠ p := sound.slot_cluster_ne slot
  have parent := renamedDisk_uniqueIn_parent name ext wellFormed slot
  have self := renamedDisk_uniqueIn_self name ext wellFormed slot
  constructor
  · intro unique'
    refine ⟨parent.mp (unique' p ((renamedDisk_directory wellFormed slot).mpr slot.directory)), fun folder => ?_⟩
    have directory : d.volume.Directory (d.table p m).cluster :=
      .child slot.directory slot.entry slot.live folder
    exact (self directory).mp (unique' _ ((renamedDisk_directory wellFormed slot).mpr directory))
  · rintro ⟨alone, inside⟩ q directory'
    have directory := (renamedDisk_directory wellFormed slot).mp directory'
    by_cases isParent : q = p
    · rw [isParent]
      exact parent.mpr alone
    · by_cases isSelf : q = (d.table p m).cluster
      · subst isSelf
        obtain ⟨l, chain, _⟩ := sound.chain slot
        have folder := (sound.slot_of_directory_mem slot chain chain.head_mem directory).folder
        exact (self directory).mpr (inside folder)
      · exact (wellFormed.volume.uniqueNames q directory).of_old fun j _ =>
          renamedDisk_slot apart (.inl isParent) (.inl isSelf)

end Rename

section Rename

variable (wellFormed : k.disk.WellFormed) (slot : k.disk.volume.Slot p m)
include wellFormed slot

/-- Another entry is still reached after a rename that keeps names unique. -/
theorem reached_of_renamed {name : Bytes 8} {ext : Bytes 3}
    (kernel : k'.disk = renamedDisk k.disk p m name ext)
    (unique : k'.disk.volume.UniqueNames) (entry : k.disk.volume.Slot p i)
    (named : (k.disk.table p i).name ≠ fun _ => 0) (other : i ≠ m) : Reached k k' p i := by
  have sound := wellFormed.volume.toSound
  have apart : (k.disk.table p m).cluster ≠ p := sound.slot_cluster_ne slot
  have parent := (sound.directory_range slot.directory).1
  have first := (sound.slot_range slot).1
  rw [Disk.volume_table] at first
  have here : k'.disk.volume.Directory p :=
    kernel ▸ (renamedDisk_directory wellFormed slot).mpr slot.directory
  have kept {j : Fin 64} (other : j ≠ m) : k'.disk.table p j = k.disk.table p j := by
    rw [kernel]
    exact renamedDisk_slot apart (.inr other) (.inl (Ne.symm apart))
  have tidy : Tidy (k'.disk.table p) := by
    intro x named
    by_cases source : x = m
    · rw [source, kernel, renamedDisk_source apart]
      exact slot.live
    · rw [kept source] at named ⊢
      exact tidy_of_wellFormed wellFormed slot.directory x named
  have continues : Continues (k.disk.table p i) (k'.disk.table p i) := by
    rw [kept other]
    exact .refl entry.live
  refine reached_of_continues (j := i) wellFormed entry named here ?_ (unique p here) tidy entry.entry continues ?_ ?_
  · rw [kernel, renamedDisk_fat (by omega) (by omega)]
  · intro file l chain x member
    rw [kernel]
    apply renamedDisk_others
    · rintro rfl
      exact sound.file_not_directory entry file chain member slot.directory
    · rintro rfl
      -- the first cluster of entry `m` is on no other chain
      obtain ⟨l', chain', _⟩ := sound.chain slot
      exact other (sound.disjoint entry slot chain chain' member chain'.head_mem).2
  · intro _ o entry'
    rw [kernel]
    apply renamedDisk_slot apart
    · exact .inl (sound.slot_cluster_ne entry)
    · exact .inr entry'

/-- An entry that is given the name it has is still reached, if it is a folder or reads alike. -/
theorem reached_renamed_iff (isName : (k.disk.table p m).name = old.name)
    (isExt : (k.disk.table p m).ext = old.extension) (sameName : old.name = new.name)
    (sameExt : old.extension = new.extension)
    (kernel : k'.disk = renamedDisk k.disk p m new.name new.extension)
    (unique : k'.disk.volume.UniqueNames)
    (alone : ∀ i, i ≠ m → ¬ (k.disk.table p i).Named new.name new.extension) :
    Reached k k' p m ↔ ((k.disk.table p m).filesize ≠ 0 →
      (k.disk.table p m).attributeByte = 1 ∨ StartsWith k.disk p m new.name new.extension) := by
  have sound := wellFormed.volume.toSound
  have apart : (k.disk.table p m).cluster ≠ p := sound.slot_cluster_ne slot
  have here : k'.disk.volume.Directory p :=
    kernel ▸ (renamedDisk_directory wellFormed slot).mpr slot.directory
  have again (request : FAT32DriverRequest) (name : request.name = old.name) (ext : request.ext = old.extension) :
      { request with name := new.name, ext := new.extension } = request := by
    rw [← sameName, ← sameExt, ← name, ← ext]
  have reads (file : (k.disk.table p m).filesize ≠ 0) :=
    reads_alike_iff wellFormed slot file isName isExt alone kernel
  constructor
  · intro reached file
    by_cases hidden : (k.disk.table p m).attributeByte = 1
    · exact .inl hidden
    -- a request by the old name is one by the new name
    · refine (reads file).mp fun request parent name ext enough => ?_
      obtain ⟨l, chain, _⟩ := sound.chain slot
      have answered := (read_slot wellFormed slot file chain old.name_ne isName isExt request parent name ext enough).1
      rw [if_neg hidden] at answered
      have kept := reached.file file request parent (name.trans isName.symm) (ext.trans isExt.symm) enough answered
      rw [again request name ext]
      exact ⟨kept.1.trans answered.symm, kept.2⟩
  · intro starts
    refine ⟨here, fun file request parent name ext enough answered => ?_, fun _ => ⟨m, ?_, ?_, fun o entry => ?_⟩⟩
    · have alike := (reads file).mpr (starts file) request parent (name.trans isName) (ext.trans isExt) enough
      rw [again request (name.trans isName) (ext.trans isExt)] at alike
      exact ⟨alike.1.trans answered, alike.2⟩
    · have named : (k'.disk.table p m).Named new.name new.extension := by
        rw [kernel, renamedDisk_source apart]
        exact ⟨slot.live, rfl, rfl⟩
      rw [isName, isExt, sameName, sameExt]
      exact findLive_unique (unique p here) named slot.entry
    · rw [kernel, renamedDisk_source apart]
      rfl
    · rw [kernel]
      exact renamedDisk_slot apart (.inl apart) (.inr entry)

end Rename

theorem renamedExt_self (same : old.extension = new.extension) :
    renamedExt old new = new.extension := by
  by_cases dotless : old.ext = []
  · rw [renamedExt, if_neg (not_not.mpr dotless), ← same, old.extension_eq_noExt.mpr dotless]
  · rw [renamedExt, if_pos dotless]

theorem rename_respects_iff (selfLocation : Nat) (old : ShortName) (new : TargetName)
    (standing : Standing s path) :
    (∃ s', commandCallMv s (lineOf (MvLine.rename old new).text) selfLocation = some s' ∧
        RespectsNames s s' (.rename old new)) ↔ NamesFit s selfLocation (.rename old new) := by
  by_cases there : ∃ m, Source s m old
  · obtain ⟨m, source⟩ := there
    have slot := source.slot standing
    obtain ⟨s', answer, disk⟩ :=
      rename_line new selfLocation standing.disk slot source.named.name source.named.ext
    apply respects_iff answer
    change s'.kernel.disk = renamedDisk _ _ _ _ (renamedExt old new) at disk
    have unique := renamedDisk_uniqueNames_iff new.name (renamedExt old new) standing.disk slot
    rw [← disk] at unique
    -- the entry itself, when it is given its own name
    have itself (sameName : old.name = new.name) (sameExt : old.extension = new.extension)
        (unique' : s'.kernel.disk.volume.UniqueNames) := by
      have alone := (unique.mp unique').1
      rw [renamedExt_self sameExt] at alone disk
      exact reached_renamed_iff standing.disk slot source.named.name source.named.ext sameName sameExt disk
        unique' alone
    constructor
    · intro respects m' source'
      obtain rfl := source.unique standing source'
      obtain ⟨alone, self⟩ := unique.mp respects.unique
      refine ⟨alone, self, fun file sameName sameExt => ?_⟩
      apply (itself sameName sameExt respects.unique).mp _ file
      apply respects.reached _ new m' .rename slot
      exact ⟨slot.live, source'.named.name.trans sameName, source'.named.ext.trans sameExt⟩
    · intro fits
      have holds := fits m source
      have unique' := unique.mpr ⟨holds.alone, holds.self⟩
      refine ⟨unique', fun t x i target entry named => ?_⟩
      cases target with
      | move _ destination => nomatch destination
      | rename =>
        by_cases isSource : i = m
        · subst isSource
          have sameName := source.named.name.symm.trans named.name
          have sameExt := source.named.ext.symm.trans named.ext
          exact (itself sameName sameExt unique').mpr fun file => holds.file file sameName sameExt
        · exact reached_of_renamed standing.disk slot disk unique' entry (named.name ▸ new.name_ne) isSource
  · have missing : findLive (s.kernel.disk.table s.currentDirectoryCluster) old.name old.extension = none :=
      findLive_none.mpr fun j entry live name ext => there ⟨j, entry, live, name, ext⟩
    have answer : commandCallMv s (lineOf (MvLine.rename old new).text) selfLocation = some s := by
      rw [commandCallMv_rename, mvRename_missing standing.directory_lt missing]
    apply respects_iff answer
    refine iff_of_true ⟨standing.disk.volume.uniqueNames, fun t x i _ entry named => ?_⟩ ?_
    · exact reached_of_same standing.disk entry (named.name ▸ x.name_ne) rfl
    · exact fun m source => absurd ⟨m, source⟩ there

/-! ## To the parent -/

/-- A line that goes up moves the entry, or enters a cluster under its name. -/
inductive WentUp (s s' : ShellState) (old : ShortName) (selfLocation u : Nat) : Prop
  | moved {m : Fin 64} : Source s m old →
      s'.kernel.disk = movedDisk s.kernel.disk s.currentDirectoryCluster m u → WentUp s s' old selfLocation u
  | entered : (¬ ∃ m, Source s m old) →
      s'.kernel.disk = insertedDisk s.kernel.disk u old.name old.extension 0 selfLocation →
      WentUp s s' old selfLocation u

section Up

variable (standing : Standing s path) (up : Destination s (.parent old) u)
include standing up

theorem mvParent_wentUp (selfLocation : Nat)
    (small : s.currentDirectoryCluster = rootClusterNumber ∨ u < 256) :
    ∃ s', mvParent s old.name old.extension selfLocation = some s' ∧
    WentUp s s' old selfLocation u := by
  have above := up_above standing up small
  have directory := up_directory standing up
  by_cases there : ∃ m, Source s m old
  · obtain ⟨m, source⟩ := there
    obtain ⟨s', answer, disk⟩ :=
      mvParent_disk selfLocation standing above directory (source.slot standing) (source.found standing)
    exact ⟨s', answer, .moved source disk⟩
  · obtain ⟨s', answer, disk⟩ :=
      mvParent_missing standing above directory (not_found standing there)
    exact ⟨s', answer, .entered there disk⟩

theorem WentUp.uniqueNames_iff (went : WentUp s s' old selfLocation u)
    (small : s.currentDirectoryCluster = rootClusterNumber ∨ u < 256) :
    s'.kernel.disk.volume.UniqueNames ↔ UpFits s old selfLocation u := by
  have directory := up_directory standing up
  cases went with
  | moved source disk =>
    have slot := source.slot standing
    have apart := up_apart standing up slot
    have notOwn := apart.ne
    rw [Disk.volume_table] at notOwn
    rw [disk, movedDisk_uniqueNames_iff standing.disk slot directory fun _ => apart, source.named.name,
      source.named.ext]
    constructor
    · intro lacks
      exact ⟨small, fun _ => lacks notOwn, fun missing => absurd ⟨_, source⟩ missing⟩
    · exact fun fits _ => fits.moved ⟨_, source⟩
  | entered missing disk =>
    rw [disk, insertedDisk_uniqueNames_iff standing.disk directory]
    constructor
    · intro holds
      exact ⟨small, fun there => absurd there missing, fun _ => holds⟩
    · exact fun fits => fits.entered missing

/-- An entry of the directory above that has the name is still reached, unless it is the current directory. -/
theorem WentUp.reached_up (went : WentUp s s' old selfLocation u)
    (unique : s'.kernel.disk.volume.UniqueNames)
    (entry : s.kernel.disk.volume.Slot u i)
    (named : (s.kernel.disk.table u i).Named old.name old.extension)
    (notHere : (∃ m, Source s m old) → ¬ s.kernel.disk.volume.Edge u i s.currentDirectoryCluster) :
    Reached s.kernel s'.kernel u i := by
  have sound := standing.disk.volume.toSound
  have directory := up_directory standing up
  have nonempty : (s.kernel.disk.table u i).name ≠ fun _ => 0 := named.name ▸ old.name_ne
  have notUp : (s.kernel.disk.table u i).cluster ≠ u := sound.slot_cluster_ne entry
  cases went with
  | @moved m source disk =>
    have slot := source.slot standing
    by_cases here : u = s.currentDirectoryCluster
    · subst here
      obtain rfl := source.unique standing ⟨entry.entry, named⟩
      exact reached_of_moved_within standing.disk slot nonempty disk unique
    · have apart := up_apart standing up slot
      refine reached_of_moved standing.disk slot directory disk unique (fun _ => apart) entry nonempty (.inl here) apart
        fun folder => ⟨fun current => notHere ⟨m, source⟩ ⟨entry, folder, current⟩, notUp⟩
  | entered missing disk =>
    exact reached_of_inserted standing.disk directory disk unique entry nonempty fun _ => notUp

/-- The entries of a folder in the current directory other than the entry are still reached. -/
theorem WentUp.reached_child (went : WentUp s s' old selfLocation u)
    (unique : s'.kernel.disk.volume.UniqueNames)
    (edge : s.kernel.disk.volume.Edge s.currentDirectoryCluster j t) (other : ¬ Source s j old)
    (entry : s.kernel.disk.volume.Slot t i)
    (nonempty : (s.kernel.disk.table t i).name ≠ fun _ => 0) :
    Reached s.kernel s'.kernel t i := by
  have sound := standing.disk.volume.toSound
  have directory := up_directory standing up
  -- no entry of the folder is on the route to it, so none is a table that changes
  have outside := sound.not_mem_route entry (.enter standing.route edge)
  have onRoute {x : Nat} (member : x ∈ path) : (s.kernel.disk.table t i).cluster ≠ x := by
    rintro rfl
    exact outside (List.mem_append_left _ member)
  have notUp := onRoute (up_mem standing up)
  cases went with
  | @moved m source disk =>
    have slot := source.slot standing
    have notOwn : t ≠ (s.kernel.disk.table s.currentDirectoryCluster m).cluster := by
      intro own
      obtain ⟨_, rfl⟩ := sound.slot_unique slot edge.toSlot (edge.cluster.trans own)
      exact other source
    have below := sound.child_ne edge
    exact reached_of_moved standing.disk slot directory disk unique (fun _ => up_apart standing up slot) entry nonempty
      (.inl below) (sound.apart_child slot edge notOwn) fun _ => ⟨onRoute standing.route.mem, notUp⟩
  | entered missing disk =>
    exact reached_of_inserted standing.disk directory disk unique entry nonempty fun _ => notUp

omit up in
/-- The current directory has lost the entry, so that it does not hold what it held. -/
theorem WentUp.not_reached (went : WentUp s s' old selfLocation u) (there : ∃ m, Source s m old)
    (edge : s.kernel.disk.volume.Edge u j s.currentDirectoryCluster) :
    ¬ Reached s.kernel s'.kernel u j := by
  intro reached
  cases went with
  | @moved m source disk =>
    obtain ⟨_, _, _, same⟩ := reached.folder edge.folder
    have cluster : (s.kernel.disk.table u j).cluster = s.currentDirectoryCluster := edge.cluster
    have other := standing.disk.volume.toSound.child_ne edge
    -- `Reached` asks for slot `m` as it was, but it was cleared
    have kept := same m source.entry
    have gone : s'.kernel.disk.table s.currentDirectoryCluster m =
        cleared (s.kernel.disk.table s.currentDirectoryCluster m) := by
      rw [disk]
      exact movedDisk_source (Ne.symm other)
    rw [cluster, gone] at kept
    exact cleared_not_live _ (kept ▸ source.named.live)
  | entered missing _ => exact missing there

end Up

section Up

variable (standing : Standing s path) (up : Destination s (.parent old) u)
  (small : s.currentDirectoryCluster = rootClusterNumber ∨ u < 256)
include standing up small

theorem parent_respects_iff :
    (∃ s', commandCallMv s (lineOf (MvLine.parent old).text) selfLocation = some s' ∧
        RespectsNames s s' (.parent old)) ↔ NamesFit s selfLocation (.parent old) := by
  obtain ⟨s', answer, went⟩ := mvParent_wentUp standing up selfLocation small
  apply respects_iff (commandCallMv_parent.trans answer)
  have unique := went.uniqueNames_iff standing up small
  constructor
  · intro respects u' up'
    obtain rfl := up_unique standing up up'
    refine ⟨unique.mp respects.unique, fun there j edge named => ?_⟩
    exact went.not_reached standing there edge
      (respects.reached u' old j (.move (.parent old) up) edge.toSlot named)
  · intro fits
    obtain ⟨upFits, notHere⟩ := fits u up
    have unique' := unique.mpr upFits
    refine ⟨unique', fun t x i target entry named => ?_⟩
    cases target with
    | move _ up' =>
      obtain rfl := up_unique standing up up'
      exact went.reached_up standing up unique' entry named fun there edge => notHere there i edge named

/-- A folder whose name starts with two dots only matters by what it holds. -/
theorem dotted_respects_iff (dotted : f.Dotted) :
    (∃ s', commandCallMv s (lineOf (MvLine.folder old f).text) selfLocation = some s' ∧
        RespectsNames s s' (.folder old f)) ↔ NamesFit s selfLocation (.folder old f) := by
  obtain ⟨s', answer, went⟩ := mvParent_wentUp standing up selfLocation small
  apply respects_iff ((commandCallMv_dotted dotted).trans answer)
  have unique := went.uniqueNames_iff standing up small
  constructor
  · intro respects
    refine ⟨fun _ u' up' => ?_, fun notDotted => absurd dotted notDotted⟩
    obtain rfl := up_unique standing up up'
    exact unique.mp respects.unique
  · intro fits
    have unique' := unique.mpr (fits.1 dotted u up)
    refine ⟨unique', fun t x i target entry named => ?_⟩
    cases target with
    | move _ destination =>
      cases destination with
      | @folder _ _ j _ edge folderName _ =>
        -- the entry itself is not the folder: no typed name starts with a dot
        have other : ¬ Source s j old := by
          intro source
          exact old.name_ne_dotted dotted (source.named.name.symm.trans folderName)
        exact went.reached_child standing up unique' edge other entry (named.name ▸ old.name_ne)

end Up

/-! ## Into a folder -/

/-- The folder that the line names is the one that the loop finds. -/
theorem destination_edge (standing : Standing s path)
    (is : Matches (s.kernel.disk.table s.currentDirectoryCluster) f.name i)
    (destination : Destination s (.folder old f) t) :
    s.kernel.disk.volume.Edge s.currentDirectoryCluster i t := by
  obtain ⟨_, live, isName, isExt⟩ := is
  cases destination with
  | @folder _ _ j _ edge folderName folderExt =>
    obtain rfl : j = i :=
      standing.disk.volume.unique edge.directory edge.live live (folderName.trans isName.symm)
      (folderExt.trans isExt.symm)
    exact edge

theorem matches_of_destination (destination : Destination s (.folder old f) t) :
    ∃ i, Matches (s.kernel.disk.table s.currentDirectoryCluster) f.name i := by
  cases destination with
  | @folder _ _ i _ edge folderName folderExt =>
      exact ⟨i, edge.entry, edge.live, folderName, folderExt⟩

/-- Without the folder or the entry the line does nothing. -/
theorem folder_respects_of_missing (standing : Standing s path) (notDotted : ¬ f.Dotted)
    (missing : ¬ ((∃ i, Matches (s.kernel.disk.table s.currentDirectoryCluster) f.name i) ∧ ∃ m, Source s m old)) :
    RespectsNames s (mvFolder s old.name old.extension f.name) (.folder old f) ↔
      NamesFit s selfLocation (.folder old f) := by
  have same : mvFolder s old.name old.extension f.name = s := by
    apply mvFolder_missing standing.directory_lt
    rcases not_and_or.mp missing with noFolder | noEntry
    · exact .inl fun j is => noFolder ⟨j, is⟩
    · exact .inr (not_found standing noEntry)
  rw [same]
  refine iff_of_true ⟨standing.disk.volume.uniqueNames, fun t x i _ entry named => ?_⟩ ?_
  · exact reached_of_same standing.disk entry (named.name ▸ x.name_ne) rfl
  · refine ⟨fun dotted => absurd dotted notDotted, fun _ m t source destination => ?_⟩
    exact absurd ⟨matches_of_destination destination, m, source⟩ missing

section Folder

variable (standing : Standing s path) (source : Source s m old) (notDotted : ¬ f.Dotted)
  (is : Matches (s.kernel.disk.table s.currentDirectoryCluster) f.name i)
include standing source notDotted is

/-- An entry that is put into a file is lost, and names stay unique. -/
theorem folder_respects_of_file (file : (s.kernel.disk.table s.currentDirectoryCluster i).filesize ≠ 0)
    (disk : s'.kernel.disk = movedDisk s.kernel.disk s.currentDirectoryCluster m
      (s.kernel.disk.table s.currentDirectoryCluster i).cluster) :
    RespectsNames s s' (.folder old f) ↔ NamesFit s selfLocation (.folder old f) := by
  have sound := standing.disk.volume.toSound
  have slot : s.kernel.disk.volume.Slot s.currentDirectoryCluster i :=
    ⟨standing.route.directory, is.1, is.2.1⟩
  have noFolder {t : Nat} (destination : Destination s (.folder old f) t) : False :=
    file (destination_edge standing is destination).folder
  have notDirectory : ¬ s.kernel.disk.volume.Directory
      (s.kernel.disk.table s.currentDirectoryCluster i).cluster := by
    obtain ⟨l, chain, _⟩ := sound.chain slot
    exact sound.file_not_directory slot file chain chain.head_mem
  have dropped := dropped_of_unreachable standing.disk (source.slot standing) (.inr notDirectory)
  rw [← disk] at dropped
  refine iff_of_true ⟨dropped.uniqueNames sound standing.disk.volume.uniqueNames, fun t x i target _ _ => ?_⟩ ?_
  · cases target with
    | move _ destination => exact absurd destination noFolder
  · exact ⟨fun dotted => absurd dotted notDotted, fun _ _ _ _ destination => absurd destination noFolder⟩

theorem folder_respects_of_folder (edge : s.kernel.disk.volume.Edge s.currentDirectoryCluster i t)
    (disk : s'.kernel.disk = movedDisk s.kernel.disk s.currentDirectoryCluster m t)
    (destination : Destination s (.folder old f) t) :
    RespectsNames s s' (.folder old f) ↔ NamesFit s selfLocation (.folder old f) := by
  have sound := standing.disk.volume.toSound
  have slot := source.slot standing
  have below := sound.child_ne edge
  have only {t' : Nat} (destination' : Destination s (.folder old f) t') : t' = t :=
    (destination_edge standing is destination').cluster.symm.trans edge.cluster
  have unique := movedDisk_uniqueNames_iff standing.disk slot edge.directory_child (sound.apart_child slot edge)
  rw [← disk, source.named.name, source.named.ext] at unique
  constructor
  · intro respects
    refine ⟨fun dotted => absurd dotted notDotted, fun _ m' t' source' destination' => ?_⟩
    obtain rfl := source.unique standing source'
    obtain rfl := only destination'
    refine ⟨fun notOwn => unique.mp respects.unique notOwn below, fun own x entry named => ?_⟩
    -- the folder is gone with all that it holds
    have dropped := dropped_of_unreachable standing.disk slot (.inl own)
    rw [← disk] at dropped
    have reached := respects.reached t' old x (.move (.folder old f) destination')
      ⟨edge.directory_child, entry, named.live⟩ named
    exact (dropped.directory_old sound reached.directory).2 own
  · rintro ⟨_, fits⟩
    have holds := fits notDotted m t source destination
    have unique' := unique.mpr fun notOwn _ => holds.moved notOwn
    refine ⟨unique', fun t' x j target entry named => ?_⟩
    cases target with
    | move _ destination' =>
      obtain rfl := only destination'
      have notOwn : t' ≠ (s.kernel.disk.table s.currentDirectoryCluster m).cluster :=
        fun own => holds.own own j entry.entry named
      have outside := sound.not_mem_route entry (.enter standing.route edge)
      have notHere : (s.kernel.disk.table t' j).cluster ≠ s.currentDirectoryCluster := by
        intro here
        exact outside (here ▸ List.mem_append_left _ standing.route.mem)
      exact reached_of_moved standing.disk slot edge.directory_child disk unique' (sound.apart_child slot edge) entry
        (named.name ▸ old.name_ne) (.inl below) (sound.apart_child slot edge notOwn)
        fun _ => ⟨notHere, sound.slot_cluster_ne entry⟩

end Folder

theorem folder_respects_iff (selfLocation : Nat) (old : ShortName) (standing : Standing s path)
    (notDotted : ¬ f.Dotted) :
    (∃ s', commandCallMv s (lineOf (MvLine.folder old f).text) selfLocation = some s' ∧
        RespectsNames s s' (.folder old f)) ↔ NamesFit s selfLocation (.folder old f) := by
  apply respects_iff (commandCallMv_folder notDotted)
  by_cases there : (∃ i, Matches (s.kernel.disk.table s.currentDirectoryCluster) f.name i) ∧ ∃ m, Source s m old
  · obtain ⟨⟨i, is⟩, m, source⟩ := there
    have slot : s.kernel.disk.volume.Slot s.currentDirectoryCluster i :=
      ⟨standing.route.directory, is.1, is.2.1⟩
    have disk := mvFolder_disk standing.disk slot is.2.2.1 is.2.2.2 (source.found standing)
    by_cases file : (s.kernel.disk.table s.currentDirectoryCluster i).filesize = 0
    · have edge : s.kernel.disk.volume.Edge s.currentDirectoryCluster i
          (s.kernel.disk.table s.currentDirectoryCluster i).cluster := ⟨slot, file, rfl⟩
      exact folder_respects_of_folder standing source notDotted is edge disk (.folder edge is.2.2.1 is.2.2.2)
    · exact folder_respects_of_file standing source notDotted is file disk
  · exact folder_respects_of_missing standing notDotted there

/-! ## mv -/

/-- A line that fits respects names; and when the cluster of the directory above fits 8 bits, or the
    line does not go there, a line that respects names fits. -/
theorem mv_respects_names (standing : Standing s path) (line : MvLine) :
    (NamesFit s selfLocation line →
        ∃ s', commandCallMv s (lineOf line.text) selfLocation = some s' ∧ RespectsNames s s' line) ∧
      ((GoesUp line → ∀ q j, s.kernel.disk.volume.Edge q j s.currentDirectoryCluster → q < 256) →
        (∃ s', commandCallMv s (lineOf line.text) selfLocation = some s' ∧ RespectsNames s s' line) →
        NamesFit s selfLocation line) := by
  -- the directory above, when its cluster is small enough
  have upSmall {old : ShortName} {u : Nat} (up : Destination s (.parent old) u)
      (small : ∀ q j, s.kernel.disk.volume.Edge q j s.currentDirectoryCluster → q < 256) :
      s.currentDirectoryCluster = rootClusterNumber ∨ u < 256 := by
    cases up with
    | root root => exact .inl root
    | parent edge => exact .inr (small _ _ edge)
  cases line with
  | rename old new =>
    have decided := rename_respects_iff selfLocation old new standing
    exact ⟨decided.mpr, fun _ => decided.mp⟩
  | parent old =>
    obtain ⟨u, up⟩ := exists_up standing old
    constructor
    · intro fits
      exact (parent_respects_iff standing up (fits u up).1.small).mpr fits
    · intro small
      exact (parent_respects_iff standing up (upSmall up (small trivial))).mp
  | folder old f =>
    by_cases dotted : f.Dotted
    · obtain ⟨u, up⟩ := exists_up standing old
      constructor
      · intro fits
        exact (dotted_respects_iff standing up (fits.1 dotted u up).small dotted).mpr fits
      · intro small
        exact (dotted_respects_iff standing up (upSmall up (small dotted)) dotted).mp
    · have decided := folder_respects_iff selfLocation old standing dotted
      exact ⟨decided.mpr, fun _ => decided.mp⟩

/-- The folder `d` is renamed to `e`, which is a new name. -/
theorem mv_respects_names_folder :
    ∃ k s', Run perform Intended Fresh [(.write folderD, 0)] k ∧
      commandCallMv (startShell k) (lineOf (MvLine.rename nameD targetE).text) 0 = some s' ∧
      RespectsNames (startShell k) s' (.rename nameD targetE) := by
  obtain ⟨k, run, written⟩ := run_first folderD (l := []) (by decide) (by decide) rfl rfl rfl
  obtain ⟨slot, entry⟩ := first_entry written
  have standing := (started_startShell (run_regular run).wellFormed).standing
  have unused : ∀ i, (k.disk.table rootClusterNumber i).name ≠ targetE.name :=
    first_names written targetE.name_ne (by decide) (by decide)
  -- the root has no `e`, and the folder is empty
  have fits : NamesFit (startShell k) 0 (.rename nameD targetE) := by
    intro m source
    have here : Source (startShell k) 1 nameD :=
      ⟨slot.entry, slot.live, entry ▸ name_newEntry, entry ▸ rfl⟩
    obtain rfl := here.unique standing source
    have cluster : (k.disk.table rootClusterNumber 1).cluster = 3 :=
      entry ▸ cluster_newEntry (by decide)
    refine ⟨fun i _ named => unused i named.name, fun _ i inside named => ?_, fun file => ?_⟩
    · have empty : k.disk.table 3 i = .zero := (written.added.folder rfl).2.2 i inside
      change (k.disk.table (k.disk.table rootClusterNumber 1).cluster i).Named _ _ at named
      rw [cluster, empty] at named
      exact FAT32DirectoryEntry.not_live_zero named.live
    · exact absurd (show (k.disk.table rootClusterNumber 1).filesize = 0 from entry ▸ filesize_newEntry) file
  obtain ⟨s', answer, respects⟩ := (mv_respects_names standing (.rename nameD targetE)).1 fits
  exact ⟨k, s', run, answer, respects⟩

/-- The file `b.t` of zeros. -/
def fileBT : FAT32DriverRequest := ⟨fun _ => 0, nameBT.name, nameBT.extension, 2, 1⟩

/-- When `a.t` is renamed to `b.t` and there is a file `b.t`, there are two. -/
theorem mv_doubles_name :
    ∃ k, Run perform Intended Fresh [(.write (zeroFile 1), 0), (.write fileBT, 0)] k ∧
      ¬ ∃ s', commandCallMv (startShell k) (lineOf (MvLine.rename nameAT targetBT).text) 0 = some s' ∧
        RespectsNames (startShell k) s' (.rename nameAT targetBT) := by
  obtain ⟨k₁, run₁, written₁⟩ :=
    run_first (zeroFile 1) (l := []) (by decide) (by decide) rfl rfl (by decide)
  obtain ⟨k, run, written⟩ := run_second fileBT run₁ written₁ (t := []) (by decide) (by decide)
    (fun same => absurd same (by decide)) rfl rfl (by decide)
  obtain ⟨slot₁, entry₁⟩ := first_entry written₁
  have added := written.added
  have sound := (run_regular run₁).sound.volume
  have first : k.disk.table rootClusterNumber 1 = newEntry (zeroFile 1) 3 :=
    (added.table_eq slot₁.directory slot₁.live).trans entry₁
  have second : k.disk.table rootClusterNumber 2 = newEntry fileBT 4 := added.table_new
  have standing := (started_startShell (run_regular run).wellFormed).standing
  have source : Source (startShell k) 1 nameAT := by
    refine ⟨by decide, ((added.slot_iff sound).mpr (.inl slot₁)).live, ?_, ?_⟩
    · exact first ▸ name_newEntry
    · exact first ▸ ext_newEntry (by decide)
  have taken : (k.disk.table rootClusterNumber 2).Named nameBT.name (renamedExt nameAT targetBT) := by
    refine ⟨((added.slot_iff sound).mpr (.inr ⟨rfl, rfl⟩)).live, ?_, ?_⟩
    · exact second ▸ name_newEntry
    · exact second ▸ ext_newEntry (by decide)
  refine ⟨k, run, fun respects => ?_⟩
  have fits := (rename_respects_iff 0 nameAT targetBT standing).mp respects 1 source
  exact fits.alone 2 (by decide) taken

end Shell

end Brother420
