import Brother420.Library.Paths
import Brother420.Fat32.LostClusters
import Brother420.Fat32.Files
import Brother420.Fat32.Routes

/-! # The tree of names

What the disk says to a user who names files by their paths: a map from paths to
folders and files.  An entry is identified by its first cluster, so the slots of
the directories are the edges of a tree of clusters, whose root is the root
directory.  A write grafts a leaf, a delete cuts one off.
-/

namespace Brother420.Fat32

open Packed (Bytes)
open Runs (Run replay)
open Paths (Tree Leads Depicts Grafted Cut)
open Kernel Volume

/-- Name and extension. -/
abbrev EntryName := Bytes 8 × Bytes 3

abbrev Path := List EntryName

def FAT32DirectoryEntry.entryName (e : FAT32DirectoryEntry) : EntryName := (e.name, e.ext)

inductive Node
  | folder
  | file (data : List UInt8)

namespace Volume

/-- Directory `p` has an entry of this name, which starts in cluster `c`. -/
def Entry (v : Volume) (p : Nat) (name : EntryName) (c : Nat) : Prop :=
  ∃ i, v.Slot p i ∧ (v.table p i).entryName = name ∧ (v.table p i).cluster = c

/-- The path leads from the root to the entry that starts in cluster `c`. -/
abbrev At (v : Volume) (path : Path) (c : Nat) : Prop := Leads v.Entry rootClusterNumber path c

variable {v v' : Volume} {p q c : Nat} {i s : Fin 64} {e : FAT32DirectoryEntry} {l : List Nat} {path : Path}
  {name : EntryName}

theorem Slot.entry_name (slot : v.Slot p i) : v.Entry p (v.table p i).entryName (v.table p i).cluster :=
  ⟨i, slot, rfl, rfl⟩

theorem Distinct.entryTree (distinct : v.Distinct) : Tree v.Entry rootClusterNumber where
  label := by
    rintro p _ b c ⟨i, slot, rfl, rfl⟩ ⟨j, slot', same, rfl⟩
    obtain ⟨name, ext⟩ := Prod.mk.inj same
    rw [distinct.unique slot.directory slot.live slot'.live name.symm ext.symm]
  parent := by
    rintro p _ q _ c ⟨i, slot, rfl, rfl⟩ ⟨j, slot', rfl, same⟩
    obtain ⟨rfl, rfl⟩ := distinct.toSound.slot_unique slot slot' same
    exact ⟨rfl, rfl⟩
  root := by
    rintro p _ ⟨i, slot, _, same⟩
    have range := distinct.toSound.slot_range slot
    rw [same] at range
    simp [rootClusterNumber] at range

theorem WellFormed.entryTree (wellFormed : v.WellFormed) : Tree v.Entry rootClusterNumber :=
  wellFormed.distinct.entryTree

/-- Every directory has a path. -/
theorem Directory.exists_at (directory : v.Directory c) : ∃ path, v.At path c := by
  induction directory with
  | root => exact ⟨[], .here⟩
  | child parent entry live _ ih =>
    obtain ⟨path, leads⟩ := ih
    exact ⟨_, .enter leads (Slot.entry_name ⟨parent, entry, live⟩)⟩

theorem Added.grafted (added : Added v v' p s e l) (sound : v.Sound) :
    Grafted v.Entry v'.Entry rootClusterNumber p e.entryName e.cluster where
  fresh := by
    have range := added.mem_range sound added.chain.head_mem
    refine ⟨by simp only [rootClusterNumber]; omega, ?_⟩
    rintro q _ ⟨i, slot, _, same⟩
    obtain ⟨l', chain, _⟩ := sound.chain slot
    have used := sound.fat_ne_zero slot chain chain.head_mem
    rw [same] at used
    exact used (added.fresh _ added.chain.head_mem)
  leaf := by
    rintro _ x ⟨i, slot, _, _⟩
    -- the cluster was free, so that it was no directory
    have stop := sound.directory_fat slot.directory
    rw [added.fresh _ added.chain.head_mem] at stop
    exact absurd stop (by decide)
  edges := by
    intro q name c
    constructor
    · rintro ⟨i, slot, rfl, rfl⟩
      rcases (added.slot_iff sound).mp slot with old | ⟨rfl, rfl⟩
      · rw [added.table_eq old.directory old.live]
        exact .inl old.entry_name
      · rw [added.table_new]
        exact .inr ⟨rfl, rfl, rfl⟩
    · rintro (⟨i, slot, rfl, rfl⟩ | ⟨rfl, rfl, rfl⟩)
      · rw [← added.table_eq slot.directory slot.live]
        exact Slot.entry_name ((added.slot_iff sound).mpr (.inl slot))
      · rw [← added.table_new]
        exact Slot.entry_name ((added.slot_iff sound).mpr (.inr ⟨rfl, rfl⟩))

/-- A removed file, or a removed folder that was empty, is a leaf that is cut off. -/
theorem Removed.cut (removed : Removed v v' p s l) (distinct : v.Distinct)
    (empty : (v.table p s).filesize = 0 → ∀ i, i ≠ 0 → ¬ (v.table (v.table p s).cluster i).Live) :
    Cut v.Entry v'.Entry p (v.table p s).entryName := by
  refine ⟨fun {q name c} => ?_⟩
  constructor
  · rintro ⟨i, slot, rfl, rfl⟩
    obtain ⟨old, other⟩ := removed.slot_old slot
    rw [removed.table_eq old.directory other]
    refine ⟨old.entry_name, ?_⟩
    rintro ⟨rfl, same⟩
    obtain ⟨name, ext⟩ := Prod.mk.inj same
    obtain rfl := distinct.unique old.directory old.live removed.slot.live name ext
    simp at other
  · rintro ⟨⟨i, slot, rfl, rfl⟩, other⟩
    have elsewhere : q ≠ p ∨ i ≠ s := by
      by_contra both
      obtain ⟨rfl, rfl⟩ : q = p ∧ i = s := by simpa using both
      exact other ⟨rfl, rfl⟩
    rw [← removed.table_eq slot.directory elsewhere]
    exact Slot.entry_name (removed.slot_kept empty slot elsewhere)

/-- Nothing is entered in a file or in an empty folder. -/
theorem Sound.leaf (sound : v.Sound) (slot : v.Slot p s)
    (empty : (v.table p s).filesize = 0 → ∀ i, i ≠ 0 → ¬ (v.table (v.table p s).cluster i).Live) :
    ∀ name c, ¬ v.Entry (v.table p s).cluster name c := by
  rintro name c ⟨i, inner, _, _⟩
  obtain ⟨l, chain, _⟩ := sound.chain slot
  have edge := sound.slot_of_directory_mem slot chain chain.head_mem inner.directory
  exact empty edge.folder i inner.entry inner.live

end Volume

/-! ## What the entries hold -/

/-- The entry that starts in this cluster is a folder, or a file with these bytes. -/
inductive Content (d : Disk) : Nat → Node → Prop
  | folder {c : Nat} : d.volume.Directory c → Content d c .folder
  | file {p : Nat} {i : Fin 64} {l : List Nat} : d.volume.Slot p i → (d.table p i).filesize ≠ 0 →
      d.volume.SlotChain p i l → Content d (d.table p i).cluster (.file (fileBytes d l (d.table p i).filesize.toNat))

/-- The map holds the folders and files of the disk under their paths. -/
abbrev Shows (d : Disk) (t : Path → Option Node) : Prop :=
  Depicts d.volume.Entry rootClusterNumber (Content d) t

variable {k k' : Kernel} {d : Disk} {request : FAT32DriverRequest} {p x : Nat} {s i : Fin 64} {e : FAT32DirectoryEntry}
  {l : List Nat} {path : Path} {name : EntryName} {node node' : Node} {t : Path → Option Node}

theorem Content.unique (sound : d.volume.Sound) (content : Content d x node) (content' : Content d x node') :
    node = node' := by
  have apart {p : Nat} {i : Fin 64} {l : List Nat} (slot : d.volume.Slot p i) (file : (d.table p i).filesize ≠ 0)
      (chain : d.volume.SlotChain p i l) : ¬ d.volume.Directory (d.table p i).cluster :=
    sound.file_not_directory slot file chain chain.head_mem
  cases content with
  | folder directory =>
    cases content' with
    | folder _ => rfl
    | file slot file chain => exact absurd directory (apart slot file chain)
  | @file p i l slot file chain =>
    generalize start : (d.table p i).cluster = x at content'
    cases content' with
    | folder directory =>
      rw [← start] at directory
      exact absurd directory (apart slot file chain)
    | file slot' _ chain' =>
      obtain ⟨rfl, rfl⟩ := sound.slot_unique slot slot' start.symm
      rw [chain.unique chain']

/-- Every entry holds something. -/
theorem exists_content (sound : d.volume.Sound) (leads : d.volume.At path x) : ∃ node, Content d x node := by
  cases leads with
  | here => exact ⟨_, .folder .root⟩
  | @enter _ q _ _ _ step =>
    obtain ⟨i, slot, _, rfl⟩ := step
    by_cases folder : (d.table q i).filesize = 0
    · exact ⟨_, .folder (.child slot.directory slot.entry slot.live folder)⟩
    · obtain ⟨l, chain, _⟩ := sound.chain slot
      exact ⟨_, .file slot folder chain⟩

/-- A path where nothing is shown leads nowhere. -/
theorem not_at_of_absent (shows : Shows d t) (sound : d.volume.Sound) (absent : t path = none) :
    ¬ d.volume.At path x := by
  intro leads
  obtain ⟨node, content⟩ := exists_content sound leads
  have there := (shows path node).mpr ⟨x, leads, content⟩
  rw [absent] at there
  cases there

/-- What a map shows behind the path of a directory. -/
theorem shows_some_iff (distinct : d.volume.Distinct) (shows : Shows d t) (leads : d.volume.At path p) :
    t (path ++ [name]) = some node ↔ ∃ i, d.volume.Slot p i ∧ (d.table p i).entryName = name ∧
      Content d (d.table p i).cluster node := by
  rw [shows]
  constructor
  · rintro ⟨x, below, content⟩
    obtain ⟨q, above, i, slot, same, rfl⟩ := Paths.leads_concat.mp below
    obtain rfl := leads.unique distinct.entryTree above
    exact ⟨i, slot, same, content⟩
  · rintro ⟨i, slot, rfl, content⟩
    exact ⟨_, .enter leads slot.entry_name, content⟩

theorem shows_none_iff (distinct : d.volume.Distinct) (shows : Shows d t) (leads : d.volume.At path p) :
    t (path ++ [name]) = none ↔ ∀ i, d.volume.Slot p i → (d.table p i).entryName ≠ name := by
  constructor
  · rintro absent i slot rfl
    exact not_at_of_absent shows distinct.toSound absent (.enter leads slot.entry_name)
  · intro missing
    apply shows.eq_none
    intro x below
    obtain ⟨q, above, i, slot, same, rfl⟩ := Paths.leads_concat.mp below
    obtain rfl := leads.unique distinct.entryTree above
    exact missing i slot same

/-! ## Writing -/

/-- What a write asks for: folders get no extension. -/
def FAT32DriverRequest.entryName (request : FAT32DriverRequest) : EntryName :=
  (request.name, if request.bufferSize = 0 then fun _ => 0 else request.ext)

def FAT32DriverRequest.newNode (request : FAT32DriverRequest) : Node :=
  if request.bufferSize = 0 then .folder else .file request.contents

theorem entryName_folder (folder : request.bufferSize = 0) : request.entryName = (request.name, fun _ => 0) := by
  rw [FAT32DriverRequest.entryName, if_pos folder]

theorem entryName_file (file : request.bufferSize ≠ 0) : request.entryName = (request.name, request.ext) := by
  rw [FAT32DriverRequest.entryName, if_neg file]

theorem newNode_folder (folder : request.bufferSize = 0) : request.newNode = .folder := if_pos folder

theorem newNode_file (file : request.bufferSize ≠ 0) : request.newNode = .file request.contents := if_neg file

theorem Written.entryName (written : Written request p s e l k k') : e.entryName = request.entryName :=
  Prod.ext written.name written.ext

theorem Written.content_iff (written : Written request p s e l k k') (sound : k.disk.Sound) :
    Content k'.disk x node ↔ (x ≠ e.cluster ∧ Content k.disk x node) ∨ (x = e.cluster ∧ node = request.newNode) := by
  have added := written.added
  have unused := added.fresh _ added.chain.head_mem
  have asFolder (folder : e.filesize = 0) : request.newNode = .folder :=
    newNode_folder (written.filesize ▸ folder)
  constructor
  · intro content
    cases content with
    | folder directory =>
      rcases (added.directory_iff sound.volume).mp directory with old | ⟨folder, rfl⟩
      · refine .inl ⟨?_, .folder old⟩
        rintro rfl
        have stop := sound.volume.directory_fat old
        rw [unused] at stop
        exact absurd stop (by decide)
      · exact .inr ⟨rfl, (asFolder folder).symm⟩
    | @file q i l' slot file chain =>
      rcases (added.slot_iff sound.volume).mp slot with old | ⟨rfl, rfl⟩
      · have same : k'.disk.table q i = k.disk.table q i := added.table_eq old.directory old.live
        have chainOld := added.chain_back sound.volume old chain
        rw [same] at file ⊢
        rw [written.fileBytes_kept sound old file chainOld]
        refine .inl ⟨fun here => ?_, .file old file chainOld⟩
        have used := sound.volume.fat_ne_zero old chainOld chainOld.head_mem
        rw [Disk.volume_table, here] at used
        exact used unused
      · have new : k'.disk.table q i = e := added.table_new
        rw [new] at file ⊢
        rw [written.filesize] at file ⊢
        obtain rfl := added.chain_new chain
        rw [written.fileBytes_new file, newNode_file file]
        exact .inr ⟨rfl, rfl⟩
  · have here : k'.disk.volume.Slot p s := (added.slot_iff sound.volume).mpr (.inr ⟨rfl, rfl⟩)
    have new : k'.disk.table p s = e := added.table_new
    rintro (⟨_, content⟩ | ⟨rfl, rfl⟩)
    · cases content with
      | folder directory => exact .folder ((added.directory_iff sound.volume).mpr (.inl directory))
      | @file q i l' slot file chain =>
        have same : k'.disk.table q i = k.disk.table q i := added.table_eq slot.directory slot.live
        rw [← written.fileBytes_kept sound slot file chain, ← same]
        exact .file ((added.slot_iff sound.volume).mpr (.inl slot)) (same ▸ file)
          (added.chain_kept sound.volume slot chain)
    · by_cases folder : request.bufferSize = 0
      · rw [newNode_folder folder]
        exact .folder ((added.directory_iff sound.volume).mpr (.inr ⟨written.filesize ▸ folder, rfl⟩))
      · have chain := added.chain
        rw [newNode_file folder, ← written.fileBytes_new folder, ← written.filesize]
        rw [← new] at chain ⊢
        exact .file here (by rw [new, written.filesize]; exact folder) chain

/-- An accepted write adds its file or folder under its parent. -/
theorem Written.shows (written : Written request p s e l k k') (lossy : k.disk.Lossy)
    (leads : k.disk.volume.At path p) (shows : Shows k.disk t) :
    Shows k'.disk (Function.update t (path ++ [request.entryName]) (some request.newNode)) := by
  have sound := lossy.sound
  have grafted := written.added.grafted sound.volume
  rw [written.entryName] at grafted
  refine grafted.depicts lossy.volume.distinct.entryTree leads ?_ shows fun _ _ => written.content_iff sound
  rintro c ⟨i, slot, same, _⟩
  -- a slot of that name would have been in the way
  obtain ⟨name, ext⟩ := Prod.mk.inj same
  exact written.newName ⟨i, name, fun file => ext.trans (if_neg file)⟩

/-! ## Deleting -/

theorem Erased.content_iff (erased : Erased request p s l k k') (sound : k.disk.Sound)
    (other : x ≠ (k.disk.table p s).cluster) : Content k'.disk x node ↔ Content k.disk x node := by
  have removed := erased.removed
  constructor
  · intro content
    cases content with
    | folder directory => exact .folder (removed.directory_old directory)
    | @file q i l' slot file chain =>
      obtain ⟨old, elsewhere⟩ := removed.slot_old slot
      have same : k'.disk.table q i = k.disk.table q i := removed.table_eq old.directory elsewhere
      have chainOld := removed.chain_back sound.volume slot chain
      rw [same] at file ⊢
      rw [erased.fileBytes_kept sound old file chainOld]
      exact .file old file chainOld
  · intro content
    cases content with
    | folder directory => exact .folder (removed.directory_kept erased.inside directory fun _ => other)
    | @file q i l' slot file chain =>
      have elsewhere : q ≠ p ∨ i ≠ s := by
        by_contra both
        obtain ⟨rfl, rfl⟩ : q = p ∧ i = s := by simpa using both
        exact other rfl
      have same : k'.disk.table q i = k.disk.table q i := removed.table_eq slot.directory elsewhere
      rw [← erased.fileBytes_kept sound slot file chain, ← same]
      exact .file (removed.slot_kept erased.inside slot elsewhere) (same ▸ file)
        (removed.chain_kept sound.volume slot elsewhere chain)

/-- An accepted delete takes its file or folder out. -/
theorem Erased.shows (erased : Erased request p s l k k') (lossy : k.disk.Lossy)
    (leads : k.disk.volume.At path p) (shows : Shows k.disk t) :
    Shows k'.disk (Function.update t (path ++ [(k.disk.table p s).entryName]) none) := by
  have sound := lossy.sound
  have distinct := lossy.volume.distinct
  have slot := erased.removed.slot
  exact (erased.removed.cut distinct erased.inside).depicts distinct.entryTree leads slot.entry_name
    (sound.volume.leaf slot erased.inside) shows fun _ _ other => erased.content_iff sound other

/-! ## Runs of requests by path -/

/-- A request whose parent is given by its path. -/
abbrev PathRequest := Path × Request

def performAt (k : Kernel) (request : PathRequest) : Option (Int8 × Kernel) := perform k request.2

/-- The path leads to the parent of an intended request. -/
structure IntendedAt (k : Kernel) (request : PathRequest) : Prop extends Intended k request.2 where
  path : k.disk.volume.At request.1 request.2.parent

/-- The files and folders after a request was answered with `code`. -/
def treeNext (t : Path → Option Node) : PathRequest → Int8 → Path → Option Node
  | (path, .write r), code => if code = 0 then Function.update t (path ++ [r.entryName]) (some r.newNode) else t
  | (path, .delete r), code => if code = 0 then Function.update t (path ++ [r.entryName]) none else t
  | (_, .read _), _ => t
  | (_, .readDirectory _), _ => t

/-- The files and folders of a new file system. -/
def newTree : Path → Option Node := Function.update (fun _ => none) [] (some .folder)

/-- Folders have no extension. -/
def BareFolders (d : Disk) : Prop :=
  ∀ p i, d.volume.Slot p i → (d.table p i).filesize = 0 → (d.table p i).ext = fun _ => 0

/-- What an answered request did. -/
inductive Effect (k : Kernel) : Request → Int8 → Kernel → Prop
  | quiet {request : Request} {code : Int8} {k' : Kernel} : k'.disk = k.disk → request.readOnly = true ∨ code ≠ 0 →
      Effect k request code k'
  | wrote {r : FAT32DriverRequest} {p : Nat} {s : Fin 64} {e : FAT32DirectoryEntry} {l : List Nat} {k' : Kernel} :
      r.parentClusterNumber.toNat = p → Written r p s e l k k' → Effect k (.write r) 0 k'
  | erased {r : FAT32DriverRequest} {p : Nat} {s : Fin 64} {l : List Nat} {k' : Kernel} :
      r.parentClusterNumber.toNat = p → Erased r p s l k k' → Effect k (.delete r) 0 k'

variable {code : Int8} {history : List (PathRequest × Int8)} {data : List UInt8}

theorem perform_effect {request : Request} (lossy : k.disk.Lossy) (intended : Intended k request) :
    ∃ code k', perform k request = some (code, k') ∧ Effect k request code k' := by
  have sound := lossy.sound
  cases request with
  | read r => exact ⟨_, _, rfl, .quiet (read_disk k r) (.inl rfl)⟩
  | readDirectory r => exact ⟨_, _, rfl, .quiet (readDirectory_disk k r) (.inl rfl)⟩
  | write r =>
    by_cases taken : Taken (k.disk.table r.parentClusterNumber.toNat) r
    · have refused := write_refused sound intended.parent rfl (intended.write r rfl) taken
      exact ⟨1, _, refused, .quiet rfl (.inr (by decide))⟩
    · obtain ⟨k', s, e, l, wrote, written⟩ := write_accepted sound intended.parent rfl (intended.write r rfl) taken
      exact ⟨0, k', wrote, .wrote rfl written⟩
  | delete r =>
    rcases delete_lossy lossy intended.parent rfl (intended.delete r rfl) with
      ⟨code, failed, refused⟩ | ⟨k', s, l, deleted, erased⟩
    · exact ⟨code, _, refused, .quiet rfl (.inr failed)⟩
    · exact ⟨0, k', deleted, .erased rfl erased⟩

/-! ## One step -/

theorem Effect.regular {request : Request} (effect : Effect k request code k') (regular : k.disk.Regular) :
    k'.disk.Regular := by
  cases effect with
  | quiet same _ => exact same ▸ regular
  | wrote _ written => exact written.regular regular
  | erased _ erased => exact erased.regular regular erased.freed erased.empty

theorem Effect.lossy {request : Request} (effect : Effect k request code k') (lossy : k.disk.Lossy) : k'.disk.Lossy := by
  cases effect with
  | quiet same _ => exact same ▸ lossy
  | wrote _ written => exact written.lossy lossy
  | erased _ erased => exact erased.lossy lossy

theorem Effect.bareFolders {request : Request} (effect : Effect k request code k') (sound : k.disk.Sound)
    (bare : BareFolders k.disk) : BareFolders k'.disk := by
  cases effect with
  | quiet same _ => exact same ▸ bare
  | @wrote r p s e l _ _ written =>
    intro q i slot folder
    rcases (written.added.slot_iff sound.volume).mp slot with old | ⟨rfl, rfl⟩
    · have same : k'.disk.table q i = k.disk.table q i := written.added.table_eq old.directory old.live
      rw [same] at folder ⊢
      exact bare q i old folder
    · have new : k'.disk.table q i = e := written.added.table_new
      rw [new, written.filesize] at folder
      rw [new, written.ext, if_pos folder]
  | @erased r p s l _ _ erased =>
    intro q i slot folder
    obtain ⟨old, other⟩ := erased.removed.slot_old slot
    have same : k'.disk.table q i = k.disk.table q i := erased.removed.table_eq old.directory other
    rw [same] at folder ⊢
    exact bare q i old folder

theorem Erased.entryName (erased : Erased request p s l k k') (bare : BareFolders k.disk) :
    (k.disk.table p s).entryName = request.entryName := by
  by_cases folder : request.bufferSize = 0
  · rw [entryName_folder folder]
    exact Prod.ext erased.name (bare p s erased.removed.slot (erased.kind.mpr folder))
  · rw [entryName_file folder]
    exact Prod.ext erased.name (erased.ext folder)

theorem treeNext_quiet {request : PathRequest} (quiet : request.2.readOnly = true ∨ code ≠ 0) :
    treeNext t request code = t := by
  obtain ⟨path, request⟩ := request
  cases request <;> simp_all [treeNext, Request.readOnly]

/-- One answered request is one step of the tree. -/
theorem Effect.shows {request : Request} (effect : Effect k request code k') (lossy : k.disk.Lossy)
    (bare : BareFolders k.disk) (leads : k.disk.volume.At path request.parent) (shows : Shows k.disk t) :
    Shows k'.disk (treeNext t (path, request) code) := by
  cases effect with
  | quiet same silent =>
    rw [treeNext_quiet silent, same]
    exact shows
  | wrote parent written =>
    rw [Request.parent, Request.driverRequest, parent] at leads
    exact written.shows lossy leads shows
  | erased parent erased =>
    rw [Request.parent, Request.driverRequest, parent] at leads
    rw [treeNext, if_pos rfl, ← erased.entryName bare]
    exact erased.shows lossy leads shows

/-! ## All steps -/

theorem OnlyRoot.shows (only : OnlyRoot d.volume) : Shows d newTree := by
  have alone {path : Path} {x : Nat} (leads : d.volume.At path x) : path = [] ∧ x = rootClusterNumber := by
    cases leads with
    | here => exact ⟨rfl, rfl⟩
    | enter _ step =>
      obtain ⟨i, slot, _⟩ := step
      exact absurd slot only.no_slot
  intro path node
  constructor
  · intro there
    by_cases root : path = []
    · subst root
      rw [newTree, Function.update_self] at there
      obtain rfl := Option.some.inj there
      exact ⟨_, .here, .folder .root⟩
    · rw [newTree, Function.update_of_ne root] at there
      cases there
  · rintro ⟨x, leads, content⟩
    obtain ⟨rfl, rfl⟩ := alone leads
    rw [newTree, Function.update_self]
    generalize rootClusterNumber = x at content
    cases content with
    | folder _ => rfl
    | file slot _ _ => exact absurd slot only.no_slot

theorem tree_inductive :
    Runs.Inductive performAt IntendedAt Fresh fun k => k.disk.Regular ∧ BareFolders k.disk where
  start := fun _ fresh => ⟨fresh.regular, fun _ _ slot => absurd slot fresh.onlyRoot.no_slot⟩
  step := fun _ request ⟨regular, bare⟩ intended => by
    obtain ⟨code, k', answer, effect⟩ := perform_effect regular.lossy intended.toIntended
    exact ⟨code, k', answer, effect.regular regular, effect.bareFolders regular.sound bare⟩

theorem holds_shown (lossy : d.Lossy) (shows : Shows d t) (leads : d.volume.At path p)
    (there : t (path ++ [name]) = some (.file data)) : Holds d (p, name) data := by
  have sound := lossy.sound.volume
  obtain ⟨i, slot, same, content⟩ := (shows_some_iff lossy.volume.distinct shows leads).mp there
  obtain ⟨name, ext⟩ := Prod.mk.inj same
  generalize start : (d.table p i).cluster = c at content
  cases content with
  | file slot' file chain =>
    obtain ⟨rfl, rfl⟩ := sound.slot_unique slot slot' start.symm
    exact ⟨_, _, ⟨slot, file, name, ext⟩, chain, rfl⟩

/-- The driver reads what the tree holds. -/
theorem read_shown (lossy : k.disk.Lossy) (shows : Shows k.disk t)
    (leads : k.disk.volume.At path request.parentClusterNumber.toNat)
    (there : t (path ++ [(request.name, request.ext)]) = some (.file data))
    (enough : data.length ≤ request.bufferSize.toNat) :
    (read k request).1 = 0 ∧ (List.range data.length).map (read k request).2.2 = data := by
  have holds : Holds k.disk request.key data := holds_shown lossy shows leads there
  obtain ⟨code, bytes, _⟩ := read_lossy lossy holds enough
  exact ⟨code, bytes⟩

/-- In every run of intended requests the disk holds the tree of the replayed history, and a file of the tree is
    read back byte for byte. -/
theorem run_refines_tree (run : Run performAt IntendedAt Fresh history k) :
    Shows k.disk (replay treeNext newTree history) ∧
      ∀ path data, ∀ request : FAT32DriverRequest, k.disk.volume.At path request.parentClusterNumber.toNat →
        replay treeNext newTree history (path ++ [(request.name, request.ext)]) = some (.file data) →
        data.length ≤ request.bufferSize.toNat →
        (read k request).1 = 0 ∧ (List.range data.length).map (read k request).2.2 = data := by
  have shows : Shows k.disk (replay treeNext newTree history) := by
    apply Run.refines (fun k t => Shows k.disk t) (fun _ fresh => fresh.onlyRoot.shows) tree_inductive _ run
    rintro k t ⟨path, request⟩ code k' ⟨regular, bare⟩ shows intended answer
    obtain ⟨_, _, answer', effect⟩ := perform_effect regular.lossy intended.toIntended
    obtain ⟨rfl, rfl⟩ := Prod.mk.inj (Option.some.inj (answer.symm.trans answer'))
    exact effect.shows regular.lossy bare intended.path shows
  have kept := run.invariant tree_inductive
  exact ⟨shows, fun _ _ _ leads there enough => read_shown kept.1.lossy shows leads there enough⟩

/-- A file of 3000 bytes in a new root. -/
theorem run_refines_tree_file :
    let file : FAT32DriverRequest := ⟨fun a => UInt8.ofNat a, text ['a'], text ['t'], 2, 3000⟩
    ∃ k, Run performAt IntendedAt Fresh [(([], .write file), 0)] k ∧
      (List.range 3000).map (read k ⟨fun _ => 0, text ['a'], text ['t'], 2, 4096⟩).2.2 =
        (List.range 3000).map fun a => UInt8.ofNat a := by
  intro file
  have fresh := fresh_zeroKernel
  have new : ¬ Taken (zeroKernel.disk.table rootClusterNumber) file := by
    rw [fresh.root]
    exact not_taken_freshRoot (by decide) (by decide)
  have slot : FirstFree (zeroKernel.disk.table rootClusterNumber) 1 := fresh.root ▸ firstFree_freshRoot
  have split : freeList zeroKernel.disk.fatTable = 3 :: [4] ++ List.range' 5 507 :=
    fresh.freeList.trans rfl
  obtain ⟨k, wrote, _⟩ := write_adds fresh.regular.sound .root rfl new split (by decide) slot
  have intended : Intended zeroKernel (.write file) := intended_write .root rfl split (by decide) slot
  have run : Run performAt IntendedAt Fresh [(([], .write file), 0)] k :=
    .step (.start fresh) ⟨intended, .here⟩ wrote
  refine ⟨k, run, ?_⟩
  have there : replay treeNext newTree [(([], .write file), 0)] ([] ++ [(text ['a'], text ['t'])]) =
      some (.file file.contents) := by
    rw [replay, List.foldl_cons, List.foldl_nil, treeNext, if_pos rfl, entryName_file (by decide),
      newNode_file (by decide)]
    exact Function.update_self _ _ _
  have length : file.contents.length = 3000 := by simp [FAT32DriverRequest.contents, file]
  have readable := ((run_refines_tree run).2 [] file.contents ⟨fun _ => 0, text ['a'], text ['t'], 2, 4096⟩ .here
    there (length ▸ by decide)).2
  rw [length] at readable
  exact readable

end Brother420.Fat32
