import Brother420.Fat32.PowerFailures
import Brother420.Fat32.Storing

/-! # Booting

At every start `kernel_setup` mounts the file system, asks for sample folders and
files, and reads the shell.  Most of the samples go to clusters 10, 11 and 12,
which need not be directories.
-/

namespace Brother420.Fat32

open Packed (Bytes)
open Runs (Run)
open Kernel Volume

/-! ## The requests -/

/-- `requester.name[0] = first` -/
def FAT32DriverRequest.setFirst (r : FAT32DriverRequest) (first : UInt8) : FAT32DriverRequest :=
  { r with name := fun i => if i.val = 0 then first else r.name i }

/-- `memcpy(requester.name + 4, tail, 4)` -/
def FAT32DriverRequest.setTail (r : FAT32DriverRequest) (tail : Bytes 4) : FAT32DriverRequest :=
  { r with name := fun i => if h : i.val < 4 then r.name i else tail ⟨i - 4, by omega⟩ }

def cbuf : Memory := fun a => if a < 5 * clusterSize then UInt8.ofNat (a / clusterSize) + 'a'.toUInt8 else 0

def ebufText : String :=
  "Nandemonai to kuchi o tsugunda\nHonto wa chotto ashi o tometakute\n" ++
  "Dakedomo kimi wa hayaashi de sutto mae o iku kara\nBoku wa sore o mitsumeteru\n" ++
  "saishuubin kimi wa noru boku o oitette\nHashiridasu yukkuri to\nJimen ga zureteiku\n" ++
  "Naicha dame naicha dame\nDemo honto wa iitai yo\nIkanaide\nChizuru"

def ebuf : Memory := fun a => (ebufText.toList.map Char.toUInt8).getD a 0

def requester : FAT32DriverRequest :=
  ⟨cbuf, text ['i', 'k', 'a', 'n', 'a', 'i', 'd', 'e'], text ['u', 'w', 'u'], 2, 0⟩

/-- The rounds `i` and on of the loop, with what they leave in `requester`. -/
def setupFiles : (remaining i : Nat) → FAT32DriverRequest → List Request × FAT32DriverRequest
  | 0, _, r => ([], r)
  | remaining + 1, i, r =>
    let r :=
      if i = 4 then { r.setTail (text ['L']) with parentClusterNumber := 10 }
      else if i = 8 then { r.setTail (text ['D', 'u']) with parentClusterNumber := 11 }
      else if i = 12 then { r.setTail (text ['H', 'A', 'L', 'O']) with parentClusterNumber := 12 }
      else r
    let r := r.setFirst (r.name 0 + 1)
    let (later, last) := setupFiles remaining (i + 1) r
    (.write r :: later, last)

/-- The requests of `kernel_setup` before that for the shell. -/
def setupRequests : List Request :=
  let folder := requester.setFirst 'a'.toUInt8
  let short := folder.setTail (text [])
  let inner := { (short.setTail (text ['F', 'F', 'A', 'A'])).setFirst 'c'.toUInt8 with parentClusterNumber := 10 }
  let file := { inner with bufferSize := 0x14, parentClusterNumber := 2 }
  let (files, last) := setupFiles 15 0 ((file.setFirst 'j'.toUInt8).setTail (text ['a', 'i', 'd', 'e']))
  [.write folder, .write short, .write inner] ++ files ++
    [.delete last, .write { last.setFirst 'i'.toUInt8 with bufferSize := 0x120, buf := ebuf }]

def performAll (k : Kernel) (requests : List Request) : Option Kernel :=
  requests.foldlM (fun k request => (perform k request).map Prod.snd) k

/-- `kernel_setup` up to the shell: memory may hold anything before. -/
def setup (d : Disk) (driverState : FAT32DriverState) (memoryAfter : Memory) : Option Kernel :=
  performAll (initializeFilesystemFat32 ⟨d, driverState, memoryAfter⟩) setupRequests

/-- The last request reads the shell to address 0 of the user's memory. -/
def shellRequest (buf : Memory) : FAT32DriverRequest :=
  ⟨buf, text ['s', 'h', 'e', 'l', 'l'], fun _ => 0, 2, 0x100000⟩

/-- A small folder or file in the root, under a name other than that of the root and of free slots. -/
def Request.RootSample : Request → Prop
  | .write r => r.parentClusterNumber = 2 ∧ r.bufferSize ≤ 2048 ∧ r.name ≠ (fun _ => 0) ∧ r.name ≠ rootName
  | _ => False

/-- A request to one of clusters 10, 11 and 12. -/
def Request.InnerSample : Request → Prop
  | .write r => 10 ≤ r.parentClusterNumber.toNat ∧ r.parentClusterNumber.toNat ≤ 12
  | .delete r => r.parentClusterNumber = 12 ∧ r.bufferSize ≠ 0 ∧
      r.name = text ['y', 'k', 'a', 'n', 'H', 'A', 'L', 'O'] ∧ r.ext = text ['u', 'w', 'u']
  | _ => False

instance : DecidablePred Request.RootSample
  | .write _ => inferInstanceAs (Decidable (_ ∧ _ ∧ _ ∧ _))
  | .delete _ | .read _ | .readDirectory _ => inferInstanceAs (Decidable False)

instance : DecidablePred Request.InnerSample
  | .write _ => inferInstanceAs (Decidable (_ ∧ _))
  | .delete _ => inferInstanceAs (Decidable (_ ∧ _ ∧ _ ∧ _))
  | .read _ | .readDirectory _ => inferInstanceAs (Decidable False)

theorem setupRequests_samples : ∀ r ∈ setupRequests, r.RootSample ∨ r.InnerSample := by decide +kernel

theorem setupRequests_count : (setupRequests.filter fun r => r.RootSample).length = 6 := by decide +kernel

/-! ## What they do to the tree -/

/-- A folder is refused for every entry of its name, a file for one with its extension. -/
def FAT32DriverRequest.InWay (r : FAT32DriverRequest) (t : Path → Option Node) : Prop :=
  ∃ ext, (r.bufferSize ≠ 0 → ext = r.ext) ∧ t [(r.name, ext)] ≠ none

open Classical in
/-- The tree with the folder or file in the root, unless something is in its way. -/
noncomputable def FAT32DriverRequest.addTo (t : Path → Option Node) (r : FAT32DriverRequest) : Path → Option Node :=
  if r.InWay t then t else Function.update t [r.entryName] (some r.newNode)

noncomputable def addAll (t : Path → Option Node) (requests : List Request) : Path → Option Node :=
  ((requests.filter fun r => r.RootSample).map Request.driverRequest).foldl (fun t r => r.addTo t) t

variable {k k' : Kernel} {d d' : Disk} {request : FAT32DriverRequest} {r : Request} {requests : List Request} {m n : Nat}
  {t : Path → Option Node} {data : List UInt8}

theorem addTo_kept {path : Path} {node : Node} (there : t path = some node) : request.addTo t path = some node := by
  unfold FAT32DriverRequest.addTo
  split
  · exact there
  · rename_i free
    have other : path ≠ [request.entryName] := by
      rintro rfl
      have named : t [(request.name, request.entryName.2)] = some node := there
      exact free ⟨request.entryName.2, fun file => if_neg file, by simp [named]⟩
    rw [Function.update_of_ne other, there]

/-- Nothing is taken away. -/
theorem addAll_kept {path : Path} {node : Node} (there : t path = some node) : addAll t requests path = some node := by
  unfold addAll
  generalize (requests.filter fun r => r.RootSample).map Request.driverRequest = l
  induction l generalizing t with
  | nil => exact there
  | cons r l ih => exact ih (addTo_kept there)

/-! ## Disks that boot -/

/-- The disk holds a tree, clusters 10, 11 and 12 lie inside chains, and the root and the volume have room for more
    than `m` small entries. -/
structure Bootable (d : Disk) (t : Path → Option Node) (m : Nat) : Prop extends HoldsTree d t where
  self : (d.table rootClusterNumber 0).name = rootName
  inner : ∀ c, 10 ≤ c → c ≤ 12 → d.fat c ≠ 0 ∧ d.fat c ≠ fat32FatEndOfFile
  absent : ∀ i, (d.table 12 i).name = text ['y', 'k', 'a', 'n', 'H', 'A', 'L', 'O'] →
    (d.table 12 i).ext ≠ text ['u', 'w', 'u']
  slots : ∃ l : List (Fin 64), l.Nodup ∧ m < l.length ∧ ∀ i ∈ l, ¬ (d.table rootClusterNumber i).Live
  clusters : m < (freeList d.fatTable).length

theorem needed_small {size : UInt32} (small : size ≤ 2048) : needed size = 1 := by
  have bound : size.toNat ≤ 2048 := UInt32.le_iff_toNat_le.mp small
  unfold needed
  split
  · rfl
  · rename_i file
    have positive : 0 < size.toNat := by
      by_contra zero
      exact file (UInt32.toNat_inj.mp (by simpa using zero))
    rw [totalCluster_eq]
    omega

theorem Request.RootSample.named (root : r.RootSample) : r.driverRequest.name ≠ fun _ => 0 := by
  cases r with
  | write q => exact root.2.2.1
  | read _ | readDirectory _ | delete _ => exact root.elim

/-- A name that is in use stays in use as long as the slots in use are kept. -/
theorem taken_kept (sound : d.Sound) (named : request.name ≠ fun _ => 0)
    (kept : ∀ i, (d.table rootClusterNumber i).Live → d'.table rootClusterNumber i = d.table rootClusterNumber i)
    (taken : Taken (d.table rootClusterNumber) request) : Taken (d'.table rootClusterNumber) request := by
  obtain ⟨i, name, ext⟩ := taken
  have live : (d.table rootClusterNumber i).Live := by
    by_contra vacant
    have zero : d.table rootClusterNumber i = .zero := sound.volume.free .root vacant
    rw [zero] at name
    exact named name.symm
  rw [← kept i live] at name ext
  exact ⟨i, name, ext⟩

namespace Bootable

theorem taken_iff (bootable : Bootable d t m) (named : request.name ≠ fun _ => 0) (notRoot : request.name ≠ rootName) :
    Taken (d.table rootClusterNumber) request ↔ request.InWay t := by
  have distinct := bootable.lossy.volume.distinct
  have none_iff (name : EntryName) : t [name] = none ↔ ∀ i, d.volume.Slot rootClusterNumber i →
      (d.table rootClusterNumber i).entryName ≠ name := shows_none_iff distinct bootable.shows .here
  constructor
  · rintro ⟨i, name, ext⟩
    have entry : i ≠ 0 := by
      rintro rfl
      exact notRoot (name.symm.trans bootable.self)
    have live : (d.table rootClusterNumber i).Live := by
      by_contra vacant
      have zero : d.table rootClusterNumber i = .zero := distinct.free .root vacant
      rw [zero] at name
      exact named name.symm
    refine ⟨(d.table rootClusterNumber i).ext, ext, fun absent => ?_⟩
    exact (none_iff _).mp absent i ⟨.root, entry, live⟩ (Prod.ext name rfl)
  · rintro ⟨ext, same, there⟩
    by_contra free
    refine there ((none_iff _).mpr fun i slot entry => free ?_)
    obtain ⟨name, rfl⟩ := Prod.mk.inj entry
    exact ⟨i, name, same⟩

theorem room (bootable : Bootable d t m) {size : UInt32} (small : size ≤ 2048) : Room d rootClusterNumber size where
  slot := by
    obtain ⟨l, _, longer, vacant⟩ := bootable.slots
    obtain ⟨i, l, rfl⟩ := List.exists_cons_of_length_pos (Nat.zero_lt_of_lt longer)
    exact ⟨i, vacant i List.mem_cons_self⟩
  clusters := by
    rw [needed_small small]
    exact Nat.succ_le_of_lt (Nat.zero_lt_of_lt bootable.clusters)

theorem weaken (bootable : Bootable d t m) (fewer : n ≤ m) : Bootable d t n where
  toHoldsTree := bootable.toHoldsTree
  self := bootable.self
  inner := bootable.inner
  absent := bootable.absent
  slots := by
    obtain ⟨l, distinct, longer, vacant⟩ := bootable.slots
    exact ⟨l, distinct, by omega, vacant⟩
  clusters := Nat.lt_of_le_of_lt fewer bootable.clusters

theorem written {s : Fin 64} {e : FAT32DirectoryEntry} {l : List Nat} (bootable : Bootable k.disk t (m + 1))
    (written : Written request rootClusterNumber s e l k k')
    (parent : request.parentClusterNumber.toNat = rootClusterNumber) (small : request.bufferSize ≤ 2048) :
    Bootable k'.disk (Function.update t [request.entryName] (some request.newNode)) m where
  toHoldsTree := by
    have effect : Effect k (.write request) 0 k' := .wrote parent written
    have leads : k.disk.volume.At [] request.parentClusterNumber.toNat := by
      rw [parent]
      exact .here
    exact effect.holdsTree bootable.toHoldsTree leads
  self := by
    have table : k'.disk.table rootClusterNumber = Function.update (k.disk.table rootClusterNumber) s e :=
      written.added.tableParent
    have other : (0 : Fin 64) ≠ s := by
      rintro rfl
      exact written.added.vacant (bootable.lossy.sound.volume.self .root).1
    rw [table, Function.update_of_ne other]
    exact bootable.self
  inner c lower upper := by
    have inner := bootable.inner c lower upper
    have same : k'.disk.fat c = k.disk.fat c :=
      written.added.fatFrame c fun member => inner.1 (written.added.fresh c member)
    rw [same]
    exact inner
  absent := by
    have inner := bootable.inner 12 (by decide) (by decide)
    have same : k'.disk.table 12 = k.disk.table 12 := Disk.table_congr
      (written.frame 12 (by decide) (by decide) fun member => inner.1 (written.added.fresh 12 member))
    rw [same]
    exact bootable.absent
  slots := by
    have table : k'.disk.table rootClusterNumber = Function.update (k.disk.table rootClusterNumber) s e :=
      written.added.tableParent
    obtain ⟨l, distinct, longer, vacant⟩ := bootable.slots
    refine ⟨l.erase s, distinct.erase s, ?_, fun i member => ?_⟩
    · have length := List.le_length_erase (l := l) (a := s)
      omega
    · obtain ⟨other, member⟩ := distinct.mem_erase_iff.mp member
      rw [table, Function.update_of_ne other]
      exact vacant i member
  clusters := by
    obtain ⟨rest, free⟩ := written.free
    have length : l.length = 1 := by
      rw [written.added.length, clusters_eq_needed, written.filesize, needed_small small]
    have room := bootable.clusters
    rw [free, List.length_append, length] at room
    rw [written.freeList bootable.lossy.sound free]
    omega

/-! ### One request -/

/-- A sample for the root is refused if something is in its way, and else stored. -/
theorem root_sample (bootable : Bootable k.disk t (m + 1)) (sample : r.RootSample) :
    ∃ code k', perform k r = some (code, k') ∧ Bootable k'.disk (r.driverRequest.addTo t) m ∧
      Taken (k'.disk.table rootClusterNumber) r.driverRequest ∧
      ∀ i, (k.disk.table rootClusterNumber i).Live → k'.disk.table rootClusterNumber i = k.disk.table rootClusterNumber i := by
  cases r with
  | write q =>
    obtain ⟨root, small, named, notRoot⟩ := sample
    have sound := bootable.lossy.sound
    have parent : q.parentClusterNumber.toNat = rootClusterNumber := by rw [root]; rfl
    have room := bootable.room small
    simp only [Request.driverRequest]
    by_cases taken : Taken (k.disk.table rootClusterNumber) q
    · have refused := write_refused sound .root parent room taken
      have inWay := (bootable.taken_iff named notRoot).mp taken
      rw [FAT32DriverRequest.addTo, if_pos inWay]
      exact ⟨1, k.load rootClusterNumber, refused, bootable.weaken (Nat.le_succ m), taken, fun _ _ => rfl⟩
    · obtain ⟨k', s, e, l, wrote, written⟩ := write_accepted sound .root parent room taken
      have free := (bootable.taken_iff named notRoot).not.mp taken
      have table : k'.disk.table rootClusterNumber s = e := written.added.table_new
      rw [FAT32DriverRequest.addTo, if_neg free]
      refine ⟨0, k', wrote, bootable.written written parent small, ⟨s, ?_, fun file => ?_⟩, fun i live => ?_⟩
      · rw [table, written.name]
      · rw [table, written.ext, if_neg file]
      · exact written.added.table_eq .root live
  | read _ | readDirectory _ | delete _ => exact sample.elim

/-- A sample for the inside of a chain is turned away. -/
theorem inner_sample (bootable : Bootable k.disk t m) (sample : r.InnerSample) :
    ∃ code k', perform k r = some (code, k') ∧ k'.disk = k.disk := by
  cases r with
  | write q =>
    have inner := bootable.inner _ sample.1 sample.2
    exact ⟨2, _, write_invalid_parent rfl (by have := sample.2; omega) inner.2, rfl⟩
  | delete q =>
    obtain ⟨twelve, file, name, ext⟩ := sample
    have parent : q.parentClusterNumber.toNat = 12 := by rw [twelve]; rfl
    have absent : findNameExt (k.disk.table 12) q.name q.ext = none := by
      rw [name, ext]
      exact findNameExt_none.mpr bootable.absent
    exact ⟨1, _, delete_absent parent (by decide) file absent, rfl⟩
  | read _ | readDirectory _ => exact sample.elim

/-! ### All requests -/

/-- Induction on the requests. -/
theorem performAll (bootable : Bootable k.disk t (m + n)) (samples : ∀ r ∈ requests, r.RootSample ∨ r.InnerSample)
    (count : (requests.filter fun r => r.RootSample).length = n) :
    ∃ k', Fat32.performAll k requests = some k' ∧ Bootable k'.disk (addAll t requests) m ∧
      (∀ r ∈ requests, r.RootSample → Taken (k'.disk.table rootClusterNumber) r.driverRequest) ∧
      ∀ i, (k.disk.table rootClusterNumber i).Live → k'.disk.table rootClusterNumber i = k.disk.table rootClusterNumber i := by
  induction requests generalizing k t n with
  | nil =>
    obtain rfl : 0 = n := count
    exact ⟨k, rfl, bootable, fun r member => absurd member List.not_mem_nil, fun _ _ => rfl⟩
  | cons r requests ih =>
    have later : ∀ r ∈ requests, r.RootSample ∨ r.InnerSample := fun r member => samples r (List.mem_cons_of_mem _ member)
    by_cases root : r.RootSample
    · rw [List.filter_cons_of_pos (by simpa using root), List.length_cons] at count
      obtain rfl := count
      obtain ⟨code, k₁, performed, bootable₁, taken, kept₁⟩ := bootable.root_sample root
      obtain ⟨k', rest, bootable', all, kept⟩ := ih bootable₁ later rfl
      refine ⟨k', ?_, ?_, fun q member sample => ?_, fun i live => ?_⟩
      · rw [Fat32.performAll, List.foldlM_cons, performed]
        exact rest
      · rw [addAll, List.filter_cons_of_pos (by simpa using root)]
        exact bootable'
      · cases member with
        | head => exact taken_kept bootable₁.lossy.sound root.named kept taken
        | tail _ member => exact all q member sample
      · have same := kept₁ i live
        exact (kept i (same ▸ live)).trans same
    · have inner := (samples r List.mem_cons_self).resolve_left root
      rw [List.filter_cons_of_neg (by simpa using root)] at count
      obtain ⟨code, k₁, performed, same⟩ := bootable.inner_sample inner
      rw [← same] at bootable ⊢
      obtain ⟨k', rest, bootable', all, kept⟩ := ih bootable later count
      refine ⟨k', ?_, ?_, fun q member sample => ?_, kept⟩
      · rw [Fat32.performAll, List.foldlM_cons, performed]
        exact rest
      · rw [addAll, List.filter_cons_of_neg (by simpa using root)]
        exact bootable'
      · cases member with
        | head => exact absurd sample root
        | tail _ member => exact all q member sample

/-- With all samples in the root already there nothing is stored. -/
theorem performAll_again (bootable : Bootable k.disk t m) (samples : ∀ r ∈ requests, r.RootSample ∨ r.InnerSample)
    (all : ∀ r ∈ requests, r.RootSample → Taken (k.disk.table rootClusterNumber) r.driverRequest) :
    ∃ k', Fat32.performAll k requests = some k' ∧ k'.disk = k.disk := by
  induction requests generalizing k with
  | nil => exact ⟨k, rfl, rfl⟩
  | cons r requests ih =>
    obtain ⟨code, k₁, performed, same⟩ : ∃ code k₁, perform k r = some (code, k₁) ∧ k₁.disk = k.disk := by
      by_cases root : r.RootSample
      · have taken := all r List.mem_cons_self root
        cases r with
        | write q =>
          have parent : q.parentClusterNumber.toNat = rootClusterNumber := by rw [root.1]; rfl
          exact ⟨1, _, write_refused bootable.lossy.sound .root parent (bootable.room root.2.1) taken, rfl⟩
        | read _ | readDirectory _ | delete _ => exact root.elim
      · exact bootable.inner_sample ((samples r List.mem_cons_self).resolve_left root)
    rw [← same] at bootable all
    obtain ⟨k', rest, unchanged⟩ := ih bootable (fun r member => samples r (List.mem_cons_of_mem _ member))
      fun r member => all r (List.mem_cons_of_mem _ member)
    refine ⟨k', ?_, unchanged.trans same⟩
    rw [Fat32.performAll, List.foldlM_cons, performed]
    exact rest

end Bootable

/-- The shell is in the user's memory from address 0 on, and nothing is stored behind the buffer's 1 MiB. -/
def LoadsShell (k : Kernel) (data : List UInt8) : Prop :=
  ∀ buf, (read k (shellRequest buf)).1 = 0 ∧ (List.range data.length).map (read k (shellRequest buf)).2.2 = data ∧
    ∀ a, 2 ^ 20 ≤ a → (read k (shellRequest buf)).2.2 a = buf a

theorem HoldsTree.loadsShell (holds : HoldsTree k.disk t)
    (shell : t [(text ['s', 'h', 'e', 'l', 'l'], fun _ => 0)] = some (.file data)) (size : data.length ≤ 2 ^ 20) :
    LoadsShell k data := by
  intro buf
  have file : Holds k.disk (shellRequest buf).key data := holds_shown holds.lossy holds.shows .here shell
  obtain ⟨code, bytes, rest⟩ := read_lossy holds.lossy file size
  exact ⟨code, bytes, fun a behind => rest a (by omega)⟩

/-! ## A long file on a new file system -/

/-- Name and extension of the sample that is deleted. -/
def sampleMark : List UInt8 := ['y', 'k', 'a', 'n', 'H', 'A', 'L', 'O', 'u', 'w', 'u'].map Char.toUInt8

/-- No entry of the tenth cluster of the file, if it is taken for a table, has them. -/
def Unmarked (data : List UInt8) : Prop := ∀ i : Fin 64, (data.drop (18432 + 32 * i)).take 11 ≠ sampleMark

theorem write_fresh (fresh : Fresh k) (parent : request.parentClusterNumber.toNat = rootClusterNumber)
    (named : request.name ≠ fun _ => 0) (notRoot : request.name ≠ rootName) (room : needed request.bufferSize ≤ 509) :
    ∃ k', write k request = some (0, k') ∧ Written request rootClusterNumber 1 (newEntry request 3)
      (List.range' 3 (needed request.bufferSize)) k k' := by
  have new : ¬ Taken (k.disk.table rootClusterNumber) request := by
    rw [fresh.root]
    exact not_taken_freshRoot notRoot named
  have slot : FirstFree (k.disk.table rootClusterNumber) 1 := fresh.root ▸ firstFree_freshRoot
  generalize count : needed request.bufferSize = n at room
  cases n with
  | zero => exact absurd count (Nat.ne_of_gt needed_pos)
  | succ n =>
    have split : freeList k.disk.fatTable = 3 :: List.range' 4 n ++ List.range' (4 + n) (508 - n) := by
      rw [fresh.freeList, List.cons_append, List.range'_append_1, Nat.add_sub_cancel' (by omega)]
      rfl
    exact write_adds fresh.regular.sound .root parent new split (by simp [count]) slot

theorem table_name (d : Disk) (c : Nat) (i : Fin 64) (j : Fin 8) :
    (d.table c i).name j = d (2048 * c + (j.val + 32 * i.val)) := rfl

theorem table_ext (d : Disk) (c : Nat) (i : Fin 64) (j : Fin 3) :
    (d.table c i).ext j = d (2048 * c + (8 + j.val + 32 * i.val)) := rfl

theorem freshRoot_self : (freshRoot 0).name = rootName := rfl

theorem sampleMark_name : ∀ j : Fin 8, sampleMark[j.val]? =
    some ((text ['y', 'k', 'a', 'n', 'H', 'A', 'L', 'O'] : Bytes 8) j) := by decide

theorem sampleMark_ext : ∀ j : Fin 3, sampleMark[8 + j.val]? = some ((text ['u', 'w', 'u'] : Bytes 3) j) := by decide

section Long

variable (fresh : Fresh k) (answer : write k request = some (0, k'))
  (written : Written request rootClusterNumber 1 (newEntry request 3) (List.range' 3 (needed request.bufferSize)) k k')
  (long : 20480 < request.bufferSize.toNat)

theorem needed_long (long : 20480 < request.bufferSize.toNat) :
    request.bufferSize ≠ 0 ∧ needed request.bufferSize = (request.bufferSize.toNat + 2047) / 2048 := by
  have file : request.bufferSize ≠ 0 := by
    intro zero
    rw [zero] at long
    exact absurd long (by decide)
  exact ⟨file, by rw [needed, if_neg file, totalCluster_eq]⟩

include written

theorem holds_written (fresh : Fresh k) (parent : request.parentClusterNumber.toNat = rootClusterNumber) :
    HoldsTree k'.disk (Function.update newTree [request.entryName] (some request.newNode)) := by
  have effect : Effect k (.write request) 0 k' := .wrote parent written
  have leads : k.disk.volume.At [] request.parentClusterNumber.toNat := by
    rw [parent]
    exact .here
  exact effect.holdsTree (holdsTree_fresh fresh) leads

include long

/-- The clusters of the file are 3, 4, 5, and so on. -/
theorem inner_written {c : Nat} (fresh : Fresh k) (lower : 10 ≤ c) (upper : c ≤ 12) :
    k'.disk.fat c ≠ 0 ∧ k'.disk.fat c ≠ fat32FatEndOfFile := by
  have sound := fresh.regular.sound
  have count := (needed_long long).2
  have slot : k'.disk.volume.Slot rootClusterNumber 1 := (written.added.slot_iff sound.volume).mpr (.inr ⟨rfl, rfl⟩)
  have entry : k'.disk.table rootClusterNumber 1 = newEntry request 3 := written.added.table_new
  have chain : k'.disk.volume.SlotChain rootClusterNumber 1 (List.range' 3 (needed request.bufferSize)) := by
    unfold SlotChain
    rw [Disk.volume_table, entry]
    exact written.added.chain
  have member : c ∈ List.range' 3 (needed request.bufferSize) := List.mem_range'_1.mpr (by omega)
  refine ⟨(written.sound sound).volume.fat_ne_zero slot chain member, fun stop => ?_⟩
  have last := chain.getLast?_eq_some.mpr ⟨member, next_eq_none.mpr stop⟩
  rw [List.getLast?_range', if_neg (by omega)] at last
  have same := Option.some.inj last
  omega

include answer

/-- Cluster 12 holds bytes 18432 to 20479 of the file. -/
theorem absent_written (unmarked : Unmarked request.contents) (i : Fin 64)
    (name : (k'.disk.table 12 i).name = text ['y', 'k', 'a', 'n', 'H', 'A', 'L', 'O']) :
    (k'.disk.table 12 i).ext ≠ text ['u', 'w', 'u'] := by
  intro ext
  obtain ⟨file, count⟩ := needed_long long
  have place : (List.range' 3 (needed request.bufferSize))[9]? = some 12 := by
    rw [List.getElem?_range' (by omega)]
  have bytes (a : Nat) (inside : a < 2048) : k'.disk (2048 * 12 + a) = request.buf (18432 + a) := by
    have content := (written.stored file answer).content 9 12 place ⟨a, inside⟩
    rw [if_pos (by simp only; omega)] at content
    exact content
  apply unmarked i
  apply List.ext_getElem?
  intro a
  by_cases behind : 11 ≤ a
  · rw [List.getElem?_eq_none (by rw [List.length_take]; omega)]
    exact (List.getElem?_eq_none (by simpa [sampleMark] using behind)).symm
  · have there : ((request.contents.drop (18432 + 32 * i)).take 11)[a]? = some (request.buf (18432 + (a + 32 * i.val))) := by
      rw [List.getElem?_take_of_lt (by omega), List.getElem?_drop, FAT32DriverRequest.contents, List.getElem?_map,
        List.getElem?_range (by omega)]
      simp only [Option.map_some, Option.some.injEq]
      congr 1
      omega
    rw [there, ← bytes _ (by omega)]
    by_cases inName : a < 8
    · have letter := congrFun name ⟨a, inName⟩
      rw [table_name] at letter
      rw [letter]
      exact (sampleMark_name ⟨a, inName⟩).symm
    · have letter := congrFun ext ⟨a - 8, by omega⟩
      rw [table_ext] at letter
      have mark := sampleMark_ext ⟨a - 8, by omega⟩
      simp only [show 8 + (a - 8) = a by omega] at letter mark
      rw [letter]
      exact mark.symm

theorem bootable_written (fresh : Fresh k) (parent : request.parentClusterNumber.toNat = rootClusterNumber)
    (short : request.bufferSize.toNat ≤ 1028096) (unmarked : Unmarked request.contents) :
    Bootable k'.disk (Function.update newTree [request.entryName] (some request.newNode)) 6 where
  toHoldsTree := holds_written written fresh parent
  self := by
    have table : k'.disk.table rootClusterNumber = _ := written.added.tableParent
    rw [table, Function.update_of_ne (by decide), Disk.volume_table, fresh.root]
    exact freshRoot_self
  inner _ := inner_written written long fresh
  absent := absent_written answer written long unmarked
  slots := by
    refine ⟨[2, 3, 4, 5, 6, 7, 8], by decide, by decide, fun i member => ?_⟩
    have table : k'.disk.table rootClusterNumber = _ := written.added.tableParent
    have others : ∀ i ∈ [2, 3, 4, 5, 6, 7, (8 : Fin 64)], i ≠ 0 ∧ i ≠ 1 := by decide
    obtain ⟨notSelf, other⟩ := others i member
    rw [table, Function.update_of_ne other, Disk.volume_table, fresh.root, freshRoot_other notSelf]
    exact FAT32DirectoryEntry.not_live_zero
  clusters := by
    have count := (needed_long long).2
    obtain ⟨rest, free⟩ := written.free
    have all := congrArg List.length (fresh.freeList.symm.trans free)
    rw [List.length_append, List.length_range', List.length_range'] at all
    rw [written.freeList fresh.regular.sound free]
    omega

end Long

/-! ## Starting -/

/-- The first start answers all requests, adds the samples that have room in the tree, and loads the shell.  Every later
    start leaves the disk as it is and loads the shell too. -/
theorem setup_loads_shell (bootable : Bootable d t 6)
    (shell : t [(text ['s', 'h', 'e', 'l', 'l'], fun _ => 0)] = some (.file data)) (size : data.length ≤ 2 ^ 20)
    (driverState : FAT32DriverState) (memoryAfter : Memory) :
    ∃ k, setup d driverState memoryAfter = some k ∧ HoldsTree k.disk (addAll t setupRequests) ∧ LoadsShell k data ∧
      ∀ driverState memoryAfter, ∃ k', setup k.disk driverState memoryAfter = some k' ∧ k'.disk = k.disk ∧
        LoadsShell k' data := by
  have mounted {d : Disk} {t : Path → Option Node} {m : Nat} (bootable : Bootable d t m) (driverState : FAT32DriverState)
      (memoryAfter : Memory) : (initializeFilesystemFat32 ⟨d, driverState, memoryAfter⟩).disk = d :=
    restart_disk bootable.lossy.boot
  have start : Bootable (initializeFilesystemFat32 ⟨d, driverState, memoryAfter⟩).disk t (0 + 6) := by
    rw [mounted bootable]
    exact bootable
  obtain ⟨k, performed, bootable', all, _⟩ := start.performAll setupRequests_samples setupRequests_count
  have loads {k' : Kernel} (same : k'.disk = k.disk) : LoadsShell k' data :=
    (same ▸ bootable'.toHoldsTree).loadsShell (addAll_kept shell) size
  refine ⟨k, performed, bootable'.toHoldsTree, loads rfl, fun driverState memoryAfter => ?_⟩
  have disk := mounted bootable' driverState memoryAfter
  rw [← disk] at bootable' all
  obtain ⟨k', again, same⟩ := bootable'.performAll_again setupRequests_samples all
  exact ⟨k', again, same.trans disk, loads (same.trans disk)⟩

/-- A shell of 22528 zeros. -/
def zeroShell : FAT32DriverRequest := ⟨fun _ => 0, text ['s', 'h', 'e', 'l', 'l'], fun _ => 0, 2, 22528⟩

theorem zeroShell_contents : zeroShell.contents = List.replicate 22528 0 := by
  have zeros : zeroShell.contents = (List.range 22528).map fun _ => 0 := rfl
  rw [zeros, List.map_const', List.length_range]

theorem unmarked_zeros : Unmarked (List.replicate 22528 0) := by
  intro i
  rw [List.drop_replicate, List.take_replicate, Nat.min_eq_left (by omega)]
  decide

/-- It is alone on a new file system. -/
theorem setup_loads_shell_zeros :
    ∃ d k, setup d .zero (fun _ => 0) = some k ∧ LoadsShell k (List.replicate 22528 0) := by
  have unmarked : Unmarked zeroShell.contents := zeroShell_contents ▸ unmarked_zeros
  obtain ⟨k, answer, written⟩ :=
    @write_fresh _ zeroShell fresh_zeroKernel rfl (by decide) (by decide) (by decide)
  have bootable := bootable_written answer written (by decide) fresh_zeroKernel rfl (by decide) unmarked
  have there : Function.update newTree [zeroShell.entryName] (some zeroShell.newNode)
      [(text ['s', 'h', 'e', 'l', 'l'], fun _ => 0)] = some (.file (List.replicate 22528 0)) := by
    rw [← zeroShell_contents, newNode_file (by decide)]
    exact Function.update_self _ _ _
  have size : (List.replicate 22528 (0 : UInt8)).length ≤ 2 ^ 20 := by
    rw [List.length_replicate]
    decide
  obtain ⟨k', booted, _, loads, _⟩ := setup_loads_shell bootable there size .zero fun _ => 0
  exact ⟨k.disk, k', booted, loads⟩

end Brother420.Fat32
