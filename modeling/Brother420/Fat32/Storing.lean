import Brother420.Fat32.Erasing
import Brother420.Fat32.Indices

/-! # What a write stores

The exact effect of a file write: the chain it strings together, the entry and
the clusters, and nothing else.  The check for the name tests no attribute, so a
request of zeros is taken for one of the free slots.
-/

namespace Brother420.Fat32

open Packed (Bytes Layout)
open Linked (Chain)
open Kernel Volume

variable {k k' : Kernel} {request : FAT32DriverRequest} {table : FAT32DirectoryTable} {p : Nat} {s s' : Fin 64}
  {e : FAT32DirectoryEntry} {l : List Nat}

theorem FirstFree.unique (first : FirstFree table s) (other : FirstFree table s') : s = s' := by
  rcases lt_trichotomy s s' with before | same | behind
  · exact absurd (other.2 s before) first.1
  · exact same
  · exact absurd (first.2 s' behind) other.1

/-- The write succeeds and stores the buffer as a new file: the allocation table changes to a chain of the
    clusters of `l`, the table of directory `p` in slot `s`, and other clusters keep their bytes. -/
structure FileStored (k : Kernel) (request : FAT32DriverRequest) (p : Nat) (s : Fin 64) (l : List Nat) (k' : Kernel) :
    Prop where
  answer : write k request = some (0, k')
  chain : k'.disk.volume.SlotChain p s l
  fat : ∀ c, c ∉ l → k'.disk.fat c = k.disk.fat c
  named : (k'.disk.table p s).Named request.name request.ext
  filesize : (k'.disk.table p s).filesize = request.bufferSize
  slots : ∀ j, j ≠ s → k'.disk.table p j = k.disk.table p j
  content : ∀ j c, l[j]? = some c → ∀ b : Fin 2048, k'.disk.cluster c b =
    if 2048 * j + b.val < request.bufferSize.toNat then request.buf (2048 * j + b.val) else 0
  frame : ∀ c, c ≠ fatClusterNumber → c ≠ p → c ∉ l → k'.disk.cluster c = k.disk.cluster c

/-- With a free slot, the name of a file that no slot in use has is taken exactly if it is zeros. -/
theorem taken_lacks_iff (sound : k.disk.Sound) (directory : k.disk.volume.Directory p)
    (file : request.bufferSize ≠ 0) (lacks : Lacks (k.disk.table p) request.name request.ext)
    (vacant : ¬ (k.disk.table p s).Live) :
    Taken (k.disk.table p) request ↔ request.name = (fun _ => 0) ∧ request.ext = fun _ => 0 := by
  have new : NewName (k.disk.table p) request := fun j live name => ⟨file, fun ext => lacks j ⟨live, name, ext⟩⟩
  rw [taken_iff_unnamed sound directory new vacant, FAT32DriverRequest.Unnamed, forall_prop_of_true file]

/-- A write takes the first free slot and the lowest free clusters. -/
theorem Written.choice (written : Written request p s e l k k') :
    l = (Fat32.freeList k.disk.fatTable).take (needed request.bufferSize) := by
  obtain ⟨rest, free⟩ := written.free
  have length : l.length = needed request.bufferSize := by
    rw [written.added.length, clusters_eq_needed, written.filesize]
  rw [free, ← length, List.take_left]

theorem Written.stored (written : Written request p s e l k k') (file : request.bufferSize ≠ 0)
    (answer : write k request = some (0, k')) : FileStored k request p s l k' := by
  have entry : k'.disk.table p s = e := written.added.table_new
  have table : k'.disk.table p = Function.update (k.disk.table p) s e := written.added.tableParent
  refine ⟨answer, ?_, written.added.fatFrame, ⟨?_, ?_, ?_⟩, ?_, ?_, ?_, written.frame⟩
  · unfold Volume.SlotChain
    rw [Disk.volume_table, entry]
    exact written.added.chain
  · rw [entry]
    exact written.added.live
  · rw [entry, written.name]
  · rw [entry, written.ext, if_neg file]
  · rw [entry, written.filesize]
  · intro j other
    rw [table, Function.update_of_ne other]
  · intro j c found b
    rw [written.content file j c found, lastCluster, clusterSize]
    by_cases within : 2048 * j + b.val < request.bufferSize.toNat
    · rw [if_pos within, if_pos (by omega)]
    · rw [if_neg within, if_neg (by omega)]

/-- On a well-formed disk with room, the write of a file under a name that no slot in use has stores exactly
    that file, on the lowest free clusters, unless name and extension are zeros. -/
theorem file_stored_iff (wellFormed : k.disk.WellFormed) (directory : k.disk.volume.Directory p)
    (parent : request.parentClusterNumber.toNat = p) (file : request.bufferSize ≠ 0)
    (lacks : Lacks (k.disk.table p) request.name request.ext) (first : FirstFree (k.disk.table p) s)
    (enough : (request.bufferSize.toNat + 2047) / 2048 < (freeList k.disk.fatTable).length) :
    (∃ k', FileStored k request p s
      ((freeList k.disk.fatTable).take ((request.bufferSize.toNat + 2047) / 2048)) k') ↔
      ¬ (request.name = (fun _ => 0) ∧ request.ext = fun _ => 0) := by
  have sound := wellFormed.sound
  have count : needed request.bufferSize = (request.bufferSize.toNat + 2047) / 2048 := by
    rw [needed, if_neg file, totalCluster_eq]
  have room : Room k.disk p request.bufferSize := ⟨⟨s, first.1⟩, by omega⟩
  rw [← count, ← taken_lacks_iff sound directory file lacks first.1]
  constructor
  · rintro ⟨k', stored⟩ taken
    have answer := stored.answer
    rw [write_refused sound directory parent room taken] at answer
    exact absurd (Prod.mk.inj (Option.some.inj answer)).1 (by decide)
  · intro new
    obtain ⟨k', s', e, l, answer, written⟩ := write_accepted sound directory parent room new
    obtain rfl := written.first.unique first
    exact ⟨k', written.choice ▸ written.stored file answer⟩

/-- The file `x.t` of one byte goes to slot 1 and cluster 3 of a new volume. -/
theorem file_stored_iff_first : ∃ k', FileStored zeroKernel fileX rootClusterNumber 1 [3] k' := by
  have free : freeList zeroKernel.disk.fatTable = 3 :: List.range' 4 508 :=
    fresh_zeroKernel.freeList.trans List.range'_succ
  have lacks : Lacks (zeroKernel.disk.table rootClusterNumber) fileX.name fileX.ext := by
    intro j named
    obtain rfl := fresh_zeroKernel.onlyRoot.live_self .root named.live
    rw [fresh_zeroKernel.root] at named
    exact absurd (congrFun named.name 0) (by decide)
  have first : FirstFree (zeroKernel.disk.table rootClusterNumber) 1 := fresh_zeroKernel.root ▸ firstFree_freshRoot
  have enough : (fileX.bufferSize.toNat + 2047) / 2048 < (freeList zeroKernel.disk.fatTable).length := by
    rw [length_freeList_zeroKernel]
    decide
  obtain ⟨k', stored⟩ := (file_stored_iff fresh_zeroKernel.regular.wellFormed .root rfl (by decide) lacks first
    enough).mpr fun zeros => absurd (congrFun zeros.1 0) (by decide)
  rw [free] at stored
  exact ⟨k', stored⟩

/-- No slot of a new root in use has that name, and it is answered with 1. -/
theorem unnamed_file_not_stored :
    zeroKernel.disk.WellFormed ∧ unnamedRequest.parentClusterNumber.toNat = rootClusterNumber ∧
      unnamedRequest.bufferSize ≠ 0 ∧
      Lacks (zeroKernel.disk.table rootClusterNumber) unnamedRequest.name unnamedRequest.ext ∧
      FirstFree (zeroKernel.disk.table rootClusterNumber) 1 ∧
      (unnamedRequest.bufferSize.toNat + 2047) / 2048 < (freeList zeroKernel.disk.fatTable).length ∧
      (∃ k', write zeroKernel unnamedRequest = some (1, k')) ∧
      ¬ ∃ k', FileStored zeroKernel unnamedRequest rootClusterNumber 1
        ((freeList zeroKernel.disk.fatTable).take ((unnamedRequest.bufferSize.toNat + 2047) / 2048)) k' := by
  have regular := fresh_zeroKernel.regular
  have parent : unnamedRequest.parentClusterNumber.toNat = rootClusterNumber := rfl
  have first : FirstFree (zeroKernel.disk.table rootClusterNumber) 1 := fresh_zeroKernel.root ▸ firstFree_freshRoot
  have taken : Taken (zeroKernel.disk.table rootClusterNumber) unnamedRequest := by
    rw [fresh_zeroKernel.root]
    exact ⟨1, rfl, fun _ => rfl⟩
  have room : Room zeroKernel.disk rootClusterNumber unnamedRequest.bufferSize := room_zeroKernel (by decide)
  have answer := write_refused regular.sound .root parent room taken
  refine ⟨regular.wellFormed, parent, by decide, ?_, first, ?_, ⟨_, answer⟩, ?_⟩
  · intro j named
    obtain rfl := fresh_zeroKernel.onlyRoot.live_self .root named.live
    rw [fresh_zeroKernel.root] at named
    exact absurd (congrFun named.name 0) (by decide)
  · rw [length_freeList_zeroKernel]
    decide
  · rintro ⟨k', stored⟩
    have answer' := stored.answer
    rw [answer] at answer'
    exact absurd (Prod.mk.inj (Option.some.inj answer')).1 (by decide)

end Brother420.Fat32
