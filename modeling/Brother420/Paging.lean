import Brother420.Library.Grants

/-! # Page frames for user programs

`paging.c`: the page directory of the kernel, and the allocation of one 4 MiB frame
after the other.  Frames are never given back.
-/

namespace Brother420.Paging

def pageFrameSize : UInt32 := 4 * 1024 * 1024

/-- struct PageDirectoryEntryFlag -/
structure PageDirectoryEntryFlag where
  presentBit : Bool
  writeBit : Bool
  userOrSupervisor : Bool
  pwt : Bool
  pcd : Bool
  accessedBit : Bool
  dirtyBit : Bool
  usePagesize4Mb : Bool
  deriving DecidableEq

/-- struct PageDirectoryEntry -/
structure PageDirectoryEntry where
  flag : PageDirectoryEntryFlag
  globalPage : BitVec 1
  ignored : BitVec 3
  pat : BitVec 1
  physAddressPaging : BitVec 4
  reserved : BitVec 5
  lowerAddress : BitVec 10
  deriving DecidableEq

/-- struct PageDirectory -/
abbrev PageDirectory := Fin 1024 → PageDirectoryEntry

/-- The page directory, struct PageDriverState, and what the processor remembers of the directory. -/
structure PagingState where
  table : PageDirectory
  lastAvailablePhysicalAddr : UInt32
  tlb : Fin 1024 → Option PageDirectoryEntry

/-! ## The initial directory -/

def clearFlag : PageDirectoryEntryFlag := ⟨false, false, false, false, false, false, false, false⟩

def clearEntry : PageDirectoryEntry := ⟨clearFlag, 0, 0, 0, 0, 0, 0⟩

/-- The entries 0 and 0x300, which both map the frame of the kernel. -/
def kernelEntry : PageDirectoryEntry :=
  { clearEntry with
    flag := { clearFlag with presentBit := true, writeBit := true, usePagesize4Mb := true }
    lowerAddress := 0 }

def pagingKernelPageDirectory : PageDirectory := fun page =>
  if page = 0 ∨ page = 0x300 then kernelEntry else clearEntry

/-- The processor remembers nothing that is not in the directory. -/
def Coherent (s : PagingState) : Prop := ∀ page entry, s.tlb page = some entry → entry = s.table page

def pageIndex (virtualAddr : UInt32) : Fin 1024 :=
  ⟨((virtualAddr >>> 22) &&& 0x3FF).toNat, by
    rw [UInt32.toNat_and]
    exact Nat.and_lt_two_pow (n := 10) _ (by decide)⟩

def flushSingleTlb (s : PagingState) (virtualAddr : UInt32) : PagingState :=
  { s with tlb := Function.update s.tlb (pageIndex virtualAddr) none }

/-- The loader clears the first entry before it calls the kernel. -/
def loaderVirtual (s : PagingState) : PagingState :=
  flushSingleTlb { s with table := Function.update s.table 0 clearEntry } 0

/-- The state at the start, in the loader or behind it, whatever pages were used before. -/
structure Initial (s : PagingState) : Prop where
  table : s.table = pagingKernelPageDirectory ∨ s.table = Function.update pagingKernelPageDirectory 0 clearEntry
  last : s.lastAvailablePhysicalAddr = 0 + pageFrameSize
  coherent : Coherent s

/-! ## Allocation -/

def updatePageDirectoryEntry (s : PagingState) (physicalAddr virtualAddr : UInt32) (flag : PageDirectoryEntryFlag) :
    PagingState :=
  let entry := { s.table (pageIndex virtualAddr) with
    flag := flag
    lowerAddress := BitVec.ofNat 10 ((physicalAddr >>> 22) &&& 0x3FF).toNat }
  flushSingleTlb { s with table := Function.update s.table (pageIndex virtualAddr) entry } virtualAddr

def allocateSingleUserPageFrame (s : PagingState) (virtualAddr : UInt32) : Int × PagingState :=
  let lastPhysicalAddr := s.lastAvailablePhysicalAddr
  let pageDirEntry : PageDirectoryEntry :=
    { clearEntry with
      flag := { clearFlag with presentBit := true, writeBit := true, userOrSupervisor := true, usePagesize4Mb := true }
      lowerAddress := BitVec.ofNat 10 ((lastPhysicalAddr >>> 22) &&& 0x3FF).toNat }
  if 32 * pageFrameSize ≤ lastPhysicalAddr then (-1, s)
  else
    let s := updatePageDirectoryEntry s lastPhysicalAddr virtualAddr pageDirEntry.flag
    (0, { s with lastAvailablePhysicalAddr := s.lastAvailablePhysicalAddr + pageFrameSize })

/-- The state after these calls. -/
def afterCalls (s : PagingState) (virtualAddrs : List UInt32) : PagingState :=
  virtualAddrs.foldl (fun s virtualAddr => (allocateSingleUserPageFrame s virtualAddr).2) s

/-! ## Translation -/

def PageDirectoryEntry.User (entry : PageDirectoryEntry) : Prop :=
  entry.flag.presentBit = true ∧ entry.flag.userOrSupervisor = true

/-- The physical address of the frame of an entry. -/
def PageDirectoryEntry.frame (entry : PageDirectoryEntry) : Nat := pageFrameSize.toNat * entry.lowerAddress.toNat

/-- The physical address that the processor uses for a virtual one. -/
def translate (s : PagingState) (virtualAddr : UInt32) : Option Nat :=
  let entry := (s.tlb (pageIndex virtualAddr)).getD (s.table (pageIndex virtualAddr))
  if entry.flag.presentBit then some (entry.frame + virtualAddr.toNat % pageFrameSize.toNat) else none

/-! ## Frames as numbers -/

/-- The allocator gives the frames 1 to 31 in order; a page owns the frame that its entry holds. -/
structure Represents (kernel : PageDirectory) (s : PagingState) (g : Grants (Fin 1024)) : Prop where
  next : s.lastAvailablePhysicalAddr.toNat = pageFrameSize.toNat * g.next
  bound : g.next ≤ 32
  coherent : Coherent s
  owned : ∀ page n, g.owned page = some n → (s.table page).User ∧ (s.table page).lowerAddress.toNat = n
  untouched : ∀ page, g.owned page = none → s.table page = kernel page
  supervisor : ∀ page, ¬ (kernel page).User

variable {kernel : PageDirectory} {s s' : PagingState} {g : Grants (Fin 1024)} {virtualAddr : UInt32}
  {virtualAddrs : List UInt32}

/-- One entry may change when the processor forgets it. -/
theorem flushSingleTlb_coherent (elsewhere : ∀ page, page ≠ pageIndex virtualAddr → s'.table page = s.table page)
    (tlb : s'.tlb = Function.update s.tlb (pageIndex virtualAddr) none) (coherent : Coherent s) : Coherent s' := by
  intro page entry cached
  rw [tlb] at cached
  by_cases here : page = pageIndex virtualAddr
  · subst here
    simp at cached
  · rw [Function.update_of_ne here] at cached
    rw [elsewhere page here]
    exact coherent page entry cached

/-- The loader leaves an initial state. -/
theorem Initial.loaderVirtual (initial : Initial s) : Initial (loaderVirtual s) where
  table := by
    right
    change Function.update s.table 0 clearEntry = _
    rcases initial.table with static | cleared
    · rw [static]
    · rw [cleared, Function.update_idem]
  last := initial.last
  coherent := by
    have elsewhere (page : Fin 1024) (other : page ≠ pageIndex 0) :
        (Paging.loaderVirtual s).table page = s.table page := Function.update_of_ne other _ _
    exact flushSingleTlb_coherent elsewhere rfl initial.coherent

theorem not_user_kernel (page : Fin 1024) : ¬ (pagingKernelPageDirectory page).User := by
  unfold pagingKernelPageDirectory
  split <;> simp [PageDirectoryEntry.User, kernelEntry, clearEntry, clearFlag]

theorem Initial.supervisor (initial : Initial s) (page : Fin 1024) : ¬ (s.table page).User := by
  rcases initial.table with static | cleared
  · rw [static]
    exact not_user_kernel page
  · rw [cleared]
    by_cases first : page = 0
    · rw [first, Function.update_self]
      simp [PageDirectoryEntry.User, clearEntry, clearFlag]
    · rw [Function.update_of_ne first]
      exact not_user_kernel page

theorem Initial.represents (initial : Initial s) : Represents s.table s (Grants.first 1) where
  next := by rw [initial.last]; rfl
  bound := by decide
  coherent := initial.coherent
  owned _ _ owned := nomatch owned
  untouched _ _ := rfl
  supervisor := initial.supervisor

/-- A call fails and changes nothing, or maps the page of the address to the next frame. -/
theorem allocate_cases (s : PagingState) (virtualAddr : UInt32) :
    (32 * pageFrameSize ≤ s.lastAvailablePhysicalAddr ∧ allocateSingleUserPageFrame s virtualAddr = (-1, s)) ∨
      (s.lastAvailablePhysicalAddr < 32 * pageFrameSize ∧ ∃ entry : PageDirectoryEntry, entry.User ∧
        entry.lowerAddress = BitVec.ofNat 10 ((s.lastAvailablePhysicalAddr >>> 22) &&& 0x3FF).toNat ∧
        allocateSingleUserPageFrame s virtualAddr = (0, {
          table := Function.update s.table (pageIndex virtualAddr) entry
          lastAvailablePhysicalAddr := s.lastAvailablePhysicalAddr + pageFrameSize
          tlb := Function.update s.tlb (pageIndex virtualAddr) none })) := by
  unfold allocateSingleUserPageFrame
  dsimp only
  split
  · rename_i all
    exact .inl ⟨all, rfl⟩
  · rename_i below
    exact .inr ⟨UInt32.not_le.mp below, _, ⟨rfl, rfl⟩, rfl, rfl⟩

theorem Represents.lt_iff (represents : Represents kernel s g) :
    s.lastAvailablePhysicalAddr < 32 * pageFrameSize ↔ g.next < 32 := by
  rw [UInt32.lt_iff_toNat_lt, represents.next]
  change 4194304 * g.next < 134217728 ↔ g.next < 32
  omega

/-- Bits 31 to 22 of the address of a frame are its number. -/
theorem Represents.lowerAddress (represents : Represents kernel s g) :
    (BitVec.ofNat 10 ((s.lastAvailablePhysicalAddr >>> 22) &&& 0x3FF).toNat).toNat = g.next := by
  have mask : ((s.lastAvailablePhysicalAddr >>> 22) &&& 0x3FF).toNat =
      s.lastAvailablePhysicalAddr.toNat / 2 ^ 22 % 2 ^ 10 := by
    rw [UInt32.toNat_and, UInt32.toNat_shiftRight]
    exact (Nat.and_two_pow_sub_one_eq_mod _ 10).trans (by rw [Nat.shiftRight_eq_div_pow]; rfl)
  have number : s.lastAvailablePhysicalAddr.toNat / 2 ^ 22 = g.next := by
    rw [represents.next]
    exact Nat.mul_div_cancel_left _ (by decide)
  have bound := represents.bound
  rw [BitVec.toNat_ofNat, mask, number]
  omega

theorem Represents.answered (represents : Represents kernel s g) :
    (allocateSingleUserPageFrame s virtualAddr).1 = 0 ↔ g.next < 32 := by
  rw [← represents.lt_iff]
  rcases allocate_cases s virtualAddr with ⟨all, answer⟩ | ⟨below, entry, _, _, answer⟩
  · rw [answer]
    simp [UInt32.not_lt.mpr all]
  · simp [answer, below]

/-- One call is one request for the page of the address. -/
theorem Represents.allocate (represents : Represents kernel s g) (virtualAddr : UInt32) :
    Represents kernel (allocateSingleUserPageFrame s virtualAddr).2 (Grants.grant 32 g (pageIndex virtualAddr)) := by
  rcases allocate_cases s virtualAddr with ⟨all, answer⟩ | ⟨below, entry, user, number, answer⟩
  · have spent : ¬ g.next < 32 := fun free => UInt32.not_lt.mpr all (represents.lt_iff.mpr free)
    rw [answer, Grants.grant_of_le (Nat.le_of_not_lt spent)]
    exact represents
  · have free := represents.lt_iff.mp below
    rw [answer]
    constructor
    · have bound : s.lastAvailablePhysicalAddr.toNat + pageFrameSize.toNat < 2 ^ 32 := by
        rw [represents.next]
        change 4194304 * g.next + 4194304 < 4294967296
        omega
      rw [Grants.grant_next_of_lt free, UInt32.toNat_add, Nat.mod_eq_of_lt bound, represents.next, Nat.mul_succ]
    · rw [Grants.grant_next_of_lt free]
      exact free
    · -- the entry that changes is the one that is flushed
      exact flushSingleTlb_coherent (fun _ other => Function.update_of_ne other _ _) rfl represents.coherent
    · intro page n owned
      rw [Grants.grant_owned_of_lt free] at owned
      by_cases here : page = pageIndex virtualAddr
      · subst here
        simp only [Function.update_self, Option.some.injEq] at owned ⊢
        rw [number, represents.lowerAddress]
        exact ⟨user, owned⟩
      · simp only [Function.update_of_ne here] at owned ⊢
        exact represents.owned page n owned
    · intro page nobody
      rw [Grants.grant_owned_of_lt free] at nobody
      by_cases here : page = pageIndex virtualAddr
      · subst here
        simp at nobody
      · simp only [Function.update_of_ne here] at nobody ⊢
        exact represents.untouched page nobody
    · exact represents.supervisor

theorem afterCalls_append {later : List UInt32} :
    afterCalls s (virtualAddrs ++ later) = afterCalls (afterCalls s virtualAddrs) later :=
  List.foldl_append

theorem Represents.afterCalls (represents : Represents kernel s g) (virtualAddrs : List UInt32) :
    Represents kernel (afterCalls s virtualAddrs) (Grants.grantAll 32 g (virtualAddrs.map pageIndex)) := by
  induction virtualAddrs generalizing s g with
  | nil => exact represents
  | cons virtualAddr virtualAddrs ih => exact ih (represents.allocate virtualAddr)

/-- The pages of user programs are those that own a frame. -/
theorem Represents.user (represents : Represents kernel s g) {page : Fin 1024} (user : (s.table page).User) :
    g.owned page = some (s.table page).lowerAddress.toNat := by
  cases owned : g.owned page with
  | none =>
    rw [represents.untouched page owned] at user
    exact absurd user (represents.supervisor page)
  | some n => rw [(represents.owned page n owned).2]

theorem Represents.translate (represents : Represents kernel s g) {n : Nat}
    (owned : g.owned (pageIndex virtualAddr) = some n) :
    translate s virtualAddr = some (pageFrameSize.toNat * n + virtualAddr.toNat % pageFrameSize.toNat) := by
  obtain ⟨user, number⟩ := represents.owned _ n owned
  have entry : (s.tlb (pageIndex virtualAddr)).getD (s.table (pageIndex virtualAddr)) =
      s.table (pageIndex virtualAddr) := by
    cases remembered : s.tlb (pageIndex virtualAddr) with
    | none => rfl
    | some entry => exact represents.coherent _ entry remembered
  simp only [Paging.translate, entry, user.1, ↓reduceIte, PageDirectoryEntry.frame, number]

/-! ## Frames are never shared -/

/-- A page that is given a frame owns it, as long as no later call gives it another. -/
theorem Represents.owned_last {s₀ : PagingState} {earlier later : List UInt32} 
    (start : Represents kernel s₀ (Grants.first 1))
    (granted : (allocateSingleUserPageFrame (Paging.afterCalls s₀ earlier) virtualAddr).1 = 0)
    (last : ∀ between other rest, later = between ++ other :: rest →
      (allocateSingleUserPageFrame (Paging.afterCalls s₀ (earlier ++ virtualAddr :: between)) other).1 = 0 →
      pageIndex other ≠ pageIndex virtualAddr) :
    (Grants.grantAll 32 (Grants.first 1) ((earlier ++ virtualAddr :: later).map pageIndex)).owned
      (pageIndex virtualAddr) = some (Grants.grantAll 32 (Grants.first 1) (earlier.map pageIndex)).next := by
  have before := start.afterCalls earlier
  have after := before.allocate virtualAddr
  have free := before.answered.mp granted
  rw [List.map_append, List.map_cons, Grants.grantAll_append, Grants.grantAll, List.foldl_cons]
  refine (Grants.grantAll_owned_kept ?_).trans ?_
  · -- a later request that is granted is a later call that succeeds
    intro between page rest split free' same
    obtain ⟨between, after', rfl, rfl, requests⟩ := List.map_eq_append_iff.mp split
    obtain ⟨other, rest, rfl, rfl, rfl⟩ := List.map_eq_cons_iff.mp requests
    refine last between other rest rfl ?_ same
    rw [afterCalls_append]
    exact (after.afterCalls between).answered.mpr free'
  · rw [Grants.grant_owned_of_lt free, Function.update_self]

/-- After any calls, 31 frames at most are given, each to one page, and a page keeps the last one it was given. -/
theorem frames_never_shared {s₀ : PagingState} (initial : Initial s₀) (virtualAddrs : List UInt32) :
    let s := afterCalls s₀ virtualAddrs
    (∀ virtualAddr, ((allocateSingleUserPageFrame s virtualAddr).1 = 0 ↔ virtualAddrs.length + 1 ≤ 31) ∧
      ((allocateSingleUserPageFrame s virtualAddr).1 ≠ 0 → allocateSingleUserPageFrame s virtualAddr = (-1, s))) ∧
    (∀ page page', (s.table page).User → (s.table page').User → (s.table page).frame = (s.table page').frame →
      page = page') ∧
    (∀ page, (s.table page).User → (s.table page).frame ≠ 0 ∧ (s.table page).frame < 128 * 1024 * 1024) ∧
    (∀ earlier virtualAddr later, virtualAddrs = earlier ++ virtualAddr :: later →
      (allocateSingleUserPageFrame (afterCalls s₀ earlier) virtualAddr).1 = 0 →
      (∀ between other rest, later = between ++ other :: rest →
        (allocateSingleUserPageFrame (afterCalls s₀ (earlier ++ virtualAddr :: between)) other).1 = 0 →
        pageIndex other ≠ pageIndex virtualAddr) →
      translate s virtualAddr = some ((afterCalls s₀ earlier).lastAvailablePhysicalAddr.toNat +
        virtualAddr.toNat % pageFrameSize.toNat)) ∧
    (∀ page, (∀ virtualAddr ∈ virtualAddrs, pageIndex virtualAddr ≠ page) → s.table page = s₀.table page) := by
  have start := initial.represents
  have represents := start.afterCalls virtualAddrs
  have distinct : Grants.Distinct 1 (Grants.grantAll 32 (Grants.first 1) (virtualAddrs.map pageIndex)) :=
    Grants.first_distinct.grantAll _
  refine ⟨fun virtualAddr => ⟨?_, ?_⟩, ?_, ?_, ?_, ?_⟩
  · rw [represents.answered, Grants.grantAll_next start.bound, List.length_map]
    change min (1 + virtualAddrs.length) 32 < 32 ↔ _
    omega
  · intro failed
    rcases allocate_cases (afterCalls s₀ virtualAddrs) virtualAddr with ⟨_, answer⟩ | ⟨_, _, _, _, answer⟩
    · exact answer
    · exact absurd (by rw [answer]) failed
  · intro page page' user user' same
    have number : ((afterCalls s₀ virtualAddrs).table page).lowerAddress.toNat =
        ((afterCalls s₀ virtualAddrs).table page').lowerAddress.toNat :=
      Nat.eq_of_mul_eq_mul_left (by decide) same
    have owned' := represents.user user'
    rw [← number] at owned'
    exact distinct.injective page page' _ (represents.user user) owned'
  · intro page user
    obtain ⟨lower, upper⟩ := distinct.given page _ (represents.user user)
    have bound := represents.bound
    have frame : ((afterCalls s₀ virtualAddrs).table page).frame =
        4194304 * ((afterCalls s₀ virtualAddrs).table page).lowerAddress.toNat := rfl
    omega
  · intro earlier virtualAddr later split granted last
    subst split
    have owned := start.owned_last granted last
    rw [represents.translate owned, (start.afterCalls earlier).next]
  · intro page absent
    apply represents.untouched
    exact Grants.grantAll_owned_of_not_mem (by simpa using absent)

/-- The paging state of a kernel that has not used any page yet. -/
def bootPaging : PagingState := ⟨pagingKernelPageDirectory, pageFrameSize, fun _ => none⟩

theorem bootPaging_initial : Initial bootPaging := ⟨.inl rfl, rfl, fun _ _ cached => nomatch cached⟩

/-- The second frame of the page at address 0 is the third that is given. -/
theorem frames_never_shared_again :
    translate (afterCalls (loaderVirtual bootPaging) [0, 0xC0400000, 16]) 16 = some 12582928 :=
  (frames_never_shared bootPaging_initial.loaderVirtual [0, 0xC0400000, 16]).2.2.2.1 [0, 0xC0400000] 16 [] rfl rfl
    (fun _ _ _ split => absurd split (by simp))

end Brother420.Paging
