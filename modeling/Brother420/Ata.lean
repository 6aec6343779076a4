import Brother420.Disk
import Brother420.Library.Folds

/-! # The disk drivers

`read_blocks` and `write_blocks` of `disk.c`, which talk to a drive through its ports, and those of
`external-inserter.c`, which copy from and to an image of the disk in memory.
-/

namespace Brother420.Ata

open Packed (Bytes)

def halfBlockSize : Nat := blockSize / 2

def ataStatusBsy : UInt8 := 0x80

def ataStatusRdy : UInt8 := 0x40

/-! ## The drive -/

inductive Direction
  | reading
  | writing

/-- A transfer that goes on: the byte of the disk where it stands, and the words that are left. -/
structure Transfer where
  direction : Direction
  position : Nat
  left : Nat

/-- The registers of a drive, what it is doing, and its blocks. -/
structure Drive where
  sectorCount : UInt8
  lbaLow : UInt8
  lbaMid : UInt8
  lbaHigh : UInt8
  driveHead : UInt8
  transfer : Option Transfer
  disk : Disk

namespace Drive

/-- The block address in the registers has 28 bits. -/
def lba (d : Drive) : Nat :=
  d.lbaLow.toNat + 2 ^ 8 * d.lbaMid.toNat + 2 ^ 16 * d.lbaHigh.toNat + 2 ^ 24 * (d.driveHead &&& 0xF).toNat

def start (d : Drive) (direction : Direction) : Drive :=
  { d with transfer := some ⟨direction, blockSize * d.lba, 256 * d.sectorCount.toNat⟩ }

/-- A byte for a port. -/
def out (d : Drive) (port : UInt16) (data : UInt8) : Drive :=
  if port = 0x1F2 then { d with sectorCount := data }
  else if port = 0x1F3 then { d with lbaLow := data }
  else if port = 0x1F4 then { d with lbaMid := data }
  else if port = 0x1F5 then { d with lbaHigh := data }
  else if port = 0x1F6 then { d with driveHead := data }
  else if port = 0x1F7 ∧ data = 0x20 then d.start .reading
  else if port = 0x1F7 ∧ data = 0x30 then d.start .writing
  else d

end Drive

/-- Little-endian, as the processor has it. -/
def wordAt (m : Memory) (a : Nat) : UInt16 := UInt16.ofNat ((m a).toNat + 256 * (m (a + 1)).toNat)

def storeWord (m : Memory) (a : Nat) (w : UInt16) : Memory :=
  Function.update (Function.update m a w.toUInt8) (a + 1) (w >>> 8).toUInt8

/-- A device at the ports, with states `δ`. -/
structure Device (δ : Type) where
  out : δ → UInt16 → UInt8 → δ
  in_ : δ → UInt16 → UInt8 × δ
  in16 : δ → UInt16 → UInt16 × δ
  out16 : δ → UInt16 → UInt16 → δ

variable {δ : Type}

/-- The state after `n` readings of the status. -/
def Device.polled (dev : Device δ) (d : δ) (n : Nat) : δ := (fun d => (dev.in_ d 0x1F7).2)^[n] d

/-- The device is an ATA drive in PIO mode, of which `view` is what matters.  It becomes ready before it has been
    asked `patience` times. -/
structure Device.Pio (dev : Device δ) (view : δ → Drive) (patience : Nat) : Prop where
  out : ∀ d port data, view (dev.out d port data) = (view d).out port data
  status : ∀ d, view (dev.in_ d 0x1F7).2 = view d
  idle : ∀ d, ∃ n < patience, (dev.in_ (dev.polled d n) 0x1F7).1 &&& ataStatusBsy = 0
  ready : ∀ d, ∃ n < patience, (dev.in_ (dev.polled d n) 0x1F7).1 &&& ataStatusRdy ≠ 0
  in16 : ∀ d position left, (view d).transfer = some ⟨.reading, position, left + 1⟩ →
    (dev.in16 d 0x1F0).1 = wordAt (view d).disk position ∧
      view (dev.in16 d 0x1F0).2 = { view d with transfer := some ⟨.reading, position + 2, left⟩ }
  out16 : ∀ d data position left, (view d).transfer = some ⟨.writing, position, left + 1⟩ →
    view (dev.out16 d 0x1F0 data) =
      { view d with
        transfer := some ⟨.writing, position + 2, left⟩
        disk := storeWord (view d).disk position data }

/-! ## The driver of the kernel -/

/-- The loops that ask for the status. -/
def wait (dev : Device δ) (again : UInt8 → Bool) : (rounds : Nat) → δ → Option δ
  | 0, _ => none
  | rounds + 1, d =>
    let (status, d) := dev.in_ d 0x1F7
    if again status then wait dev again rounds d else some d

def ataBusyWait (dev : Device δ) : (rounds : Nat) → δ → Option δ := wait dev fun status => status &&& ataStatusBsy ≠ 0

def ataDrqWait (dev : Device δ) : (rounds : Nat) → δ → Option δ := wait dev fun status => status &&& ataStatusRdy = 0

/-- The six ports that both functions write. -/
def outCommand (dev : Device δ) (d : δ) (logicalBlockAddress : UInt32) (blockCount command : UInt8) : δ :=
  let d := dev.out d 0x1F6 ((0xE0 : UInt32) ||| ((logicalBlockAddress >>> 24) &&& 0xF)).toUInt8
  let d := dev.out d 0x1F2 blockCount
  let d := dev.out d 0x1F3 logicalBlockAddress.toUInt8
  let d := dev.out d 0x1F4 (logicalBlockAddress >>> 8).toUInt8
  let d := dev.out d 0x1F5 (logicalBlockAddress >>> 16).toUInt8
  dev.out d 0x1F7 command

/-- One block of `read_blocks`: `target` counts words. -/
def readWords (dev : Device δ) (d : δ) (ptr : Memory) (target : Nat) : δ × Memory :=
  (List.range halfBlockSize).foldl
    (fun (d, ptr) j =>
      let (data, d) := dev.in16 d 0x1F0
      (d, storeWord ptr (2 * (target + j)) data)) (d, ptr)

/-- The body of the loop of `read_blocks`. -/
def readBlock (dev : Device δ) (rounds : Nat) : δ × Memory × Nat → Option (δ × Memory × Nat)
  | (d, ptr, target) => do
    let d ← ataBusyWait dev rounds d
    let d ← ataDrqWait dev rounds d
    let (d, ptr) := readWords dev d ptr target
    some (d, ptr, target + halfBlockSize)

/-- `ptr` is the memory from the pointer on.  The loops for the status are given this many rounds. -/
def readBlocks (dev : Device δ) (rounds : Nat) (d : δ) (ptr : Memory) (logicalBlockAddress : UInt32)
    (blockCount : UInt8) : Option (δ × Memory) := do
  let d ← ataBusyWait dev rounds d
  let d := outCommand dev d logicalBlockAddress blockCount 0x20
  let (d, ptr, _) ← (List.range blockCount.toNat).foldlM (fun st _ => readBlock dev rounds st) (d, ptr, 0)
  some (d, ptr)

/-- One block of `write_blocks`. -/
def writeWords (dev : Device δ) (d : δ) (ptr : Memory) (i : Nat) : δ :=
  (List.range halfBlockSize).foldl (fun d j => dev.out16 d 0x1F0 (wordAt ptr (2 * (halfBlockSize * i + j)))) d

/-- The body of the loop of `write_blocks`. -/
def writeBlock (dev : Device δ) (rounds : Nat) (ptr : Memory) (d : δ) (i : Nat) : Option δ := do
  let d ← ataBusyWait dev rounds d
  let d ← ataDrqWait dev rounds d
  some (writeWords dev d ptr i)

def writeBlocks (dev : Device δ) (rounds : Nat) (d : δ) (ptr : Memory) (logicalBlockAddress : UInt32)
    (blockCount : UInt8) : Option δ := do
  let d ← ataBusyWait dev rounds d
  let d := outCommand dev d logicalBlockAddress blockCount 0x30
  (List.range blockCount.toNat).foldlM (writeBlock dev rounds ptr) d

/-! ## The driver of the inserter -/

/-- The offset of a block in the image, which is computed with 32 bits. -/
def imageOffset (logicalBlockAddress : UInt32) (i : Nat) : Nat :=
  (UInt32.ofNat blockSize * (logicalBlockAddress + UInt32.ofNat i)).toNat

/-- `imageStorage` has `size` bytes; what lies behind them is no part of it. -/
def inserterReadBlocks (imageStorage : Memory) (size : Nat) (ptr : Memory) (logicalBlockAddress : UInt32)
    (blockCount : UInt8) : Option Memory :=
  (List.range blockCount.toNat).foldlM
    (fun ptr i =>
      if imageOffset logicalBlockAddress i + blockSize ≤ size then
        some (ptr.copy (blockSize * i) imageStorage (imageOffset logicalBlockAddress i) blockSize)
      else none) ptr

def inserterWriteBlocks (imageStorage : Memory) (size : Nat) (ptr : Memory) (logicalBlockAddress : UInt32)
    (blockCount : UInt8) : Option Memory :=
  (List.range blockCount.toNat).foldlM
    (fun imageStorage i =>
      if imageOffset logicalBlockAddress i + blockSize ≤ size then
        some (imageStorage.copy (imageOffset logicalBlockAddress i) ptr (blockSize * i) blockSize)
      else none) imageStorage

variable {dev : Device δ} {view : δ → Drive} {patience rounds position left : Nat} {d : δ} {ptr m other : Memory}
  {logicalBlockAddress : UInt32} {blockCount : UInt8} {again : UInt8 → Bool}

/-! ## Words -/

theorem low_wordAt (m : Memory) (a : Nat) : (wordAt m a).toUInt8 = m a := by
  apply UInt8.toNat_inj.mp
  have low := (m a).toNat_lt
  have high := (m (a + 1)).toNat_lt
  rw [wordAt, UInt16.toNat_toUInt8, UInt16.toNat_ofNat']
  omega

theorem high_wordAt (m : Memory) (a : Nat) : (wordAt m a >>> 8).toUInt8 = m (a + 1) := by
  apply UInt8.toNat_inj.mp
  have low := (m a).toNat_lt
  have high := (m (a + 1)).toNat_lt
  rw [wordAt, UInt16.toNat_toUInt8, UInt16.toNat_shiftRight, UInt16.toNat_ofNat', Nat.shiftRight_eq_div_pow]
  change _ / 2 ^ 8 % 2 ^ 8 = _
  omega

/-- A word that goes through a port is two bytes that are copied. -/
theorem storeWord_wordAt (a source : Nat) : storeWord m a (wordAt other source) = m.copy a other source 2 := by
  funext b
  rw [storeWord, low_wordAt, high_wordAt, Memory.copy_apply]
  by_cases second : b = a + 1
  · subst second
    rw [Function.update_self, if_pos (by omega), Nat.add_sub_cancel_left]
  · rw [Function.update_of_ne second]
    by_cases first : b = a
    · subst first
      rw [Function.update_self, if_pos (by omega), Nat.sub_self, Nat.add_zero]
    · rw [Function.update_of_ne first, if_neg (by omega)]

/-! ## Waiting and commands -/

theorem wait_ends (pio : dev.Pio view patience) (enough : patience ≤ rounds)
    (stops : ∃ n < patience, again (dev.in_ (dev.polled d n) 0x1F7).1 = false) :
    ∃ d', wait dev again rounds d = some d' ∧ view d' = view d := by
  obtain ⟨n, early, stops⟩ := stops
  have below : n < rounds := Nat.lt_of_lt_of_le early enough
  clear enough early
  induction rounds generalizing d n with
  | zero => omega
  | succ rounds ih =>
    rw [wait]
    cases first : again (dev.in_ d 0x1F7).1 with
    | false => exact ⟨_, by simp [first], pio.status d⟩
    | true =>
      cases n with
      | zero => exact absurd (first.symm.trans stops) (by decide)
      | succ n =>
        obtain ⟨d', result, same⟩ := ih (d := (dev.in_ d 0x1F7).2) n stops (Nat.lt_of_succ_lt_succ below)
        exact ⟨d', by simp [first, result], same.trans (pio.status d)⟩

theorem ataBusyWait_ends (pio : dev.Pio view patience) (enough : patience ≤ rounds) (d : δ) :
    ∃ d', ataBusyWait dev rounds d = some d' ∧ view d' = view d := by
  obtain ⟨n, early, idle⟩ := pio.idle d
  exact wait_ends pio enough ⟨n, early, by simpa using idle⟩

theorem ataDrqWait_ends (pio : dev.Pio view patience) (enough : patience ≤ rounds) (d : δ) :
    ∃ d', ataDrqWait dev rounds d = some d' ∧ view d' = view d := by
  obtain ⟨n, early, ready⟩ := pio.ready d
  exact wait_ends pio enough ⟨n, early, by simpa using ready⟩

theorem head_nibble : ∀ n : Fin 16, (((0xE0 : UInt32) ||| UInt32.ofNat n).toUInt8 &&& 0xF).toNat = n := by
  decide

/-- The registers when a command is given. -/
def Drive.selected (d : Drive) (logicalBlockAddress : UInt32) (blockCount : UInt8) : Drive :=
  { d with
    sectorCount := blockCount
    lbaLow := logicalBlockAddress.toUInt8
    lbaMid := (logicalBlockAddress >>> 8).toUInt8
    lbaHigh := (logicalBlockAddress >>> 16).toUInt8
    driveHead := ((0xE0 : UInt32) ||| ((logicalBlockAddress >>> 24) &&& 0xF)).toUInt8 }

/-- The four registers together hold 28 bits of the address. -/
theorem lba_selected (e : Drive) :
    (e.selected logicalBlockAddress blockCount).lba = logicalBlockAddress.toNat % 2 ^ 28 := by
  have nibble : ((logicalBlockAddress >>> 24) &&& 0xF).toNat = logicalBlockAddress.toNat / 2 ^ 24 % 2 ^ 4 := by
    rw [UInt32.toNat_and, UInt32.toNat_shiftRight]
    exact (Nat.and_two_pow_sub_one_eq_mod _ 4).trans (by rw [Nat.shiftRight_eq_div_pow]; rfl)
  have small : logicalBlockAddress.toNat / 2 ^ 24 % 2 ^ 4 < 16 := Nat.mod_lt _ (by decide)
  have top := head_nibble ⟨_, small⟩
  rw [show UInt32.ofNat (logicalBlockAddress.toNat / 2 ^ 24 % 2 ^ 4) = (logicalBlockAddress >>> 24) &&& 0xF by
    rw [← nibble, UInt32.ofNat_toNat]] at top
  simp only [Drive.lba, Drive.selected, top, UInt32.toNat_toUInt8, UInt32.toNat_shiftRight, Nat.shiftRight_eq_div_pow]
  change _ % 2 ^ 8 + 2 ^ 8 * (_ / 2 ^ 8 % 2 ^ 8) + 2 ^ 16 * (_ / 2 ^ 16 % 2 ^ 8) + _ = _
  omega

theorem outCommand_view (pio : dev.Pio view patience) (command : UInt8) :
    view (outCommand dev d logicalBlockAddress blockCount command) =
      ((view d).selected logicalBlockAddress blockCount).out 0x1F7 command := by
  simp only [outCommand, pio.out]
  rfl

/-- The drive is about to read the blocks from this address on. -/
theorem outCommand_reading (pio : dev.Pio view patience) :
    view (outCommand dev d logicalBlockAddress blockCount 0x20) =
      { (view d).selected logicalBlockAddress blockCount with
        transfer := some ⟨.reading, blockSize * (logicalBlockAddress.toNat % 2 ^ 28), 256 * blockCount.toNat⟩ } := by
  rw [outCommand_view pio, ← lba_selected (view d)]
  rfl

theorem outCommand_writing (pio : dev.Pio view patience) :
    view (outCommand dev d logicalBlockAddress blockCount 0x30) =
      { (view d).selected logicalBlockAddress blockCount with
        transfer := some ⟨.writing, blockSize * (logicalBlockAddress.toNat % 2 ^ 28), 256 * blockCount.toNat⟩ } := by
  rw [outCommand_view pio, ← lba_selected (view d)]
  rfl

/-! ## Blocks -/

theorem readWords_copies (pio : dev.Pio view patience) {target : Nat}
    (transfer : (view d).transfer = some ⟨.reading, position, left + 256⟩) :
    (readWords dev d ptr target).2 = ptr.copy (2 * target) (view d).disk position 512 ∧
      (view (readWords dev d ptr target).1).transfer = some ⟨.reading, position + 512, left⟩ ∧
      (view (readWords dev d ptr target).1).disk = (view d).disk := by
  obtain ⟨copied, now, same⟩ := Folds.foldl_range (n := 256) (b := (d, ptr))
    (f := fun (d, ptr) j => ((dev.in16 d 0x1F0).2, storeWord ptr (2 * (target + j)) (dev.in16 d 0x1F0).1))
    (fun j st => st.2 = ptr.copy (2 * target) (view d).disk position (2 * j) ∧
      (view st.1).transfer = some ⟨.reading, position + 2 * j, left + 256 - j⟩ ∧ (view st.1).disk = (view d).disk)
    ⟨Memory.copy_zero.symm, transfer, rfl⟩ (by
      rintro j ⟨e, ptr'⟩ below ⟨copied, now, same⟩
      rw [show left + 256 - j = left + 256 - (j + 1) + 1 by omega] at now
      obtain ⟨word, after⟩ := pio.in16 e _ _ now
      refine ⟨?_, ?_, ?_⟩
      · dsimp only at copied ⊢
        rw [word, storeWord_wordAt, copied, same, Nat.mul_add, Memory.copy_copy]
        rfl
      · rw [after]
        rfl
      · rw [after]
        exact same)
  rw [Nat.add_sub_cancel] at now
  exact ⟨copied, now, same⟩

theorem writeWords_copies (pio : dev.Pio view patience) {i : Nat}
    (transfer : (view d).transfer = some ⟨.writing, position, left + 256⟩) :
    (view (writeWords dev d ptr i)).disk = (view d).disk.copy position ptr (blockSize * i) 512 ∧
      (view (writeWords dev d ptr i)).transfer = some ⟨.writing, position + 512, left⟩ := by
  obtain ⟨copied, now⟩ := Folds.foldl_range (n := 256) (b := d)
    (f := fun d j => dev.out16 d 0x1F0 (wordAt ptr (2 * (halfBlockSize * i + j))))
    (fun j e => (view e).disk = (view d).disk.copy position ptr (blockSize * i) (2 * j) ∧
      (view e).transfer = some ⟨.writing, position + 2 * j, left + 256 - j⟩)
    ⟨Memory.copy_zero.symm, transfer⟩ (by
      rintro j e below ⟨copied, now⟩
      rw [show left + 256 - j = left + 256 - (j + 1) + 1 by omega] at now
      have address : 2 * (halfBlockSize * i + j) = blockSize * i + 2 * j := by
        change 2 * (256 * i + j) = 512 * i + 2 * j
        omega
      rw [pio.out16 e _ _ _ now]
      refine ⟨?_, rfl⟩
      change storeWord (view e).disk _ _ = _
      rw [storeWord_wordAt, copied, address, Memory.copy_copy]
      rfl)
  rw [Nat.add_sub_cancel] at now
  exact ⟨copied, now⟩

theorem readBlock_copies (pio : dev.Pio view patience) (enough : patience ≤ rounds) {target : Nat}
    (transfer : (view d).transfer = some ⟨.reading, position, left + 256⟩) :
    ∃ d', readBlock dev rounds (d, ptr, target) =
        some (d', ptr.copy (2 * target) (view d).disk position blockSize, target + halfBlockSize) ∧
      (view d').transfer = some ⟨.reading, position + blockSize, left⟩ ∧ (view d').disk = (view d).disk := by
  obtain ⟨d₁, idle, view₁⟩ := ataBusyWait_ends pio enough d
  obtain ⟨d₂, ready, view₂⟩ := ataDrqWait_ends pio enough d₁
  rw [view₁] at view₂
  rw [← view₂] at transfer ⊢
  obtain ⟨copied, now, same⟩ : (readWords dev d₂ ptr target).2 = _ ∧ _ := readWords_copies pio transfer
  refine ⟨(readWords dev d₂ ptr target).1, ?_, now, same⟩
  simp only [readBlock, idle, ready, Option.bind_eq_bind, Option.bind_some, copied]
  rfl

theorem writeBlock_copies (pio : dev.Pio view patience) (enough : patience ≤ rounds) {i : Nat}
    (transfer : (view d).transfer = some ⟨.writing, position, left + 256⟩) :
    ∃ d', writeBlock dev rounds ptr d i = some d' ∧
      (view d').disk = (view d).disk.copy position ptr (blockSize * i) blockSize ∧
      (view d').transfer = some ⟨.writing, position + blockSize, left⟩ := by
  obtain ⟨d₁, idle, view₁⟩ := ataBusyWait_ends pio enough d
  obtain ⟨d₂, ready, view₂⟩ := ataDrqWait_ends pio enough d₁
  rw [view₁] at view₂
  rw [← view₂] at transfer ⊢
  refine ⟨writeWords dev d₂ ptr i, ?_, writeWords_copies pio transfer⟩
  simp only [writeBlock, idle, ready, Option.bind_eq_bind, Option.bind_some]

/-! ## All blocks -/

/-- The drive is behind `i` blocks of a transfer of `count` blocks from block `lba` on. -/
def Halfway (direction : Direction) (lba count i : Nat) (d : Drive) : Prop :=
  d.transfer = some ⟨direction, blockSize * lba + blockSize * i, 256 * count - 256 * i⟩

theorem Halfway.next {direction : Direction} {lba count i : Nat} {d : Drive}
    (halfway : Halfway direction lba count i d) (below : i < count) :
    d.transfer = some ⟨direction, blockSize * lba + blockSize * i, 256 * count - 256 * (i + 1) + 256⟩ := by
  rw [halfway, show 256 * count - 256 * i = 256 * count - 256 * (i + 1) + 256 by omega]

theorem Halfway.step {direction : Direction} {lba count i : Nat} {d : Drive}
    (after : d.transfer = some ⟨direction, blockSize * lba + blockSize * i + blockSize, 256 * count - 256 * (i + 1)⟩) :
    Halfway direction lba count (i + 1) d := by
  rw [Halfway, after, Nat.mul_succ blockSize i, Nat.add_assoc]

/-- The kernel reads all the blocks as one copy would. -/
theorem readBlocks_copies (pio : dev.Pio view patience) (enough : patience ≤ rounds) (d : δ) (ptr : Memory)
    (logicalBlockAddress : UInt32) (blockCount : UInt8) :
    ∃ d', readBlocks dev rounds d ptr logicalBlockAddress blockCount =
        some (d', ptr.copy 0 (view d).disk (blockSize * (logicalBlockAddress.toNat % 2 ^ 28))
          (blockSize * blockCount.toNat)) ∧ (view d').disk = (view d).disk := by
  obtain ⟨d₁, idle, view₁⟩ := ataBusyWait_ends pio enough d
  have command : view (outCommand dev d₁ logicalBlockAddress blockCount 0x20) = _ := outCommand_reading pio
  rw [view₁] at command
  let Inv : Nat → δ × Memory × Nat → Prop := fun i (d', ptr', target) =>
    ptr' = ptr.copy 0 (view d).disk (blockSize * (logicalBlockAddress.toNat % 2 ^ 28)) (blockSize * i) ∧
      target = halfBlockSize * i ∧ (view d').disk = (view d).disk ∧
      Halfway .reading (logicalBlockAddress.toNat % 2 ^ 28) blockCount.toNat i (view d')
  obtain ⟨⟨d', ptr', target⟩, loop, copied, _, same, _⟩ := Folds.foldlM_range (n := blockCount.toNat)
    (b := (outCommand dev d₁ logicalBlockAddress blockCount 0x20, ptr, 0))
    (f := fun st _ => readBlock dev rounds st) Inv
    ⟨Memory.copy_zero.symm, rfl, by rw [command]; rfl, by simp [Halfway, command]⟩ (by
      rintro i ⟨e, ptr', target⟩ below ⟨copied, place, same, halfway⟩
      obtain ⟨e', block, after, same'⟩ : ∃ e', readBlock dev rounds (e, ptr', target) = _ ∧ _ :=
        readBlock_copies pio enough (halfway.next below)
      have address : 2 * target = 0 + blockSize * i := by
        rw [place]
        change 2 * (256 * i) = 0 + 512 * i
        omega
      refine ⟨_, block, ?_, by rw [place, Nat.mul_succ], same'.trans same, .step after⟩
      rw [copied, same, address, Memory.copy_copy, Nat.mul_succ])
  subst copied
  refine ⟨d', ?_, same⟩
  simp only [readBlocks, idle, Option.bind_eq_bind, Option.bind_some, loop]

theorem writeBlocks_copies (pio : dev.Pio view patience) (enough : patience ≤ rounds) (d : δ) (ptr : Memory)
    (logicalBlockAddress : UInt32) (blockCount : UInt8) :
    ∃ d', writeBlocks dev rounds d ptr logicalBlockAddress blockCount = some d' ∧
      (view d').disk = (view d).disk.copy (blockSize * (logicalBlockAddress.toNat % 2 ^ 28)) ptr 0
        (blockSize * blockCount.toNat) := by
  obtain ⟨d₁, idle, view₁⟩ := ataBusyWait_ends pio enough d
  have command : view (outCommand dev d₁ logicalBlockAddress blockCount 0x30) = _ := outCommand_writing pio
  rw [view₁] at command
  let Inv : Nat → δ → Prop := fun i d' =>
    (view d').disk = (view d).disk.copy (blockSize * (logicalBlockAddress.toNat % 2 ^ 28)) ptr 0 (blockSize * i) ∧
      Halfway .writing (logicalBlockAddress.toNat % 2 ^ 28) blockCount.toNat i (view d')
  obtain ⟨d', loop, copied, _⟩ := Folds.foldlM_range (n := blockCount.toNat)
    (b := outCommand dev d₁ logicalBlockAddress blockCount 0x30) (f := writeBlock dev rounds ptr) Inv
    ⟨by rw [command]; exact Memory.copy_zero.symm, by simp [Halfway, command]⟩ (by
      rintro i e below ⟨copied, halfway⟩
      obtain ⟨e', block, after, now⟩ : ∃ e', writeBlock dev rounds ptr e i = _ ∧ _ :=
        writeBlock_copies pio enough (halfway.next below)
      refine ⟨e', block, ?_, .step now⟩
      rw [after, copied, Nat.mul_succ, ← Memory.copy_copy, Nat.zero_add])
  refine ⟨d', ?_, copied⟩
  simp only [writeBlocks, idle, Option.bind_eq_bind, Option.bind_some, loop]

/-- What the file system takes for reading and writing is what the driver does. -/
theorem readBlocks_disk (pio : dev.Pio view patience) (enough : patience ≤ rounds) (d : δ) (ptr : Memory)
    (logicalBlockAddress : UInt32) (blockCount : UInt8) :
    ∃ d', readBlocks dev rounds d ptr logicalBlockAddress blockCount =
        some (d', ptr.store 0 ((view d).disk.readBlocks logicalBlockAddress.toNat blockCount.toNat)) ∧
      (view d').disk = (view d).disk :=
  readBlocks_copies pio enough d ptr logicalBlockAddress blockCount

theorem writeBlocks_disk (pio : dev.Pio view patience) (enough : patience ≤ rounds) (d : δ) (ptr : Memory)
    (logicalBlockAddress : UInt32) (blockCount : UInt8) :
    ∃ d', writeBlocks dev rounds d ptr logicalBlockAddress blockCount = some d' ∧
      (view d').disk =
        (view d).disk.writeBlocks (ptr.bytes 0 (blockSize * blockCount.toNat)) logicalBlockAddress.toNat :=
  writeBlocks_copies pio enough d ptr logicalBlockAddress blockCount

/-! ## The inserter -/

theorem imageOffset_eq {i : Nat} (fits : logicalBlockAddress.toNat + i < 2 ^ 23) :
    imageOffset logicalBlockAddress i = blockSize * (logicalBlockAddress.toNat + i) := by
  rw [imageOffset, UInt32.toNat_mul, UInt32.toNat_add, UInt32.toNat_ofNat', UInt32.toNat_ofNat']
  change 512 % 2 ^ 32 * ((_ + i % 2 ^ 32) % 2 ^ 32) % 2 ^ 32 = 512 * _
  omega

/-- A block of the image that the inserter may use. -/
theorem imageOffset_inside {size i count : Nat} (below : i < count) (fits : logicalBlockAddress.toNat + count ≤ 2 ^ 23)
    (inside : blockSize * (logicalBlockAddress.toNat + count) ≤ size) :
    imageOffset logicalBlockAddress i = blockSize * logicalBlockAddress.toNat + blockSize * i ∧
      imageOffset logicalBlockAddress i + blockSize ≤ size := by
  have place : imageOffset logicalBlockAddress i = blockSize * (logicalBlockAddress.toNat + i) :=
    imageOffset_eq (by omega)
  refine ⟨by rw [place, Nat.mul_add], ?_⟩
  rw [place, ← Nat.mul_succ]
  exact Nat.le_trans (Nat.mul_le_mul_left _ (by omega)) inside

theorem inserterReadBlocks_copies {size : Nat} (image ptr : Memory)
    (fits : logicalBlockAddress.toNat + blockCount.toNat ≤ 2 ^ 23)
    (inside : blockSize * (logicalBlockAddress.toNat + blockCount.toNat) ≤ size) :
    inserterReadBlocks image size ptr logicalBlockAddress blockCount =
      some (ptr.copy 0 image (blockSize * logicalBlockAddress.toNat) (blockSize * blockCount.toNat)) := by
  obtain ⟨ptr', loop, copied⟩ := Folds.foldlM_range (n := blockCount.toNat) (b := ptr)
    (f := fun ptr i =>
      if imageOffset logicalBlockAddress i + blockSize ≤ size then
        some (ptr.copy (blockSize * i) image (imageOffset logicalBlockAddress i) blockSize)
      else none)
    (fun i ptr' => ptr' = ptr.copy 0 image (blockSize * logicalBlockAddress.toNat) (blockSize * i))
    Memory.copy_zero.symm (by
      rintro i _ below rfl
      obtain ⟨place, room⟩ := imageOffset_inside below fits inside
      refine ⟨_, if_pos room, ?_⟩
      have joined := @Memory.copy_copy (blockSize * i) blockSize ptr 0 (blockSize * logicalBlockAddress.toNat) image
      rwa [Nat.zero_add, ← place, ← Nat.mul_succ] at joined)
  rw [inserterReadBlocks, loop, copied]

theorem inserterWriteBlocks_copies {size : Nat} (image ptr : Memory)
    (fits : logicalBlockAddress.toNat + blockCount.toNat ≤ 2 ^ 23)
    (inside : blockSize * (logicalBlockAddress.toNat + blockCount.toNat) ≤ size) :
    inserterWriteBlocks image size ptr logicalBlockAddress blockCount =
      some (image.copy (blockSize * logicalBlockAddress.toNat) ptr 0 (blockSize * blockCount.toNat)) := by
  obtain ⟨image', loop, copied⟩ := Folds.foldlM_range (n := blockCount.toNat) (b := image)
    (f := fun image i =>
      if imageOffset logicalBlockAddress i + blockSize ≤ size then
        some (image.copy (imageOffset logicalBlockAddress i) ptr (blockSize * i) blockSize)
      else none)
    (fun i image' => image' = image.copy (blockSize * logicalBlockAddress.toNat) ptr 0 (blockSize * i))
    Memory.copy_zero.symm (by
      rintro i _ below rfl
      obtain ⟨place, room⟩ := imageOffset_inside below fits inside
      refine ⟨_, if_pos room, ?_⟩
      have joined := @Memory.copy_copy (blockSize * i) blockSize image (blockSize * logicalBlockAddress.toNat) 0 ptr
      rwa [Nat.zero_add, ← place, ← Nat.mul_succ] at joined)
  rw [inserterWriteBlocks, loop, copied]

/-! ## The two drivers -/

/-- Where the inserter's offset has room in 32 bits and its image holds the blocks, the two drivers do the same, and
    what was written is read back. -/
theorem drivers_agree (pio : dev.Pio view patience) (enough : patience ≤ rounds) (d : δ) (ptr : Memory)
    (logicalBlockAddress : UInt32) (blockCount : UInt8) {size : Nat}
    (fits : logicalBlockAddress.toNat + blockCount.toNat ≤ 2 ^ 23)
    (inside : blockSize * (logicalBlockAddress.toNat + blockCount.toNat) ≤ size) :
    (∃ d' ptr', readBlocks dev rounds d ptr logicalBlockAddress blockCount = some (d', ptr') ∧
      (view d').disk = (view d).disk ∧
      inserterReadBlocks (view d).disk size ptr logicalBlockAddress blockCount = some ptr') ∧
    ∃ d', writeBlocks dev rounds d ptr logicalBlockAddress blockCount = some d' ∧
      inserterWriteBlocks (view d).disk size ptr logicalBlockAddress blockCount = some (view d').disk ∧
      (∀ other, ∃ d'' back, readBlocks dev rounds d' other logicalBlockAddress blockCount = some (d'', back) ∧
        (∀ a, a < blockSize * blockCount.toNat → back a = ptr a) ∧
        ∀ a, blockSize * blockCount.toNat ≤ a → back a = other a) ∧
      ∀ block, block < logicalBlockAddress.toNat ∨ logicalBlockAddress.toNat + blockCount.toNat ≤ block →
        (view d').disk.bytes (blockSize * block) blockSize = (view d).disk.bytes (blockSize * block) blockSize := by
  have address : logicalBlockAddress.toNat % 2 ^ 28 = logicalBlockAddress.toNat := Nat.mod_eq_of_lt (by
    have := blockCount.toNat_lt
    omega)
  obtain ⟨d₁, read, same⟩ := readBlocks_copies pio enough d ptr logicalBlockAddress blockCount
  obtain ⟨d₂, write, disk⟩ := writeBlocks_copies pio enough d ptr logicalBlockAddress blockCount
  rw [address] at read disk
  refine ⟨⟨d₁, _, read, same, inserterReadBlocks_copies _ _ fits inside⟩, d₂, write, ?_, ?_, ?_⟩
  · rw [disk]
    exact inserterWriteBlocks_copies _ _ fits inside
  · intro other
    obtain ⟨d₃, back, _⟩ := readBlocks_copies pio enough d₂ other logicalBlockAddress blockCount
    refine ⟨d₃, _, back, fun a below => ?_, fun a above => ?_⟩
    · rw [Memory.copy_apply, if_pos (by omega), disk, address, Memory.copy_apply, if_pos (by omega)]
      congr 1
      omega
    · rw [Memory.copy_apply, if_neg (by omega)]
  · intro block apart
    rw [disk, Memory.copy]
    apply Memory.bytes_store_apart
    change 512 * block + 512 ≤ 512 * _ ∨ 512 * _ + 512 * _ ≤ 512 * block
    omega

/-! ## A drive that is always ready -/

def promptDrive : Device Drive where
  out := Drive.out
  in_ d _ := (ataStatusRdy, d)
  in16 d _ :=
    match d.transfer with
    | some ⟨.reading, position, left + 1⟩ =>
      (wordAt d.disk position, { d with transfer := some ⟨.reading, position + 2, left⟩ })
    | _ => (0, d)
  out16 d _ data :=
    match d.transfer with
    | some ⟨.writing, position, left + 1⟩ =>
      { d with transfer := some ⟨.writing, position + 2, left⟩, disk := storeWord d.disk position data }
    | _ => d

theorem promptDrive_pio : promptDrive.Pio id 1 where
  out _ _ _ := rfl
  status _ := rfl
  idle _ := ⟨0, Nat.zero_lt_one, show ataStatusRdy &&& ataStatusBsy = 0 by decide⟩
  ready _ := ⟨0, Nat.zero_lt_one, show ataStatusRdy &&& ataStatusRdy ≠ 0 by decide⟩
  in16 d position left transfer := by
    have now : d.transfer = some ⟨.reading, position, left + 1⟩ := transfer
    simp [promptDrive, now]
  out16 d data position left transfer := by
    have now : d.transfer = some ⟨.writing, position, left + 1⟩ := transfer
    simp [promptDrive, now]

/-- A drive whose blocks hold zeros up to the first 4 GiB, and ones behind them. -/
def largeDrive : Drive := ⟨0, 0, 0, 0, 0, none, fun a => if a < 2 ^ 32 then 0 else 1⟩

theorem drivers_agree_last : ∃ d' ptr', readBlocks promptDrive 1 largeDrive (fun _ => 7) 8191 1 = some (d', ptr') ∧
    d'.disk = largeDrive.disk ∧
    inserterReadBlocks largeDrive.disk (4 * 1024 * 1024) (fun _ => 7) 8191 1 = some ptr' :=
  (drivers_agree promptDrive_pio (Nat.le_refl 1) largeDrive (fun _ => 7) 8191 1 (by decide) (by decide)).1

/-- The byte offset of block 2^23 does not fit in 32 bits: the inserter reads block 0. -/
theorem drivers_differ : (8388608 : UInt32).toNat + (1 : UInt8).toNat ≤ 2 ^ 28 ∧
    ∃ d' ptr' ptr'', readBlocks promptDrive 1 largeDrive (fun _ => 7) 8388608 1 = some (d', ptr') ∧
      inserterReadBlocks largeDrive.disk (2 ^ 33) (fun _ => 7) 8388608 1 = some ptr'' ∧ ptr' ≠ ptr'' := by
  have offset : imageOffset 8388608 0 = 0 := by decide
  have room : imageOffset 8388608 0 + blockSize ≤ 2 ^ 33 := by decide
  obtain ⟨d', read, _⟩ := readBlocks_copies promptDrive_pio (Nat.le_refl 1) largeDrive (fun _ => 7) 8388608 1
  have wrapped : inserterReadBlocks largeDrive.disk (2 ^ 33) (fun _ => 7) 8388608 1 =
      some (Memory.copy (fun _ => 7) (blockSize * 0) largeDrive.disk (imageOffset 8388608 0) blockSize) := by
    rw [inserterReadBlocks, show List.range (UInt8.toNat 1) = [0] from rfl, List.foldlM_cons, if_pos room]
    rfl
  refine ⟨by decide, d', _, _, read, wrapped, fun same => ?_⟩
  have first := congrFun same 0
  simp [Memory.copy_apply, offset, largeDrive, blockSize] at first

end Brother420.Ata
