import Brother420.Library.Folds
import Brother420.Library.Ia32

/-! # The descriptor tables -/

namespace Brother420.Interrupts

open Ia32 (Word Selector Segment Gate Tables)

def gdtKernelCodeSegmentSelector : Selector := 0x8

def gdtKernelDataSegmentSelector : Selector := 0x10

def gdtUserCodeSegmentSelector : Selector := 0x18

def gdtUserDataSegmentSelector : Selector := 0x20

def gdtTssSelector : Selector := 0x28

/-! ## The global descriptor table -/

structure SegmentDescriptor where
  segmentLow : BitVec 16
  baseLow : BitVec 16
  baseMid : BitVec 8
  typeBit : BitVec 4
  nonSystem : BitVec 1
  dpl : BitVec 2
  p : BitVec 1
  segmentLimit : BitVec 4
  avl : BitVec 1
  l : BitVec 1
  dB : BitVec 1
  g : BitVec 1
  baseHigh : BitVec 8

/-- The packed bit fields, the first member in the lowest bits. -/
def SegmentDescriptor.packed (d : SegmentDescriptor) : BitVec 64 :=
  d.baseHigh ++ d.g ++ d.dB ++ d.l ++ d.avl ++ d.segmentLimit ++ d.p ++ d.dpl ++ d.nonSystem ++ d.typeBit ++ d.baseMid
    ++ d.baseLow ++ d.segmentLow

def nullDescriptor : SegmentDescriptor := ⟨0, 0, 0, 0, 0, 0, 0, 0, 0, 0, 0, 0, 0⟩

/-- The four descriptors of code and data, which cover the whole memory. -/
def flatDescriptor (typeBit : BitVec 4) (dpl : BitVec 2) : SegmentDescriptor where
  segmentLow := 0xFFFF
  baseLow := 0
  baseMid := 0
  typeBit
  nonSystem := 1
  dpl
  p := 1
  segmentLimit := 0xF
  avl := 0
  l := 0
  dB := 1
  g := 1
  baseHigh := 0

/-- `sizeof(struct TSSEntry)` -/
def tssEntrySize : Word := 104

def tssDescriptor : SegmentDescriptor where
  segmentLow := tssEntrySize.setWidth 16
  baseLow := 0
  baseMid := 0
  typeBit := 0x9
  nonSystem := 0
  dpl := 0
  p := 1
  segmentLimit := ((tssEntrySize &&& (0xF : Word) <<< 16) >>> 16).setWidth 4
  avl := 0
  l := 0
  dB := 1
  g := 0
  baseHigh := 0

abbrev GlobalDescriptorTable := Fin 32 → SegmentDescriptor

def globalDescriptorTable : GlobalDescriptorTable := fun i =>
  match i.val with
  | 1 => flatDescriptor 0xA 0
  | 2 => flatDescriptor 0x2 0
  | 3 => flatDescriptor 0xA 3
  | 4 => flatDescriptor 0x2 3
  | 5 => tssDescriptor
  | _ => nullDescriptor

/-- `base` is the address of `_interrupt_tss_entry`. -/
def gdtInstallTss (table : GlobalDescriptorTable) (base : Word) : GlobalDescriptorTable :=
  Function.update table ⟨5, by decide⟩
    { table ⟨5, by decide⟩ with
      baseHigh := ((base &&& (0xFF : Word) <<< 24) >>> 24).setWidth 8
      baseMid := ((base &&& (0xFF : Word) <<< 16) >>> 16).setWidth 8
      baseLow := (base &&& 0xFFFF).setWidth 16 }

/-! ## The interrupt descriptor table -/

structure IDTGate where
  offsetLow : BitVec 16
  segment : Selector
  reserved : BitVec 5
  rBit1 : BitVec 3
  rBit2 : BitVec 3
  gate32 : BitVec 1
  rBit3 : BitVec 1
  dpl : BitVec 2
  valid : BitVec 1
  offsetHigh : BitVec 16

/-- The packed bit fields, the first member in the lowest bits. -/
def IDTGate.packed (d : IDTGate) : BitVec 64 :=
  d.offsetHigh ++ d.valid ++ d.dpl ++ d.rBit3 ++ d.gate32 ++ d.rBit2 ++ d.rBit1 ++ d.reserved ++ d.segment
    ++ d.offsetLow

abbrev InterruptDescriptorTable := Fin 256 → IDTGate

/-- The table before `initialize_idt`, among the data that is zero. -/
def emptyIdt : InterruptDescriptorTable := fun _ => ⟨0, 0, 0, 0, 0, 0, 0, 0, 0, 0⟩

/-- Every member of the gate is stored. -/
def setInterruptGate (table : InterruptDescriptorTable) (intVector : Fin 256) (handlerAddress : Word)
    (gdtSegSelector : Selector) (privilege : BitVec 8) : InterruptDescriptorTable :=
  Function.update table intVector {
    dpl := privilege.setWidth 2
    offsetLow := handlerAddress.setWidth 16
    offsetHigh := (handlerAddress >>> 16).setWidth 16
    segment := gdtSegSelector
    reserved := 0
    rBit1 := 0b000
    rBit2 := 0b110
    rBit3 := 0b0
    gate32 := 1
    valid := 1 }

/-- The privilege that `initialize_idt` gives a vector. -/
def vectorPrivilege (i : Nat) : BitVec 8 := if i ≥ 0x30 ∧ i ≤ 0x3F then 0x3 else 0x0

/-- `stubs` is `isr_stub_table`. -/
def initializeIdt (table : InterruptDescriptorTable) (stubs : Fin 64 → Word) : InterruptDescriptorTable :=
  (List.finRange 64).foldl (fun table i =>
    setInterruptGate table (i.castLE (by decide)) (stubs i) gdtKernelCodeSegmentSelector (vectorPrivilege i)) table

/-- What the processor is pointed to, with `ltr` executed on the selector of the task. -/
def tables (base : Word) (stubs : Fin 64 → Word) : Tables :=
  let gdt := List.ofFn fun i => (gdtInstallTss globalDescriptorTable base i).packed
  let idt := List.ofFn fun i => (initializeIdt emptyIdt stubs i).packed
  let task := ((Tables.segment ⟨gdt, idt, 0⟩ gdtTssSelector).map Segment.base).getD 0
  ⟨gdt, idt, task⟩

variable {base : Word} {stubs : Fin 64 → Word}

/-! ## What the processor finds in them -/

theorem gate_ofBits (d : IDTGate) :
    Gate.ofBits d.packed =
      ⟨d.offsetHigh ++ d.offsetLow, d.segment, d.rBit2, d.gate32, d.rBit3, d.dpl, d.valid⟩ := by
  unfold Gate.ofBits IDTGate.packed
  simp (disch := decide) only [BitVec.extractLsb'_append_eq_of_le, BitVec.extractLsb'_append_eq_of_add_le]
  simp

theorem segment_ofBits (d : SegmentDescriptor) :
    Segment.ofBits d.packed =
      ⟨d.baseHigh ++ d.baseMid ++ d.baseLow, d.segmentLimit ++ d.segmentLow, d.typeBit, d.nonSystem, d.dpl, d.p⟩ := by
  unfold Segment.ofBits SegmentDescriptor.packed
  simp (disch := decide) only [BitVec.extractLsb'_append_eq_of_le, BitVec.extractLsb'_append_eq_of_add_le]
  simp

/-- The loop stores one gate for each stub. -/
theorem initializeIdt_apply (table : InterruptDescriptorTable) (i : Fin 64) :
    initializeIdt table stubs (i.castLE (by decide)) =
      setInterruptGate table (i.castLE (by decide)) (stubs i) gdtKernelCodeSegmentSelector (vectorPrivilege i)
        (i.castLE (by decide)) := by
  rw [initializeIdt, setInterruptGate, Function.update_self]
  exact Folds.foldl_update_at (fun x y same => Fin.ext (congrArg (fun v : Fin 256 => v.val) same))
    (List.nodup_finRange 64) (List.mem_finRange i)

theorem initializeIdt_behind (table : InterruptDescriptorTable) {v : Fin 256} (behind : 64 ≤ v.val) :
    initializeIdt table stubs v = table v := by
  refine Folds.foldl_update_other fun i _ same => ?_
  have inside : v.val = i.val := congrArg Fin.val same.symm
  omega

theorem halves (a : Word) : (a >>> 16).setWidth 16 ++ a.setWidth 16 = a := by
  ext i small
  simp only [BitVec.getElem_append, BitVec.getElem_setWidth, BitVec.getLsbD_ushiftRight]
  split
  · exact BitVec.getLsbD_eq_getElem small
  · rw [show 16 + (i - 16) = i by omega]
    exact BitVec.getLsbD_eq_getElem small

theorem masked {k w : Nat} (a mask : Word) (ones : ∀ j : Fin w, mask.getLsbD (k + j) = true) :
    ((a &&& mask) >>> k).setWidth w = a.extractLsb' k w := by
  ext i small
  have one : mask.getLsbD (k + i) = true := ones ⟨i, small⟩
  simp only [BitVec.getElem_setWidth, BitVec.getLsbD_ushiftRight, BitVec.getLsbD_and, BitVec.getElem_extractLsb', one,
    Bool.and_true]

/-- The three fields of the base, as `gdt_install_tss` splits it. -/
theorem installed_base (a : Word) :
    ((a &&& (0xFF : Word) <<< 24) >>> 24).setWidth 8 ++ ((a &&& (0xFF : Word) <<< 16) >>> 16).setWidth 8 ++
      (a &&& 0xFFFF).setWidth 16 = a := by
  have low := masked (k := 0) (w := 16) a 0xFFFF (by decide)
  rw [BitVec.ushiftRight_zero] at low
  rw [masked a _ (by decide), masked a _ (by decide), low,
    BitVec.extractLsb'_append_extractLsb'_eq_extractLsb' (show 24 = 16 + 8 from rfl),
    BitVec.extractLsb'_append_extractLsb'_eq_extractLsb' (show 16 = 0 + 16 from rfl)]
  exact BitVec.extractLsb'_eq_self

theorem segment_eq {s : Selector} {i : Fin 32} (global : s.getLsbD 2 = false) (index : s.toNat / 8 = i)
    (notNull : i.val ≠ 0) :
    (tables base stubs).segment s = some (Segment.ofBits (gdtInstallTss globalDescriptorTable base i).packed) := by
  have entry : (tables base stubs).gdt[i.val]? = some (gdtInstallTss globalDescriptorTable base i).packed := by
    rw [tables, List.getElem?_ofFn, dif_pos i.isLt]
  have valid : ¬ (s.getLsbD 2 = true ∨ i.val = 0) := by rw [global]; simpa using notNull
  rw [Tables.segment, index, if_neg valid, entry]
  rfl

theorem flat_ofBits {type : BitVec 4} {dpl : BitVec 2} :
    Segment.ofBits (flatDescriptor type dpl).packed = ⟨0, 0xFFFFF, type, 1, dpl, 1⟩ := by
  have base : (0 : BitVec 8) ++ (0 : BitVec 8) ++ (0 : BitVec 16) = (0 : Word) := by decide
  have limit : (0xF : BitVec 4) ++ (0xFFFF : BitVec 16) = (0xFFFFF : BitVec 20) := by decide
  rw [segment_ofBits]
  unfold flatDescriptor
  rw [base, limit]

/-- The segments of code and data cover the whole memory. -/
theorem segment_flat {s : Selector} {i : Fin 32} {type : BitVec 4} {dpl : BitVec 2} (global : s.getLsbD 2 = false)
    (index : s.toNat / 8 = i) (notNull : i.val ≠ 0) (other : i.val ≠ 5)
    (flat : globalDescriptorTable i = flatDescriptor type dpl) :
    (tables base stubs).segment s = some ⟨0, 0xFFFFF, type, 1, dpl, 1⟩ := by
  have kept : gdtInstallTss globalDescriptorTable base i = globalDescriptorTable i := by
    rw [gdtInstallTss, Function.update_of_ne (Fin.ne_of_val_ne other)]
  rw [segment_eq global index notNull, kept, flat, flat_ofBits]

theorem task_eq : (tables base stubs).task = base := by
  have found : (tables base stubs).segment gdtTssSelector =
      some (Segment.ofBits (gdtInstallTss globalDescriptorTable base 5).packed) := segment_eq rfl rfl (by decide)
  have same : (tables base stubs).task =
      (((tables base stubs).segment gdtTssSelector).map Segment.base).getD 0 := rfl
  rw [same, found, segment_ofBits]
  exact installed_base base

/-- The selectors of the two privilege levels of the kernel and of user programs. -/
inductive Level
  | kernel
  | user

namespace Level

def number : Level → Nat
  | kernel => 0
  | user => 3

def code : Level → Selector
  | kernel => gdtKernelCodeSegmentSelector
  | user => gdtUserCodeSegmentSelector ||| 3

def stack : Level → Selector
  | kernel => gdtKernelDataSegmentSelector
  | user => gdtUserDataSegmentSelector ||| 3

variable (p : Level)

theorem privilege_code : Ia32.privilege p.code = p.number := by cases p <;> rfl

theorem codeLevel_code : (tables base stubs).codeLevel p.code = some p.number := by
  cases p with
  | kernel =>
    have found : (tables base stubs).segment kernel.code = some ⟨0, 0xFFFFF, 0xA, 1, 0, 1⟩ :=
      segment_flat (i := 1) rfl rfl (by decide) (by decide) rfl
    rw [Tables.codeLevel, found]
    rfl
  | user =>
    have found : (tables base stubs).segment user.code = some ⟨0, 0xFFFFF, 0xA, 1, 3, 1⟩ :=
      segment_flat (i := 3) rfl rfl (by decide) (by decide) rfl
    rw [Tables.codeLevel, found]
    rfl

theorem stackFor_stack : (tables base stubs).StackFor p.stack p.number := by
  cases p with
  | kernel =>
    exact ⟨_, segment_flat (i := 2) rfl rfl (by decide) (by decide) rfl, by decide, rfl, rfl⟩
  | user =>
    exact ⟨_, segment_flat (i := 4) rfl rfl (by decide) (by decide) rfl, by decide, rfl, rfl⟩

end Level

/-- The gate to a stub. -/
def stubGate (stubs : Fin 64 → Word) (i : Fin 64) : Gate :=
  ⟨stubs i, gdtKernelCodeSegmentSelector, 0b110, 1, 0, (vectorPrivilege i).setWidth 2, 1⟩

theorem gate_inside (i : Fin 64) : ((tables base stubs).idt[i.val]?).map Gate.ofBits = some (stubGate stubs i) := by
  have entry : (tables base stubs).idt[i.val]? =
      some (initializeIdt emptyIdt stubs (i.castLE (by decide))).packed := by
    rw [tables, List.getElem?_ofFn, dif_pos (show i.val < 256 by omega)]
    rfl
  rw [entry, initializeIdt_apply, setInterruptGate, Function.update_self, Option.map_some, gate_ofBits, halves]
  rfl

theorem gate_behind {n : Nat} (behind : 64 ≤ n) (inside : n < 256) :
    ((tables base stubs).idt[n]?).map Gate.ofBits = some ⟨0, 0, 0, 0, 0, 0, 0⟩ := by
  have entry : (tables base stubs).idt[n]? = some (initializeIdt emptyIdt stubs ⟨n, inside⟩).packed := by
    rw [tables, List.getElem?_ofFn, dif_pos inside]
  rw [entry, initializeIdt_behind _ behind, Option.map_some, gate_ofBits]
  simp [emptyIdt]

end Brother420.Interrupts
