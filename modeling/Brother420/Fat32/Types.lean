import Brother420.Disk

/-! # On-disk data structures of the file system

The packed structures of `fat32.h` with their byte layouts.  A directory table
is the typed view of one cluster, and so is the file allocation table.
-/

namespace Brother420.Fat32

open Packed (Bytes Layout)

def clusterSize : Nat := 2048

def clusterMapSize : Nat := 512

def cluster0Value : UInt32 := 0x0FFFFFF0

def cluster1Value : UInt32 := 0x0FFFFFFF

def fat32FatEndOfFile : UInt32 := 0x0FFFFFFF

def fatClusterNumber : Nat := 1

def rootClusterNumber : Nat := 2

def uattrNotEmpty : UInt8 := 0b10101010

/-! ## Directory entries -/

structure Time where
  jam : UInt8
  menit : UInt8
  detik : UInt8
deriving DecidableEq

structure Date where
  tanggal : UInt8
  bulan : UInt8
  tahun : UInt8
deriving DecidableEq

structure FAT32DirectoryEntry where
  name : Bytes 8
  ext : Bytes 3
  attributeByte : UInt8
  userAttribute : UInt8
  undelete : UInt8
  createTime : Time
  createDate : Date
  accessDate : Date
  clusterHigh : UInt16
  clusterLow : UInt16
  filesize : UInt32
  last : UInt8
deriving DecidableEq

/-- A zero-initialised entry, as `{0}` and a free slot hold. -/
def FAT32DirectoryEntry.zero : FAT32DirectoryEntry where
  name := fun _ => 0
  ext := fun _ => 0
  attributeByte := 0
  userAttribute := 0
  undelete := 0
  createTime := ⟨0, 0, 0⟩
  createDate := ⟨0, 0, 0⟩
  accessDate := ⟨0, 0, 0⟩
  clusterHigh := 0
  clusterLow := 0
  filesize := 0
  last := 0

namespace FAT32DirectoryEntry

/-- The entry is in use. -/
def Live (e : FAT32DirectoryEntry) : Prop := e.userAttribute = uattrNotEmpty

instance (e : FAT32DirectoryEntry) : Decidable e.Live := inferInstanceAs (Decidable (_ = _))

/-- `cluster_high << 16 | cluster_low` -/
def cluster (e : FAT32DirectoryEntry) : Nat := e.clusterHigh.toNat <<< 16 ||| e.clusterLow.toNat

theorem not_live_zero : ¬ zero.Live := by decide

theorem cluster_of_high_zero {e : FAT32DirectoryEntry} (high : e.clusterHigh = 0) :
    e.cluster = e.clusterLow.toNat := by
  simp [cluster, high]

/-- The low word holds 16 bits of a cluster number. -/
theorem cluster_of_low {e : FAT32DirectoryEntry} {c : Nat} (high : e.clusterHigh = 0)
    (low : e.clusterLow = UInt16.ofNat c) : e.cluster = c % 2 ^ 16 := by
  rw [cluster_of_high_zero high, low]
  exact UInt16.toNat_ofNat'

end FAT32DirectoryEntry

abbrev FAT32DirectoryTable := Fin 64 → FAT32DirectoryEntry

abbrev FAT32FileAllocationTable := Fin 512 → UInt32

/-- Slots and clusters are written as numerals. -/
instance neZeroSlots : NeZero 64 := ⟨by decide⟩

instance neZeroClusters : NeZero 512 := ⟨by decide⟩

/-! ## Layouts -/

def Time.layout : Layout Time 3 :=
  Equiv.trans ⟨fun t => (t.jam, t.menit, t.detik), fun p => ⟨p.1, p.2.1, p.2.2⟩, fun _ => rfl, fun _ => rfl⟩
    (Layout.byte.pair (Layout.byte.pair Layout.byte))

def Date.layout : Layout Date 3 :=
  Equiv.trans ⟨fun d => (d.tanggal, d.bulan, d.tahun), fun p => ⟨p.1, p.2.1, p.2.2⟩, fun _ => rfl, fun _ => rfl⟩
    (Layout.byte.pair (Layout.byte.pair Layout.byte))

/-- The members of an entry behind its name and extension, in order. -/
abbrev EntryTail := UInt8 × UInt8 × UInt8 × Time × Date × Date × UInt16 × UInt16 × UInt32 × UInt8

def EntryTail.layout : Layout EntryTail 21 :=
  Layout.byte.pair <| Layout.byte.pair <| Layout.byte.pair <| Time.layout.pair <| Date.layout.pair <|
    Date.layout.pair <| Layout.word16.pair <| Layout.word16.pair <| Layout.word32.pair Layout.byte

def FAT32DirectoryEntry.tail (e : FAT32DirectoryEntry) : EntryTail :=
  (e.attributeByte, e.userAttribute, e.undelete, e.createTime, e.createDate, e.accessDate, e.clusterHigh, e.clusterLow,
    e.filesize, e.last)

def FAT32DirectoryEntry.ofParts (name : Bytes 8) (ext : Bytes 3) : EntryTail → FAT32DirectoryEntry
  | (attributeByte, userAttribute, undelete, createTime, createDate, accessDate, clusterHigh, clusterLow, filesize,
      last) =>
    ⟨name, ext, attributeByte, userAttribute, undelete, createTime, createDate, accessDate, clusterHigh, clusterLow,
      filesize, last⟩

def FAT32DirectoryEntry.parts : FAT32DirectoryEntry ≃ Bytes 8 × Bytes 3 × EntryTail where
  toFun e := (e.name, e.ext, e.tail)
  invFun p := ofParts p.1 p.2.1 p.2.2
  left_inv _ := rfl
  right_inv _ := rfl

def FAT32DirectoryEntry.layout : Layout FAT32DirectoryEntry 32 :=
  Equiv.trans FAT32DirectoryEntry.parts ((Layout.bytes 8).pair ((Layout.bytes 3).pair EntryTail.layout))

def FAT32DirectoryTable.layout : Layout FAT32DirectoryTable 2048 :=
  Layout.array 64 FAT32DirectoryEntry.layout

def FAT32FileAllocationTable.layout : Layout FAT32FileAllocationTable 2048 :=
  Layout.array 512 Layout.word32

/-- Renaming an entry rewrites the first eleven bytes and keeps the others. -/
theorem FAT32DirectoryEntry.layout_rename (e : FAT32DirectoryEntry) (name : Bytes 8) (ext : Bytes 3)
    (i : Fin 32) :
    layout { e with name := name, ext := ext } i =
      if h : i.val < 8 then name ⟨i, h⟩
      else if h : i.val < 11 then ext ⟨i - 8, by omega⟩
      else layout e i := by
  split
  · rename_i inside
    exact Layout.pair_left (Layout.bytes 8) ((Layout.bytes 3).pair EntryTail.layout) (name, ext, e.tail) ⟨i, inside⟩
  · rename_i notName
    -- the extension and the rest of the entry start behind the name's eight bytes
    obtain ⟨j, rfl⟩ : ∃ j : Fin 24, i = Fin.natAdd 8 j :=
      ⟨⟨i - 8, by omega⟩, by apply Fin.ext; simp; omega⟩
    have shifted (parts : Bytes 8 × Bytes 3 × EntryTail) :=
      Layout.pair_right (Layout.bytes 8) ((Layout.bytes 3).pair EntryTail.layout) parts j
    split
    · rename_i inside
      have small : j.val < 3 := by simp at inside; omega
      refine (shifted (name, ext, e.tail)).trans ?_
      refine (Layout.pair_left (Layout.bytes 3) EntryTail.layout (ext, e.tail) ⟨j, small⟩).trans ?_
      change ext ⟨j, small⟩ = _
      congr 1
      apply Fin.ext
      simp
    · rename_i notExt
      obtain ⟨l, rfl⟩ : ∃ l : Fin 21, j = Fin.natAdd 3 l :=
        ⟨⟨j - 3, by simp at notExt; omega⟩, by apply Fin.ext; simp at notExt ⊢; omega⟩
      refine (shifted (name, ext, e.tail)).trans (Eq.trans ?_ (shifted (e.name, e.ext, e.tail)).symm)
      exact (Layout.pair_right (Layout.bytes 3) EntryTail.layout (ext, e.tail) l).trans
        (Layout.pair_right (Layout.bytes 3) EntryTail.layout (e.ext, e.tail) l).symm

end Brother420.Fat32
