import Brother420.Fat32.Views

/-! # Lookups and reads -/

namespace Brother420.Fat32

open Packed (Bytes Layout)
open Linked (Chain)
open Kernel

/-! ## Searching a directory table -/

variable {table : FAT32DirectoryTable} {name : Bytes 8} {ext : Bytes 3} {i : Fin 64}

theorem findName_some :
    findName table name = some i ↔ (table i).name = name ∧ ∀ j, j < i → (table j).name ≠ name := by
  simp only [findName, Fin.find?_eq_some_iff, beq_iff_eq, beq_eq_false_iff_ne, ne_eq, memcmp_eq_zero_iff]

theorem findName_none : findName table name = none ↔ ∀ i, (table i).name ≠ name := by
  simp only [findName, Fin.find?_eq_none_iff, beq_eq_false_iff_ne, ne_eq, memcmp_eq_zero_iff]

theorem findNameExt_some :
    findNameExt table name ext = some i ↔ ((table i).name = name ∧ (table i).ext = ext) ∧
      ∀ j, j < i → (table j).name = name → (table j).ext ≠ ext := by
  simp only [findNameExt, Fin.find?_eq_some_iff, Bool.and_eq_true, beq_iff_eq, Bool.and_eq_false_imp,
    beq_eq_false_iff_ne, ne_eq, memcmp_eq_zero_iff]

theorem findNameExt_none :
    findNameExt table name ext = none ↔ ∀ i, (table i).name = name → (table i).ext ≠ ext := by
  simp only [findNameExt, Fin.find?_eq_none_iff, Bool.and_eq_false_imp, beq_iff_eq, beq_eq_false_iff_ne, ne_eq,
    memcmp_eq_zero_iff]

theorem occupied_iff : occupied table = true ↔ ∃ i, i ≠ 0 ∧ (table i).Live := by
  simp [occupied]

theorem totalCluster_eq (size : UInt32) : totalCluster size = (size.toNat + 2047) / 2048 := by
  unfold totalCluster clusterSize
  simp only
  split <;> omega

/-! ## What reading leaves alone -/

theorem storeDirTable_load {k : Kernel} {c : Nat} :
    ((k.loadDirTable c).storeDirTable c).disk = k.disk ∧
    ((k.load c).storeDirTable c).disk = k.disk := by
  constructor
  · simp only [storeDirTable, loadDirTable, Equiv.apply_symm_apply]
    exact Memory.store_bytes
  · simp only [load, loadFat, storeDirTable, loadDirTable, Equiv.apply_symm_apply]
    exact Memory.store_bytes

theorem readDirectory_disk (k : Kernel) (request : FAT32DriverRequest) :
    (readDirectory k request).2.1.disk = k.disk := by
  unfold readDirectory
  simp only
  split
  · rfl
  · split
    · rfl
    · split
      · rfl
      · exact storeDirTable_load.1

theorem read_disk (k : Kernel) (request : FAT32DriverRequest) :
    (read k request).2.1.disk = k.disk := by
  unfold read
  simp only
  split
  · rfl
  · split
    · rfl
    · split
      · rfl
      · exact storeDirTable_load.2

/-! ## The copying loop -/

/-- Byte `a` of the data that the clusters of `l` hold in order. -/
def fileByte (d : Disk) (l : List Nat) (a : Nat) : UInt8 :=
  match l[a / 2048]? with
  | some c => d (2048 * c + a % 2048)
  | none => 0

/-- The first `size` bytes of that data. -/
def fileBytes (d : Disk) (l : List Nat) (size : Nat) : List UInt8 :=
  (List.range size).map (fileByte d l)

theorem fileByte_some {d : Disk} {l : List Nat} {a c : Nat} (found : l[a / 2048]? = some c) :
    fileByte d l a = d.cluster c ⟨a % 2048, Nat.mod_lt _ (by omega)⟩ := by
  rw [fileByte, found]
  rfl

theorem fileByte_cons {d : Disk} {c : Nat} {l : List Nat} {a : Nat} (later : 2048 ≤ a) :
    fileByte d (c :: l) a = fileByte d l (a - 2048) := by
  have block : a / 2048 = (a - 2048) / 2048 + 1 := by omega
  have offset : a % 2048 = (a - 2048) % 2048 := by omega
  rw [fileByte, fileByte, block, List.getElem?_cons_succ, offset]

theorem fileByte_head {d : Disk} {c : Nat} {l : List Nat} {a : Nat} (first : a < 2048) :
    fileByte d (c :: l) a = d.cluster c ⟨a, first⟩ := by
  have block : a / 2048 = 0 := Nat.div_eq_of_lt first
  rw [fileByte, block, List.getElem?_cons_zero, Nat.mod_eq_of_lt first]
  rfl

/-- Only the clusters of the list matter. -/
theorem fileByte_congr {d d' : Disk} {l : List Nat} {a : Nat}
    (same : ∀ c ∈ l, d'.cluster c = d.cluster c) :
    fileByte d' l a = fileByte d l a := by
  cases found : l[a / 2048]? with
  | some c => rw [fileByte_some found, fileByte_some found, same c (List.mem_of_getElem? found)]
  | none => rw [fileByte, fileByte, found]

/-- The rest of the loop, after the cluster at `location` has been copied, copies
    the clusters that follow `location` in its chain. -/
theorem readLoop_tail {k : Kernel} {location : Nat} {rest : List Nat} {j : Nat} {buf : Memory}
    (chain : Chain (fun c => fatTarget (k.clusterMap c)) location (location :: rest))
    (inside : ∀ c ∈ rest, c < 2 ^ 26) (later : j ≠ 0) (a : Nat) :
    readLoop k rest.length j location buf a =
      if 2048 * j ≤ a ∧ a < 2048 * (j + rest.length) then fileByte k.disk rest (a - 2048 * j) else buf a := by
  induction rest generalizing location j buf with
  | nil =>
    have outside : ¬ (2048 * j ≤ a ∧ a < 2048 * (j + ([] : List Nat).length)) := by simp
    rw [if_neg outside]
    rfl
  | cons c rest ih =>
    cases chain with
    | cons step chain =>
      have follows := chain.head_eq
      obtain ⟨_, rest_eq⟩ := follows
      obtain ⟨rfl, rfl⟩ := List.cons.inj rest_eq
      have next : (k.clusterMap location).toNat = c := (fatTarget_eq_some.mp step).2
      -- one iteration stores cluster `c`; the others store behind it
      simp only [List.length_cons, readLoop, later, ↓reduceIte, next]
      rw [ih chain (fun x member => inside x (List.mem_cons_of_mem _ member)) (by omega)]
      have bound := inside c List.mem_cons_self
      rw [readClusters_eq bound]
      have start : clusterSize * j = 2048 * j := rfl
      -- byte `a` comes from a later iteration, from this one, or from none
      by_cases behind : 2048 * (j + 1) ≤ a
      · by_cases reached : a < 2048 * (j + 1 + rest.length)
        · have within : 2048 * j ≤ a ∧ a < 2048 * (j + (rest.length + 1)) := by omega
          have shift : a - 2048 * (j + 1) = a - 2048 * j - 2048 := by omega
          rw [if_pos ⟨behind, reached⟩, if_pos within, fileByte_cons (by omega), shift]
        · have beyond : ¬ (2048 * j ≤ a ∧ a < 2048 * (j + (rest.length + 1))) := by omega
          rw [if_neg fun within => reached within.2, if_neg beyond]
          exact Memory.store_outside (by omega)
      · rw [if_neg fun within => behind within.1]
        by_cases here : 2048 * j ≤ a
        · have within : 2048 * j ≤ a ∧ a < 2048 * (j + (rest.length + 1)) := by omega
          rw [if_pos within, fileByte_head (by omega)]
          exact Memory.store_inside (by omega) (by omega)
        · rw [if_neg fun within => here within.1]
          exact Memory.store_outside (by omega)

/-- The whole loop copies the clusters of a chain, one after the other. -/
theorem readLoop_chain {k : Kernel} {location : Nat} {l : List Nat} {buf : Memory}
    (chain : Chain (fun c => fatTarget (k.clusterMap c)) location l) (inside : ∀ c ∈ l, c < 2 ^ 26)
    (a : Nat) :
    readLoop k l.length 0 location buf a =
      if a < 2048 * l.length then fileByte k.disk l a else buf a := by
  obtain ⟨rest, rfl⟩ := chain.head_eq
  simp only [List.length_cons, readLoop, ↓reduceIte]
  rw [readLoop_tail chain (fun c member => inside c (List.mem_cons_of_mem _ member)) (by omega),
    readClusters_eq (inside location List.mem_cons_self)]
  have start : clusterSize * 0 = 0 := rfl
  by_cases behind : 2048 ≤ a
  · by_cases reached : a < 2048 * (rest.length + 1)
    · have within : 2048 * (0 + 1) ≤ a ∧ a < 2048 * (0 + 1 + rest.length) := by omega
      rw [if_pos within, if_pos reached, fileByte_cons behind]
    · have beyond : ¬ (2048 * (0 + 1) ≤ a ∧ a < 2048 * (0 + 1 + rest.length)) := by omega
      rw [if_neg beyond, if_neg reached]
      exact Memory.store_outside (by omega)
  · have before : ¬ (2048 * (0 + 1) ≤ a ∧ a < 2048 * (0 + 1 + rest.length)) := by omega
    have within : a < 2048 * (rest.length + 1) := by omega
    rw [if_neg before, if_pos within, fileByte_head (by omega)]
    exact Memory.store_inside (by omega) (by omega)

/-- A read of an entry on a chain of the right length copies the clusters of the chain. -/
theorem read_found {k : Kernel} {request : FAT32DriverRequest} {p : Nat} {l : List Nat}
    (parent : request.parentClusterNumber.toNat = p) (inside : p < 512)
    (found : findNameExt (k.disk.table p) request.name request.ext = some i)
    (chain : Chain (fun c => fatTarget (k.disk.fat c)) (k.disk.table p i).cluster l)
    (range : ∀ c ∈ l, c < 512)
    (length : l.length = totalCluster (k.disk.table p i).filesize)
    (enough : (k.disk.table p i).filesize ≤ request.bufferSize)
    (plain : (k.disk.table p i).attributeByte ≠ 1) :
    (read k request).1 = 0 ∧ ∀ a, (read k request).2.2 a =
      if a < 2048 * l.length then fileByte k.disk l a else request.buf a := by
  have loaded := load_eq (k := k) (c := p) (by omega)
  have fits : ¬ request.bufferSize < (k.disk.table p i).filesize := UInt32.not_lt.mpr enough
  -- the loop follows the cached table, which was just read from the disk
  have chainLoaded : Chain (fun c => fatTarget ((k.load p).clusterMap c)) (k.disk.table p i).cluster l := by
    apply chain.congr
    intro c member
    rw [load_clusterMap (by omega) (range c member)]
  have copied : ∀ a, readLoop (k.load p) l.length 0 (k.disk.table p i).cluster request.buf a = _ :=
    readLoop_chain chainLoaded fun c member => Nat.lt_trans (range c member) (by decide)
  unfold read
  simp only [parent]
  rw [loaded] at copied ⊢
  simp only [found, fits, plain, ↓reduceIte, ← length]
  exact ⟨trivial, copied⟩

/-- A read of an entry on a chain of the right length copies the clusters, or answers 1
    when the attribute of the entry is 1. -/
theorem read_entry (k : Kernel) (request : FAT32DriverRequest) {p : Nat} {l : List Nat}
    (parent : request.parentClusterNumber.toNat = p) (inside : p < 512)
    (found : findNameExt (k.disk.table p) request.name request.ext = some i)
    (chain : Chain (fun c => fatTarget (k.disk.fat c)) (k.disk.table p i).cluster l)
    (range : ∀ c ∈ l, c < 512)
    (length : l.length = totalCluster (k.disk.table p i).filesize)
    (enough : (k.disk.table p i).filesize ≤ request.bufferSize) :
    (read k request).1 = (if (k.disk.table p i).attributeByte = 1 then 1 else 0) ∧
      ∀ a, (read k request).2.2 a =
        if (k.disk.table p i).attributeByte = 1 then request.buf a
        else if a < 2048 * l.length then fileByte k.disk l a else request.buf a := by
  by_cases hidden : (k.disk.table p i).attributeByte = 1
  · have loaded : k.load p = _ := load_eq (by omega)
    have fits : ¬ request.bufferSize < (k.disk.table p i).filesize := UInt32.not_lt.mpr enough
    rw [if_pos hidden]
    unfold read
    simp only [parent]
    rw [loaded]
    simp only [found, fits, hidden, ↓reduceIte]
    exact ⟨trivial, fun _ => trivial⟩
  · obtain ⟨code, copied⟩ := read_found parent inside found chain range length enough hidden
    rw [if_neg hidden]
    exact ⟨code, fun a => by rw [copied, if_neg hidden]⟩

end Brother420.Fat32
