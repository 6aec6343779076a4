import Mathlib.Data.List.Nodup
import Mathlib.Data.List.Range
import Mathlib.Logic.Function.Basic

/-! # Linear searches with a counter

`scan` is the loop `while (!p(i)) i++;` over a counter that wraps around, and
`hits` is the ascending list of all indices where the loop could stop.  The
lemmas say how a scan meets the head of that list and how the list changes when
its head stops being a hit.
-/

namespace Search

/-- Advance `i`, modulo `wrap`, until `p` holds; `none` after `fuel` misses. -/
def scan (p : Nat → Bool) (wrap : Nat) : Nat → Nat → Option Nat
  | 0, _ => none
  | fuel + 1, i => if p i then some i else scan p wrap fuel ((i + 1) % wrap)

/-- The indices that `scan` tests. -/
def visited (p : Nat → Bool) (wrap : Nat) : Nat → Nat → List Nat
  | 0, _ => []
  | fuel + 1, i => i :: if p i then [] else visited p wrap fuel ((i + 1) % wrap)

/-- The indices in `[start, start + count)` where `p` holds, in ascending order. -/
def hits (p : Nat → Bool) (start count : Nat) : List Nat := (List.range' start count).filter p

variable {p q : Nat → Bool}

theorem scan_finds {wrap : Nat} {j : Nat} (found : p j) (inside : j < wrap) {fuel i : Nat}
    (below : i ≤ j)
    (enough : j - i < fuel) (misses : ∀ l, i ≤ l → l < j → p l = false) :
    scan p wrap fuel i = some j := by
  induction fuel generalizing i with
  | zero => omega
  | succ fuel ih =>
    by_cases same : i = j
    · subst same
      simp [scan, found]
    · have miss : p i = false := misses i (Nat.le_refl _) (by omega)
      have next : (i + 1) % wrap = i + 1 := Nat.mod_eq_of_lt (by omega)
      simp only [scan, miss, Bool.false_eq_true, ↓reduceIte, next]
      exact ih (by omega) (by omega) (fun l lower upper => misses l (by omega) upper)

theorem scan_none {wrap fuel i : Nat} (inside : i < wrap) (exhausted : scan p wrap fuel i = none) :
    ∀ l, l < fuel → p ((i + l) % wrap) = false := by
  induction fuel generalizing i with
  | zero => intro l bound; omega
  | succ fuel ih =>
    intro l bound
    simp only [scan] at exhausted
    split at exhausted
    · cases exhausted
    · rename_i miss
      cases l with
      | zero => simpa [Nat.mod_eq_of_lt inside] using miss
      | succ l =>
        have later := ih (Nat.mod_lt _ (by omega)) exhausted l (by omega)
        rwa [Nat.mod_add_mod, Nat.add_assoc, Nat.add_comm 1 l] at later

/-- A scan through a whole cycle stops as soon as one index of the cycle is a hit. -/
theorem scan_isSome {wrap i j : Nat} (startInside : i < wrap) (inside : j < wrap) (found : p j) :
    ∃ k, scan p wrap wrap i = some k := by
  cases stopped : scan p wrap wrap i with
  | some k => exact ⟨k, rfl⟩
  | none =>
    -- `j` lies this many steps behind `i` on the cycle
    have cycle : (i + (j + wrap - i) % wrap) % wrap = j := by
      rw [Nat.add_mod_mod, show i + (j + wrap - i) = j + wrap by omega, Nat.add_mod_right, Nat.mod_eq_of_lt inside]
    have miss := scan_none startInside stopped ((j + wrap - i) % wrap) (Nat.mod_lt _ (by omega))
    rw [cycle, found] at miss
    cases miss

/-- A scan that starts at or below a hit does not go past it. -/
theorem visited_le {wrap : Nat} {j : Nat} (found : p j) (inside : j < wrap) {fuel i x : Nat} (below : i ≤ j)
    (member : x ∈ visited p wrap fuel i) : x ≤ j := by
  induction fuel generalizing i with
  | zero => cases member
  | succ fuel ih =>
    rw [visited] at member
    rcases List.mem_cons.mp member with rfl | later
    · exact below
    · split at later
      · cases later
      · rename_i miss
        have different : i ≠ j := fun same => miss (same ▸ found)
        rw [Nat.mod_eq_of_lt (show i + 1 < wrap by omega)] at later
        exact ih (by omega) later

/-- A scan reaches every index that it meets no hit in front of. -/
theorem mem_visited {wrap : Nat} {j : Nat} (inside : j < wrap) {fuel i : Nat} (below : i ≤ j)
    (enough : j - i < fuel) (misses : ∀ l, i ≤ l → l < j → p l = false) : j ∈ visited p wrap fuel i := by
  induction fuel generalizing i with
  | zero => omega
  | succ fuel ih =>
    rw [visited]
    by_cases same : i = j
    · exact same ▸ List.mem_cons_self
    · have miss : p i = false := misses i (Nat.le_refl _) (by omega)
      rw [miss, if_neg (by decide), Nat.mod_eq_of_lt (show i + 1 < wrap by omega)]
      exact List.mem_cons_of_mem _ (ih (by omega) (by omega) fun l lower upper => misses l (by omega) upper)

theorem mem_hits {start count i : Nat} :
    i ∈ hits p start count ↔ (start ≤ i ∧ i < start + count) ∧ p i := by
  simp [hits, List.mem_filter, List.mem_range'_1]

theorem hits_nodup (start count : Nat) : (hits p start count).Nodup := by
  have distinct : (List.range' start count).Nodup := List.nodup_range'
  exact distinct.filter _

theorem hits_congr {start count : Nat} (same : ∀ i, start ≤ i → i < start + count → p i = q i) :
    hits p start count = hits q start count := by
  apply List.filter_congr
  intro i member
  have bounds := List.mem_range'_1.mp member
  exact same i bounds.1 bounds.2

/-- An interval that starts with a hit. -/
theorem hits_start {start count : Nat} (hit : p start) :
    hits p start (count + 1) = start :: hits p (start + 1) count := by
  rw [hits, List.range'_succ, List.filter_cons_of_pos hit]
  rfl

/-- The head of the hits is the first hit, and the tail holds the hits behind it. -/
theorem hits_cons {start count c : Nat} {rest : List Nat} (split : hits p start count = c :: rest) :
    start ≤ c ∧ c < start + count ∧ p c ∧ (∀ l, start ≤ l → l < c → p l = false) ∧
      rest = hits p (c + 1) (start + count - (c + 1)) := by
  induction count generalizing start with
  | zero => simp [hits] at split
  | succ count ih =>
    rw [hits, List.range'_succ, List.filter_cons] at split
    split at split
    · rename_i hit
      obtain ⟨rfl, rfl⟩ := List.cons.inj split
      refine ⟨Nat.le_refl _, by omega, hit, fun l lower upper => by omega, ?_⟩
      rw [hits, show start + (count + 1) - (start + 1) = count by omega]
    · rename_i miss
      obtain ⟨lower, upper, hit, misses, tail⟩ := ih split
      refine ⟨by omega, by omega, hit, ?_, ?_⟩
      · intro l above below
        by_cases same : l = start
        · subst same
          simpa using miss
        · exact misses l (by omega) below
      · rw [tail, show start + 1 + count - (c + 1) = start + (count + 1) - (c + 1) by omega]

theorem scan_head {start count wrap fuel c : Nat} {rest : List Nat}
    (split : hits p start count = c :: rest)
    (inside : start + count ≤ wrap) (enough : count ≤ fuel) : scan p wrap fuel start = some c := by
  obtain ⟨lower, upper, hit, misses, _⟩ := hits_cons split
  exact scan_finds hit (by omega) lower (by omega) misses

/-- When the first hits stop being hits, the others remain. -/
theorem hits_without {start count : Nat} {first rest : List Nat}
    (split : hits p start count = first ++ rest)
    (removed : ∀ i ∈ first, q i = false) (same : ∀ i, i ∉ first → q i = p i) :
    hits q start count = rest := by
  have distinct := hits_nodup (p := p) start count
  rw [split] at distinct
  -- `q` holds exactly where `p` does outside the first hits
  have erased : hits q start count = (hits p start count).filter (· ∉ first) := by
    rw [hits, hits, List.filter_filter]
    apply List.filter_congr
    intro i _
    by_cases member : i ∈ first
    · simp [member, removed i member]
    · simp [member, same i member]
  have gone : first.filter (· ∉ first) = [] := by
    simp
  have kept : rest.filter (· ∉ first) = rest := by
    apply List.filter_eq_self.mpr
    intro i later
    simpa using fun member => (List.nodup_append.mp distinct).2.2 i member i later rfl
  rw [erased, split, List.filter_append, gone, kept, List.nil_append]

end Search
