import Brother420.Fat32.Volume

/-! # Routes through the tree of directories

A route lists the directories from the root down to a directory.  Walking up the
parents retraces it, so it is unique and repeats no directory.
-/

namespace Brother420.Fat32.Volume

open Linked (Chain)

variable {v : Volume} {p q c : Nat} {i j : Fin 64} {l l' : List Nat}

/-- The directories from the root down to `c`. -/
inductive Route (v : Volume) : Nat → List Nat → Prop
  | root : Route v rootClusterNumber [rootClusterNumber]
  | enter {p c : Nat} {i : Fin 64} {l : List Nat} : Route v p l → v.Edge p i c → Route v c (l ++ [c])

open Classical in
/-- The directory in which directory `c` is entered. -/
noncomputable def parent (v : Volume) (c : Nat) : Option Nat :=
  if entered : ∃ p i, v.Edge p i c then some entered.choose else none

theorem Sound.parent_edge (sound : v.Sound) (edge : v.Edge p i c) : v.parent c = some p := by
  have entered : ∃ p i, v.Edge p i c := ⟨p, i, edge⟩
  obtain ⟨j, chosen⟩ := entered.choose_spec
  rw [parent, dif_pos entered, (sound.edge_unique chosen edge).1]

theorem Sound.parent_root (sound : v.Sound) : v.parent rootClusterNumber = none := by
  apply dif_neg
  rintro ⟨p, i, edge⟩
  exact sound.edge_ne_root edge

/-- A route ends in its directory. -/
theorem Route.append (route : v.Route c l) : ∃ l', l = l' ++ [c] := by
  cases route with
  | root => exact ⟨[], rfl⟩
  | enter _ _ => exact ⟨_, rfl⟩

/-- A route starts in the root. -/
theorem Route.head (route : v.Route c l) : ∃ rest, l = rootClusterNumber :: rest := by
  induction route with
  | root => exact ⟨[], rfl⟩
  | @enter _ c _ _ _ _ ih =>
    obtain ⟨rest, rfl⟩ := ih
    exact ⟨rest ++ [c], rfl⟩

theorem Route.mem (route : v.Route c l) : c ∈ l := by
  obtain ⟨l', rfl⟩ := route.append
  simp

theorem Route.directory (route : v.Route c l) : v.Directory c := by
  cases route with
  | root => exact .root
  | enter _ edge => exact edge.directory_child

/-- Walking up the parents retraces the route. -/
theorem Route.chain (sound : v.Sound) (route : v.Route c l) : Chain v.parent c l.reverse := by
  induction route with
  | root => exact .last sound.parent_root
  | enter _ edge ih =>
    rw [List.reverse_append]
    exact .cons (sound.parent_edge edge) ih

theorem Route.nodup (sound : v.Sound) (route : v.Route c l) : l.Nodup :=
  List.nodup_reverse.mp (route.chain sound).nodup

theorem Route.unique (sound : v.Sound) (route : v.Route c l) (route' : v.Route c l') : l = l' :=
  List.reverse_injective ((route.chain sound).unique (route'.chain sound))

theorem Route.directory_of_mem (route : v.Route c l) {d : Nat} (member : d ∈ l) :
    v.Directory d := by
  induction route with
  | root =>
    rw [List.mem_singleton.mp member]
    exact .root
  | enter _ edge ih =>
    rcases List.mem_append.mp member with above | here
    · exact ih above
    · rw [List.mem_singleton.mp here]
      exact edge.directory_child

/-- A route inside `n` clusters has fewer than `n` directories: cluster 0 is none. -/
theorem Route.length_lt {n : Nat} (sound : v.Sound) (route : v.Route c l)
    (inside : ∀ d ∈ l, d < n) : l.length < n := by
  -- with cluster 0 in front, the route is still a list of different clusters below `n`
  have notBoot : 0 ∉ l := by
    intro member
    have range := sound.directory_range (route.directory_of_mem member)
    omega
  have positive : 0 < n := Nat.lt_of_le_of_lt (Nat.zero_le _) (inside c route.mem)
  have contained : 0 :: l ⊆ List.range n := by
    intro d member
    rcases List.mem_cons.mp member with rfl | on
    · exact List.mem_range.mpr positive
    · exact List.mem_range.mpr (inside d on)
  have distinct : (0 :: l).Nodup := List.nodup_cons.mpr ⟨notBoot, route.nodup sound⟩
  have counted := (List.subperm_of_subset distinct contained).length_le
  rwa [List.length_cons, List.length_range] at counted

theorem Directory.route (directory : v.Directory c) : ∃ l, v.Route c l := by
  induction directory with
  | root => exact ⟨_, .root⟩
  | child parent entry live folder ih =>
    obtain ⟨l, route⟩ := ih
    exact ⟨_, .enter route ⟨⟨parent, entry, live⟩, folder, rfl⟩⟩

/-- An added entry leaves the routes. -/
theorem Added.route_kept {v' : Volume} {s : Fin 64} {e : FAT32DirectoryEntry} (added : Added v v' p s e l')
    (route : v.Route c l) : v'.Route c l := by
  induction route with
  | root => exact .root
  | enter route edge ih =>
    have same := added.table_eq edge.directory edge.live
    refine .enter ih ⟨⟨ih.directory, edge.entry, ?_⟩, ?_, ?_⟩
    · exact same ▸ edge.live
    · exact same ▸ edge.folder
    · exact same ▸ edge.cluster

/-- The table of directory `p` does not matter for the routes that do not go on from `p`. -/
theorem Route.frame {v' : Volume} (route : v.Route c l) (apart : ∀ q ∈ l.dropLast, q ≠ p)
    (same : ∀ q, v.Directory q → q ≠ p → v'.table q = v.table q) : v'.Route c l := by
  induction route with
  | root => exact .root
  | @enter q c i l route edge ih =>
    rw [List.dropLast_concat] at apart
    have entry := congrFun (same q edge.directory (apart q route.mem)) i
    have parent := ih fun q member => apart q (List.mem_of_mem_dropLast member)
    refine .enter parent ⟨⟨parent.directory, edge.entry, ?_⟩, ?_, ?_⟩
    · exact entry ▸ edge.live
    · exact entry ▸ edge.folder
    · exact entry ▸ edge.cluster

/-- An entry that is removed from directory `p` leaves the routes that do not go on from `p`. -/
theorem Removed.route_kept {v' : Volume} {s : Fin 64} (removed : Removed v v' p s l') (route : v.Route c l)
    (apart : ∀ q ∈ l.dropLast, q ≠ p) : v'.Route c l :=
  route.frame apart removed.tableFrame

/-- A route to `p` goes on from other directories only. -/
theorem Route.dropLast_ne (sound : v.Sound) (route : v.Route p l) : ∀ q ∈ l.dropLast, q ≠ p := by
  have distinct := route.nodup sound
  obtain ⟨before, rfl⟩ := route.append
  rw [List.dropLast_concat]
  rintro q member rfl
  exact (List.nodup_append.mp distinct).2.2 q member q List.mem_cons_self rfl

/-- No entry lies on the cluster of its own directory. -/
theorem Sound.slot_cluster_ne (sound : v.Sound) (slot : v.Slot p i) :
    (v.table p i).cluster ≠ p := by
  intro same
  obtain ⟨l, chain, _⟩ := sound.chain slot
  have member : p ∈ l := same ▸ chain.head_mem
  have edge := sound.slot_of_directory_mem slot chain member slot.directory
  obtain ⟨l', route⟩ := slot.directory.route
  -- an entry that enters its own directory would make the route one longer than itself
  have lengths := congrArg List.length (route.unique sound (.enter route edge))
  simp at lengths

theorem Sound.child_ne (sound : v.Sound) (edge : v.Edge p i c) : c ≠ p := by
  rw [← edge.cluster]
  exact sound.slot_cluster_ne edge.toSlot

/-- Two slots do not share their first cluster. -/
theorem Sound.slot_unique (sound : v.Sound) (slot : v.Slot p i) (slot' : v.Slot q j)
    (same : (v.table q j).cluster = (v.table p i).cluster) : q = p ∧ j = i := by
  obtain ⟨l, chain, _⟩ := sound.chain slot
  obtain ⟨l', chain', _⟩ := sound.chain slot'
  exact sound.disjoint slot' slot chain' chain chain'.head_mem (by rw [same]; exact chain.head_mem)

end Brother420.Fat32.Volume
