import Headroom.Proofs.Order

/-! Which nodes are cordoned for a surplus. They are as many as the surplus holds, and no choice of
so many nodes hosts fewer pods. -/

namespace Headroom.Scaling

open Cluster (Node NodeRecord Protection Snapshot State)

variable {block : BlockSize} {state : State} {rule : Protection} {s : Snapshot}

/-! ### How many -/

/-- The capacity that stands for all nodes is that of the node with the smallest id. -/
theorem capacityProxy?_of_least (hs : Snapshot.ofState state rule = .ok s)
    (hd : (s.nodes.map (·.id)).Nodup) {first : Node} (hfirst : first ∈ s.nodes)
    (hleast : ∀ node ∈ s.nodes, first.id ≤ node.id) :
    s.capacityProxy? = some first.capacity := by
  obtain ⟨-, rfl⟩ := State.ofState_eq_ok_iff.mp hs
  have hascending := state.ascending_snapshot rule
  generalize state.snapshot rule = s at hd hfirst hleast hascending ⊢
  rw [Snapshot.capacityProxy?]
  cases hnodes : s.nodes with
  | nil => simp [hnodes] at hfirst
  | cons head rest =>
    have hhead : head ∈ s.nodes := hnodes ▸ List.mem_cons_self
    have hle : head.id ≤ first.id := by
      rw [hnodes] at hfirst hascending
      rcases List.mem_cons.mp hfirst with rfl | hrest
      · exact le_rfl
      · exact List.rel_of_pairwise_cons hascending (List.mem_map_of_mem hrest)
    rw [List.inj_on_of_nodup_map hd hfirst hhead (le_antisymm (hleast head hhead) hle)]
    rfl

/-- As many nodes may be cordoned as the surplus holds whole capacities, and none where a capacity
does not divide. -/
theorem allowance_eq (hblock : block.raw.toNat < 2 ^ 63) {surplus : Int} {capacity : UInt64}
    (hproxy : s.capacityProxy? = some capacity) :
    (allowance block s surplus : Int) =
      if 0 < capacity.toNat ∧ (capacity.toNat : Int) ≤ Word.greatest
      then max (Int.fdiv (Word.clamp (surplus * block.raw.toNat)) capacity.toNat) 0 else 0 := by
  rw [allowance, hproxy, Option.bind_some, divisor?]
  split
  · rw [Option.map_some, Option.getD_some, Int.ofNat_toNat, Int.fdiv_eq_ediv_of_nonneg _ (by omega),
      unitsOf_eq hblock]
  · rfl

/-! ### Which -/

section Front

variable {α β : Type} [AddCommMonoid α] [LinearOrder α] [IsOrderedAddMonoid α]

/-- In front of amounts that are no smaller, an amount lowers the sum of a front of one length. -/
theorem sum_take_cons_le {a : α} {n : Nat} {l : List α} (hleast : ∀ b ∈ l, a ≤ b)
    (hn : n ≤ l.length) : ((a :: l).take n).sum ≤ (l.take n).sum := by
  cases n with
  | zero => exact le_rfl
  | succ n =>
    have hlast : a ≤ l[n] := hleast _ (List.getElem_mem hn)
    rw [List.take_succ_cons, List.take_succ_eq_append_getElem hn, List.sum_cons, List.sum_append,
      List.sum_singleton, add_comm]
    exact add_le_add le_rfl hlast

/-- No sublist sums to less than the front of its length, where the amounts ascend. -/
theorem sum_take_le_of_sublist {l t : List α} (h : t.Sublist l) (hl : l.Pairwise (· ≤ ·)) :
    (l.take t.length).sum ≤ t.sum := by
  induction h with
  | slnil => exact le_rfl
  | cons a h ih =>
    obtain ⟨hleast, hl⟩ := List.pairwise_cons.mp hl
    exact (sum_take_cons_le hleast h.length_le).trans (ih hl)
  | cons_cons a h ih =>
    rw [List.length_cons, List.take_succ_cons, List.sum_cons, List.sum_cons]
    exact add_le_add le_rfl (ih (List.pairwise_cons.mp hl).2)

/-- Nor does any other choice of so many elements, where what they amount to ascends. -/
theorem sum_map_take_le {amount : β → α} {sorted other : List β}
    (hsorted : (sorted.map amount).Pairwise (· ≤ ·)) (hnodup : other.Nodup)
    (hsubset : other ⊆ sorted) :
    ((sorted.take other.length).map amount).sum ≤ (other.map amount).sum := by
  obtain ⟨front, hperm, hsublist⟩ := List.subperm_of_subset hnodup hsubset
  have hle := sum_take_le_of_sublist (hsublist.map amount) hsorted
  rwa [List.length_map, hperm.length_eq, ← List.map_take, (hperm.map amount).sum_eq] at hle

/-- Where it descends, none comes to more. -/
theorem le_sum_map_take {amount : β → α} {sorted other : List β}
    (hsorted : (sorted.map amount).Pairwise (· ≥ ·)) (hnodup : other.Nodup)
    (hsubset : other ⊆ sorted) :
    (other.map amount).sum ≤ ((sorted.take other.length).map amount).sum :=
  sum_map_take_le (α := αᵒᵈ) hsorted hnodup hsubset

end Front

/-- How many pods some ids host together. -/
def podTotal (s : Snapshot) (ids : List String) : Nat :=
  (ids.map fun id => (s.podsOn id).length).sum

theorem podTotal_take_le {sorted other : List String} (hsorted : sorted.Pairwise (Lighter s))
    (hnodup : other.Nodup) (hsubset : other ⊆ sorted) :
    podTotal s (sorted.take other.length) ≤ podTotal s other :=
  sum_map_take_le (List.pairwise_map.mpr (hsorted.imp fun h => h.elim le_of_lt fun h => h.1.le))
    hnodup hsubset

/-- Let a snapshot show nodes of distinct ids, and let the block lie below 2^63. For any surplus
nodes are picked: none where there are none, or where the capacity of the node with the smallest id
does not divide in the signed word. Else they are as many as the surplus, in raw units and held to
that word, holds whole capacities, rounded down, but no fewer than none and no more than all. They
are distinct nodes in the order of their pod counts, equals by id; any other node comes after them
in this order; and no other choice of so many nodes hosts fewer pods. -/
theorem cordons_least_disturbing (block : BlockSize) (surplus : Int)
    (hs : Snapshot.ofState state rule = .ok s) (hd : (s.nodes.map (·.id)).Nodup)
    (hblock : block.raw.toNat < 2 ^ 63) :
    ∃ ids, pickToCordon block s surplus = .ok ids ∧
      (s.nodes = [] → ids = []) ∧
      (∀ first ∈ s.nodes, (∀ node ∈ s.nodes, first.id ≤ node.id) →
        (ids.length : Int) =
          if 0 < first.capacity.toNat ∧ (first.capacity.toNat : Int) ≤ Word.greatest then
            min (s.nodes.length : Int)
              (max (Int.fdiv (Word.clamp (surplus * block.raw.toNat)) first.capacity.toNat) 0)
          else 0) ∧
      ids.Nodup ∧ ids ⊆ s.nodes.map (·.id) ∧ ids.Pairwise (Lighter s) ∧
      (∀ id ∈ ids, ∀ node ∈ s.nodes, node.id ∉ ids → Lighter s id node.id) ∧
      ∀ other : List String, other.Nodup → other ⊆ s.nodes.map (·.id) →
        other.length = ids.length → podTotal s ids ≤ podTotal s other := by
  have hperm : ((byPodCount s s.nodes).map (·.id)).Perm (s.nodes.map (·.id)) :=
    (byPodCount_perm s s.nodes).map _
  have hpairs := pairwise_byPodCount s s.nodes
  refine ⟨_, pickToCordon_eq block s surplus, ?_⟩
  rw [List.map_take]
  set sorted := (byPodCount s s.nodes).map (·.id)
  set count := allowance block s surplus
  have hsublist := List.take_sublist count sorted
  refine ⟨fun hnone => ?_, fun first hfirst hleast => ?_, (hperm.nodup_iff.mpr hd).sublist hsublist,
    fun id hid => hperm.mem_iff.mp (hsublist.subset hid), hpairs.sublist hsublist,
    fun id hid node hnode hrest => ?_, fun other hnodup hsubset hlength => ?_⟩
  · rw [hnone, List.map_nil, List.perm_nil] at hperm
    rw [hperm, List.take_nil]
  · have hall : (count : Int) = _ :=
      allowance_eq hblock (capacityProxy?_of_least hs hd hfirst hleast)
    rw [List.length_take, hperm.length_eq, List.length_map, Nat.cast_min, hall]
    split
    · exact min_comm _ _
    · exact min_eq_left (Int.natCast_nonneg _)
  · rw [← List.take_append_drop count sorted] at hpairs
    have hlater : node.id ∈ sorted.drop count := by
      have hmem : node.id ∈ sorted := hperm.mem_iff.mpr (List.mem_map_of_mem hnode)
      rw [← List.take_append_drop count sorted] at hmem
      exact (List.mem_append.mp hmem).resolve_left hrest
    exact (List.pairwise_append.mp hpairs).2.2 id hid node.id hlater
  · have hle := podTotal_take_le hpairs hnodup fun id hid => hperm.mem_iff.mpr (hsubset hid)
    rw [hlength, List.length_take, ← List.take_eq_take_min] at hle
    exact hle

/-- Four nodes, one of them cordoned and two with as many pods. -/
def crowdedState : State where
  nodes := [
    { id := "d", capacity := some 500 },
    { id := "c", capacity := some 1000 },
    { id := "b", capacity := some 1000, unschedulable := true },
    { id := "a", capacity := some 1000 }]
  pods := [
    { space := "games", name := "v", nodeId := some "a" },
    { space := "games", name := "w", nodeId := some "a" },
    { space := "games", name := "x", nodeId := some "b" },
    { space := "games", name := "y", nodeId := some "c" },
    { space := "games", name := "z", nodeId := some "d" },
    { space := "games", name := "u", nodeId := none }]

theorem cordons_least_disturbing_crowded :
    ∃ s, Snapshot.ofState crowdedState {} = .ok s ∧ (s.nodes.map (·.id)).Nodup ∧
      pickToCordon ⟨100, by decide⟩ s 29 = .ok ["b", "c"] ∧
      ∀ other : List String, other.Nodup → other ⊆ ["a", "b", "c", "d"] → other.length = 2 →
        2 ≤ podTotal s other := by
  have hs : Snapshot.ofState crowdedState {} = .ok (crowdedState.snapshot {}) :=
    State.ofState_eq_ok_iff.mpr ⟨by decide, rfl⟩
  have hids : (crowdedState.snapshot {}).nodes.map (·.id) = ["a", "b", "c", "d"] := by cbv
  have hpicked : pickToCordon ⟨100, by decide⟩ (crowdedState.snapshot {}) 29 = .ok ["b", "c"] := by
    cbv
  have hd : ((crowdedState.snapshot {}).nodes.map (·.id)).Nodup := by
    rw [hids]
    decide
  obtain ⟨ids, hresult, -, -, -, -, -, -, hleast⟩ :=
    cordons_least_disturbing ⟨100, by decide⟩ 29 hs hd (by decide)
  obtain rfl := Except.ok.inj (hpicked.symm.trans hresult)
  refine ⟨_, hs, hd, hpicked, fun other hnodup hsubset hlength => ?_⟩
  have hle := hleast other hnodup (hids ▸ hsubset) hlength
  have htotal : podTotal (crowdedState.snapshot {}) ["b", "c"] = 2 := by cbv
  rwa [htotal] at hle

end Headroom.Scaling
