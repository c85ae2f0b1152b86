import Headroom.Proofs.Likeness
import Headroom.Scaling.Reaper

/-! Decisions do not depend on the order of a listing. A listing fixes its snapshot up to the order
of the pods, every query and every plan reads the pods of an id as a whole, and an order in which
nodes are taken is fixed by the test that sorts them. -/

namespace Headroom

open Cluster (Node Protection Snapshot State)

/-- Nodes of distinct ids have one order only that satisfies a test of their ids which holds both
ways for equal ids alone. -/
theorem Cluster.Node.eq_of_sorted {test : String → String → Prop}
    (hanti : ∀ a b, test a b → test b a → a = b) {nodes sorted other : List Node}
    (hnodup : (nodes.map (·.id)).Nodup) (hsorted : sorted.Perm nodes) (hother : other.Perm nodes)
    (hpairs : (sorted.map (·.id)).Pairwise test) (hpairs' : (other.map (·.id)).Pairwise test) :
    sorted = other := by
  rw [List.pairwise_map] at hpairs hpairs'
  refine List.Perm.eq_of_pairwise (fun a b ha hb hab hba => ?_) hpairs hpairs'
    (hsorted.trans hother.symm)
  exact List.inj_on_of_nodup_map hnodup (hsorted.mem_iff.mp ha) (hother.mem_iff.mp hb)
    (hanti _ _ hab hba)

namespace Cluster.Snapshot

/-- Two snapshots show the same nodes in one order, and the same pods. -/
structure Reordered (x y : Snapshot) : Prop where
  nodes : x.nodes = y.nodes
  pods : x.pods.Perm y.pods

namespace Reordered

variable {x y : Snapshot}

theorem podsOn (h : x.Reordered y) (id : String) : (x.podsOn id).Perm (y.podsOn id) :=
  h.pods.filter _

theorem alike (h : x.Reordered y) : x.Alike y :=
  ⟨congrArg _ h.nodes, fun id => (h.podsOn id).map _⟩

theorem protectedOn (h : x.Reordered y) (id : String) : x.protectedOn id = y.protectedOn id :=
  (h.podsOn id).countP_eq _

end Reordered

/-- Listings of the same nodes, with distinct ids, and the same pods have snapshots that differ in
the order of the pods only. -/
theorem reordered_of_perm {s t : State} (rule : Protection) (hd : s.Distinct)
    (hnodes : s.nodes.Perm t.nodes) (hpods : s.pods.Perm t.pods) :
    (s.snapshot rule).Reordered (t.snapshot rule) := by
  have hviews : (s.nodes.map NodeRecord.view).Perm (t.nodes.map NodeRecord.view) :=
    hnodes.map _
  have hids : ((s.nodes.map NodeRecord.view).map (·.id)).Nodup := by
    rw [List.map_map]
    exact hd
  have heq : (s.snapshot rule).nodes = (t.snapshot rule).nodes :=
    Node.eq_of_sorted (fun a b => le_antisymm) hids (s.nodes_snapshot_perm rule)
      ((t.nodes_snapshot_perm rule).trans hviews.symm) (s.ascending_snapshot rule)
      (t.ascending_snapshot rule)
  refine ⟨heq, ?_⟩
  show (s.pods.filterMap (Pod.ofRecord? rule (s.snapshot rule).nodes)).Perm
    (t.pods.filterMap (Pod.ofRecord? rule (t.snapshot rule).nodes))
  rw [heq]
  exact hpods.filterMap _

end Cluster.Snapshot

namespace Scaling

variable {s x y : Snapshot}

/-! ### Orders are fixed by their tests -/

/-- The node of the first id is taken no later than that of the second: both uses can be computed,
and the first is greater, or they are equal and the first id is no greater. -/
def Busier (s : Snapshot) (a b : String) : Prop :=
  ∃ u v, s.inUse a = .ok u ∧ s.inUse b = .ok v ∧ (v.toNat < u.toNat ∨ u = v ∧ a ≤ b)

theorem Busier.antisymm (s : Snapshot) (a b : String) (hab : Busier s a b) (hba : Busier s b a) :
    a = b := by
  obtain ⟨u, v, hu, hv, hab⟩ := hab
  obtain ⟨v', u', hv', hu', hba⟩ := hba
  obtain rfl := Except.ok.inj (hu.symm.trans hu')
  obtain rfl := Except.ok.inj (hv.symm.trans hv')
  rcases hab with hlt | ⟨rfl, hle⟩ <;> rcases hba with hlt' | ⟨heq, hle'⟩
  · omega
  · subst heq
    omega
  · omega
  · exact le_antisymm hle hle'

theorem byPodCount_eq_iff {nodes : List Node} (hnodup : (nodes.map (·.id)).Nodup)
    {sorted : List Node} : byPodCount s nodes = sorted ↔
      sorted.Perm nodes ∧ (sorted.map (·.id)).Pairwise (Lighter s) := by
  constructor
  · rintro rfl
    exact ⟨byPodCount_perm s nodes, pairwise_byPodCount s nodes⟩
  · rintro ⟨hperm, hpairs⟩
    exact Node.eq_of_sorted (fun a b => Lighter.antisymm) hnodup (byPodCount_perm s nodes) hperm
      (pairwise_byPodCount s nodes) hpairs

theorem pairwise_byUse {nodes sorted : List Node} (h : byUse s nodes = .ok sorted) :
    (sorted.map (·.id)).Pairwise (Busier s) := by
  unfold byUse at h
  split at h
  · rename_i hlength
    obtain rfl := Except.ok.inj h
    match nodes, hlength with
    | [], _ => exact .nil
    | [node], _ => exact List.pairwise_singleton _ _
  · obtain ⟨rows, hrows, h⟩ := bind_eq_ok_iff.mp h
    obtain ⟨hknown, rfl⟩ := (mapM_eq_ok_iff (withUse_spec s)).mp hrows
    rw [← Except.ok.inj h, List.map_map, List.pairwise_map]
    have htest : ∀ row row' : Nat × Node, (decide (row'.1 < row.1) ||
        (row.1 == row'.1 && decide (row.2.id ≤ row'.2.id))) = true ↔
          row'.1 < row.1 ∨ row.1 = row'.1 ∧ row.2.id ≤ row'.2.id := by
      intro row row'
      simp
    refine (List.pairwise_mergeSort (fun row row' row'' h h' => ?_) (fun row row' => ?_)
      (nodes.map (withUse s))).imp_of_mem fun {row row'} hrow hrow' h => ?_
    · rw [htest] at h h' ⊢
      rcases h with h | ⟨h, hle⟩ <;> rcases h' with h' | ⟨h', hle'⟩
      · exact .inl (h'.trans h)
      · exact .inl (h' ▸ h)
      · exact .inl (h.symm ▸ h')
      · exact .inr ⟨h.trans h', hle.trans hle'⟩
    · rw [Bool.or_eq_true, htest, htest]
      rcases Nat.lt_trichotomy row.1 row'.1 with hlt | heq | hlt
      · exact .inr (.inl hlt)
      · exact (le_total row.2.id row'.2.id).imp (.inr ⟨heq, ·⟩) (.inr ⟨heq.symm, ·⟩)
      · exact .inl (.inl hlt)
    · obtain ⟨a, ha, rfl⟩ := List.mem_map.mp (List.mem_mergeSort.mp hrow)
      obtain ⟨b, hb, rfl⟩ := List.mem_map.mp (List.mem_mergeSort.mp hrow')
      obtain ⟨u, hu⟩ := hknown a ha
      obtain ⟨v, hv⟩ := hknown b hb
      have horder := (htest (withUse s a) (withUse s b)).mp h
      simp only [withUse, hu, hv, Except.toOption, Option.getD_some, UInt64.toNat_inj] at horder
      exact ⟨u, v, hu, hv, horder⟩

/-- Where two nodes or more are sorted, each is tested against another. -/
theorem exists_use_of_pairwise {nodes : List Node} (hlength : 2 ≤ nodes.length)
    (hpairs : (nodes.map (·.id)).Pairwise (Busier s)) :
    ∀ node ∈ nodes, ∃ used, s.inUse node.id = .ok used := by
  match nodes, hlength with
  | first :: second :: rest, _ =>
    have hfirst : ∀ node ∈ second :: rest, Busier s first.id node.id := fun node hnode =>
      List.rel_of_pairwise_cons hpairs (List.mem_map_of_mem hnode)
    intro node hnode
    rcases List.mem_cons.mp hnode with rfl | hnode
    · obtain ⟨u, -, hu, -, -⟩ := hfirst second List.mem_cons_self
      exact ⟨u, hu⟩
    · obtain ⟨-, v, -, hv, -⟩ := hfirst node hnode
      exact ⟨v, hv⟩

theorem byUse_eq_ok_iff {nodes : List Node} (hnodup : (nodes.map (·.id)).Nodup)
    {sorted : List Node} : byUse s nodes = .ok sorted ↔
      sorted.Perm nodes ∧ (sorted.map (·.id)).Pairwise (Busier s) := by
  constructor
  · exact fun h => ⟨byUse_perm h, pairwise_byUse h⟩
  · rintro ⟨hperm, hpairs⟩
    have hexists : ∃ found, byUse s nodes = .ok found := by
      by_cases hlength : nodes.length < 2
      · exact ⟨nodes, if_pos hlength⟩
      · refine exists_byUse fun node hnode => ?_
        exact exists_use_of_pairwise (by rw [hperm.length_eq]; omega) hpairs node
          (hperm.mem_iff.mpr hnode)
    obtain ⟨found, hfound⟩ := hexists
    rw [hfound, Node.eq_of_sorted (Busier.antisymm s) hnodup (byUse_perm hfound) hperm
      (pairwise_byUse hfound) hpairs]

/-! ### Selection for deletion -/

theorem doomed_congr (h : x.Reordered y) (grace : Duration) (now : Instant) :
    doomed grace x now = doomed grace y now := by
  have hgo : ∀ nodes : List Node, doomed.go grace x now nodes = doomed.go grace y now nodes := by
    intro nodes
    induction nodes with
    | nil => rfl
    | cons node rest ih => simp only [doomed.go, ih, h.protectedOn]
  rw [doomed, doomed, hgo, Snapshot.cordoned, Snapshot.cordoned, h.nodes]

/-! ### The order of a listing -/

/-- Two listings of the same nodes, with distinct ids and known capacities, and of the same pods
have snapshots that no query, plan or selection tells apart, faults and errors included. The order
in which nodes are opened and the order in which they are cordoned are the only ones that their
tests allow, so they depend on no way of sorting. -/
theorem listing_order_immaterial (rule : Protection) {s t : State} (hnodes : s.nodes.Perm t.nodes)
    (hpods : s.pods.Perm t.pods) (hd : s.Distinct)
    (hknown : ∀ node ∈ s.nodes, node.capacity.isSome) :
    ∃ x y, Snapshot.ofState s rule = .ok x ∧ Snapshot.ofState t rule = .ok y ∧
      x.nodes = y.nodes ∧ x.pods.Perm y.pods ∧
      (∀ id, x.inUse id = y.inUse id ∧ x.protectedOn id = y.protectedOn id) ∧
      (∀ node, x.free node = y.free node) ∧
      x.availableCapacity = y.availableCapacity ∧
      (∀ block, x.availableBlocks block = y.availableBlocks block) ∧
      (∀ block deficit, pickToUncordon block x deficit = pickToUncordon block y deficit) ∧
      (∀ block surplus, pickToCordon block x surplus = pickToCordon block y surplus) ∧
      (∀ block deficit, growthPlan block x deficit = growthPlan block y deficit) ∧
      (∀ grace now, doomed grace x now = doomed grace y now) ∧
      (∀ sorted, byUse y y.cordoned = .ok sorted ↔
        sorted.Perm x.cordoned ∧ (sorted.map (·.id)).Pairwise (Busier x)) ∧
      (∀ sorted, byPodCount y y.nodes = sorted ↔
        sorted.Perm x.nodes ∧ (sorted.map (·.id)).Pairwise (Lighter x)) := by
  have hknown' : ∀ node ∈ t.nodes, node.capacity.isSome := fun node hnode =>
    hknown node (hnodes.mem_iff.mpr hnode)
  have hsame := Snapshot.reordered_of_perm rule hd hnodes hpods
  have halike := hsame.alike
  have hnodup : ((s.snapshot rule).nodes.map (·.id)).Nodup := by
    rw [((s.nodes_snapshot_perm rule).map _).nodup_iff, List.map_map]
    exact hd
  have hcordoned : (s.snapshot rule).cordoned = (t.snapshot rule).cordoned :=
    congrArg (List.filter fun node : Node => node.cordoned) hsame.nodes
  refine ⟨s.snapshot rule, t.snapshot rule, State.ofState_eq_ok_iff.mpr ⟨hknown, rfl⟩,
    State.ofState_eq_ok_iff.mpr ⟨hknown', rfl⟩, hsame.nodes, hsame.pods,
    fun id => ⟨halike.inUse id, hsame.protectedOn id⟩, halike.free, halike.availableCapacity,
    halike.availableBlocks, pickToUncordon_congr halike, pickToCordon_congr halike,
    growthPlan_congr halike, doomed_congr hsame, fun sorted => ?_, fun sorted => ?_⟩
  · rw [← hcordoned, ← byUse_congr halike]
    exact byUse_eq_ok_iff (hnodup.sublist (List.filter_sublist.map _))
  · rw [← hsame.nodes, ← byPodCount_congr halike]
    exact byPodCount_eq_iff hnodup

/-- Two cordoned nodes that are used alike and one open node, with two pods. -/
def evenState : State where
  nodes := [
    { id := "a", capacity := some 1000 },
    { id := "b", capacity := some 1000, unschedulable := true },
    { id := "c", capacity := some 1000, unschedulable := true }]
  pods := [
    { space := "games", name := "x", nodeId := some "b", request := 300 },
    { space := "games", name := "y", nodeId := some "c", request := 300 }]

theorem listing_order_immaterial_even :
    evenState.nodes.reverse.Perm evenState.nodes ∧ evenState.pods.reverse.Perm evenState.pods ∧
    ∃ x y, Snapshot.ofState ⟨evenState.nodes.reverse, evenState.pods.reverse⟩ {} = .ok x ∧
      Snapshot.ofState evenState {} = .ok y ∧ x.nodes = y.nodes ∧
      (∀ id, x.inUse id = y.inUse id) ∧
      ∀ block deficit, pickToUncordon block x deficit = pickToUncordon block y deficit := by
  have hnodes := List.reverse_perm evenState.nodes
  have hpods := List.reverse_perm evenState.pods
  obtain ⟨x, y, hx, hy, heq, -, huse, -, -, -, huncordon, -⟩ :=
    listing_order_immaterial {} (s := ⟨evenState.nodes.reverse, evenState.pods.reverse⟩) hnodes hpods
      (by unfold State.Distinct; decide) (by decide)
  exact ⟨hnodes, hpods, x, y, hx, hy, heq, fun id => (huse id).1, huncordon⟩

end Scaling

end Headroom
