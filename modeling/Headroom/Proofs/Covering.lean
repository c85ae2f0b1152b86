import Headroom.Proofs.Order

/-! Which cordoned nodes are opened for a deficit. They are the shortest front of the nodes in their
order that frees as much as is needed, and all of the nodes where no front does. What a node frees
may be negative, so a longer front does not always free more. -/

namespace Headroom

namespace Cluster.Snapshot

variable {s : Snapshot} {node : Node} {id : String}

/-- What is requested on an id. -/
def load (s : Snapshot) (id : String) : Nat := ((s.podsOn id).map (·.request.toNat)).sum

/-- The capacity of a node less what is requested on it. -/
def freeOn (s : Snapshot) (node : Node) : Int := node.capacity.toNat - s.load node.id

/-- The requests on a node have a place in the unsigned word, and its capacity and its requests lie
on the same side of 2^63. -/
def Aligned (s : Snapshot) (node : Node) : Prop :=
  s.load node.id < UInt64.size ∧ (node.capacity.toNat < 2 ^ 63 ↔ s.load node.id < 2 ^ 63)

theorem inUse_eq_ok_iff {used : UInt64} :
    s.inUse id = .ok used ↔ s.load id < UInt64.size ∧ used = UInt64.ofNat (s.load id) := by
  have hload : (((s.podsOn id).map (·.request)).map UInt64.toNat).sum = s.load id := by
    rw [List.map_map]
    rfl
  simp only [inUse, Word.total, Word.sum_eq_foldr, hload]
  split <;> simp_all [eq_comm]

/-- What a node has free is computed exactly if its capacity and its requests are both read as they
are or both fall by 2^64. -/
theorem free_eq_freeOn_iff : s.free node = .ok (s.freeOn node) ↔ s.Aligned node := by
  have hcapacity := Word.signed_eq_ite node.capacity
  have hword : s.load node.id < UInt64.size →
      Word.signed (UInt64.ofNat (s.load node.id)) =
        if s.load node.id < 2 ^ 63 then (s.load node.id : Int) else s.load node.id - 2 ^ 64 := by
    intro hload
    rw [Word.signed_eq_ite, UInt64.toNat_ofNat_of_lt' hload]
  have hlt := node.capacity.toNat_lt
  rw [free, bind_eq_ok_iff]
  constructor
  · rintro ⟨used, hused, h⟩
    obtain ⟨hload, rfl⟩ := inUse_eq_ok_iff.mp hused
    obtain ⟨-, heq⟩ := Word.sub_eq_ok_iff.mp h
    rw [hcapacity, hword hload, freeOn] at heq
    refine ⟨hload, ?_⟩
    split at heq <;> split at heq <;> omega
  · rintro ⟨hload, hside⟩
    refine ⟨_, inUse_eq_ok_iff.mpr ⟨hload, rfl⟩, Word.sub_eq_ok_iff.mpr ?_⟩
    rw [hcapacity, hword hload, freeOn]
    unfold Word.Fits Word.least Word.greatest UInt64.size at *
    split <;> split <;> omega

end Cluster.Snapshot

namespace Cluster.State

variable {state : State} {rule : Protection}

theorem freeOn_snapshot (rule : Protection) {node : NodeRecord} (h : node ∈ state.nodes) :
    (state.snapshot rule).freeOn node.view = state.freeOn node := by
  rw [Snapshot.freeOn, Snapshot.load, NodeRecord.id_view, podsOn_snapshot ⟨node, h, rfl⟩,
    List.map_map]
  rfl

theorem free_of_cordoned (hm : state.Moderate) {node : Node}
    (h : node ∈ (state.snapshot rule).cordoned) :
    (state.snapshot rule).free node = .ok ((state.snapshot rule).freeOn node) := by
  obtain ⟨record, hrecord, rfl⟩ := exists_of_mem_cordoned_snapshot h
  have hrow := (mem_cordoned.mp hrecord).1
  rw [free_snapshot hm hrow, freeOn_snapshot rule hrow]

end Cluster.State

namespace Scaling

open Cluster (Node Snapshot State)

variable {block : BlockSize} {s : Snapshot}

/-! ### The order -/

/-- The node of the first id is taken before that of the second: more is requested on it, or as much
and its id is smaller. -/
def Heavier (s : Snapshot) (a b : String) : Prop :=
  s.load b < s.load a ∨ s.load a = s.load b ∧ a < b

theorem Busier.heavier {a b : String} (h : Busier s a b) (hne : a ≠ b) : Heavier s a b := by
  obtain ⟨u, v, hu, hv, h⟩ := h
  obtain ⟨hload, rfl⟩ := Snapshot.inUse_eq_ok_iff.mp hu
  obtain ⟨hload', rfl⟩ := Snapshot.inUse_eq_ok_iff.mp hv
  rw [← UInt64.toNat_inj, UInt64.toNat_ofNat_of_lt' hload, UInt64.toNat_ofNat_of_lt' hload'] at h
  exact h.imp_right fun ⟨heq, hle⟩ => ⟨heq, lt_of_le_of_ne hle hne⟩

/-- Nodes of distinct ids whose requests have a place in the word are put in their order. -/
theorem exists_byUse_heavier {nodes : List Node} (hnodup : (nodes.map (·.id)).Nodup)
    (h : ∀ node ∈ nodes, s.load node.id < UInt64.size) :
    ∃ sorted, byUse s nodes = .ok sorted ∧ sorted.Perm nodes ∧
      (sorted.map (·.id)).Pairwise (Heavier s) := by
  obtain ⟨sorted, hsorted⟩ := exists_byUse fun node hnode =>
    ⟨_, Snapshot.inUse_eq_ok_iff.mpr ⟨h node hnode, rfl⟩⟩
  have hperm := byUse_perm hsorted
  have hdistinct : (sorted.map (·.id)).Nodup := (hperm.map _).nodup_iff.mpr hnodup
  exact ⟨sorted, hsorted, hperm,
    ((pairwise_byUse hsorted).and hdistinct).imp fun ⟨hbusier, hne⟩ => hbusier.heavier hne⟩

/-! ### The shortest cover -/

/-- What some nodes free together is at least a need. -/
def Covers (s : Snapshot) (need : Int) (nodes : List Node) : Prop :=
  need ≤ (nodes.map s.freeOn).sum

/-- What is picked for a need is the shortest front of an order that covers it, and the whole order
where no front does. -/
structure ShortestCover (s : Snapshot) (need : Int) (sorted picked : List Node)
    (satisfied : Bool) : Prop where
  front : picked <+: sorted
  satisfied_iff : satisfied = true ↔ ∃ front, front <+: sorted ∧ Covers s need front
  covers : satisfied = true → Covers s need picked
  shortest : satisfied = true → ∀ front, front <+: sorted → Covers s need front → picked <+: front
  all : satisfied = false → picked = sorted

theorem exists_shortestCover {sorted : List Node} {need : Int} (hneed : 0 < need)
    (hfree : ∀ node ∈ sorted, s.free node = .ok (s.freeOn node))
    (hroom : ∀ front, front <+: sorted → need - (front.map s.freeOn).sum ≤ Word.greatest) :
    ∃ picked satisfied, drawDown s sorted need = .ok ⟨picked.map (candidate s.freeOn), satisfied⟩ ∧
      ShortestCover s need sorted picked satisfied := by
  obtain ⟨picked, satisfied, hfront, hdraw, hall⟩ := exists_drawDown hfree need
  have hmeets := drawDown_satisfied_iff hdraw hfree hneed hroom
  rw [sum_freed] at hmeets
  have hleast : ∀ front, front <+: sorted → Covers s need front → picked <+: front := by
    intro front hother hcovers
    rcases List.prefix_or_prefix_of_prefix hfront hother with hle | ⟨rest, hrest⟩
    · exact hle
    · cases rest with
      | nil => exact ⟨[], by rw [← hrest, List.append_nil, List.append_nil]⟩
      | cons last rest =>
        have hcandidates : picked.map (candidate s.freeOn) =
            front.map (candidate s.freeOn) ++
              candidate s.freeOn last :: rest.map (candidate s.freeOn) := by
          rw [← hrest, List.map_append, List.map_cons]
        have hless := drawDown_undershoots hdraw hneed hcandidates
        rw [sum_freed] at hless
        exact absurd hcovers (not_le.mpr hless)
  refine ⟨picked, satisfied, hdraw, hfront, ⟨fun hsatisfied => ⟨picked, hfront,
    hmeets.mp hsatisfied⟩, ?_⟩, hmeets.mp, fun _ => hleast, hall⟩
  rintro ⟨front, hother, hcovers⟩
  cases hsatisfied : satisfied with
  | true => rfl
  | false =>
    -- All nodes are picked, so the front that covers the need is all of them.
    have heq : picked = front := (hleast front hother hcovers).eq_of_length_le
      (hall hsatisfied ▸ hother.length_le)
    exact absurd (hmeets.mpr (heq ▸ hcovers)) (by simp [hsatisfied])

/-- For a deficit in whose order every front leaves a need in the word there is a plan, and it opens
the shortest cover. -/
theorem exists_pickToUncordon_shortestCover {sorted : List Node} {deficit : Int}
    (hsorted : byUse s s.cordoned = .ok sorted) (hdeficit : 0 < deficit)
    (haligned : ∀ node ∈ s.cordoned, s.Aligned node)
    (hfits : ∀ front, front <+: sorted →
      Word.Fits (deficit * block.raw.toNat - (front.map s.freeOn).sum)) :
    ∃ picked satisfied,
      pickToUncordon block s deficit = .ok ⟨picked.map (candidate s.freeOn), satisfied⟩ ∧
      ShortestCover s (deficit * block.raw.toNat) sorted picked satisfied := by
  have hmem := fun node => (byUse_perm hsorted).mem_iff (a := node)
  have hunits : unitsOf block deficit = deficit * block.raw.toNat :=
    unitsOf_of_fits hdeficit (by simpa using hfits [] List.nil_prefix)
  obtain ⟨picked, satisfied, hdraw, hcover⟩ := exists_shortestCover
    (mul_pos hdeficit (by exact_mod_cast block.pos))
    (fun node hnode => Snapshot.free_eq_freeOn_iff.mpr (haligned node ((hmem node).mp hnode)))
    fun front hfront => (hfits front hfront).2
  refine ⟨picked, satisfied, ?_, hcover⟩
  rw [pickToUncordon, if_neg (by omega), hsorted, hunits]
  exact hdraw

/-- Without a deficit no node is opened and the plan is satisfied. For a deficit the cordoned nodes
stand in one order: those on which more is requested first, equals by id. Let the capacity and the
requests of each be read alike, and let the need less what a front of the order frees always have a
place in the signed word. Then the candidates are a front, so distinct nodes that are cordoned, each
with its capacity less its requests. The plan is satisfied exactly if some front covers the need,
and then the candidates are the shortest one that does; otherwise they are all cordoned nodes. -/
theorem uncordons_least_cover (block : BlockSize) (s : Snapshot) (deficit : Int)
    (hd : (s.nodes.map (·.id)).Nodup) :
    (deficit ≤ 0 → pickToUncordon block s deficit = .ok ⟨[], true⟩) ∧
    (0 < deficit → (∀ node ∈ s.cordoned, s.Aligned node) →
      ∃ sorted : List Node, sorted.Perm s.cordoned ∧ (sorted.map (·.id)).Pairwise (Heavier s) ∧
        ((∀ front, front <+: sorted →
            Word.Fits (deficit * block.raw.toNat - (front.map s.freeOn).sum)) →
          ∃ picked satisfied,
            pickToUncordon block s deficit =
              .ok ⟨picked.map fun node => ⟨node.id, node.capacity.toNat - s.load node.id⟩,
                satisfied⟩ ∧
            (∀ node ∈ picked, node ∈ s.cordoned) ∧ (picked.map (·.id)).Nodup ∧
            ShortestCover s (deficit * block.raw.toNat) sorted picked satisfied)) := by
  refine ⟨fun hnone => if_pos hnone, fun hdeficit haligned => ?_⟩
  have hcordoned : (s.cordoned.map (·.id)).Nodup := hd.sublist (List.filter_sublist.map _)
  obtain ⟨sorted, hsorted, hperm, hpairs⟩ :=
    exists_byUse_heavier hcordoned fun node hnode => (haligned node hnode).1
  refine ⟨sorted, hperm, hpairs, fun hfits => ?_⟩
  obtain ⟨picked, satisfied, hplan, hcover⟩ :=
    exists_pickToUncordon_shortestCover hsorted hdeficit haligned hfits
  exact ⟨picked, satisfied, hplan, fun node hnode => hperm.mem_iff.mp (hcover.front.subset hnode),
    ((hperm.map _).nodup_iff.mpr hcordoned).sublist (hcover.front.sublist.map _), hcover⟩

/-- What holds of the fronts of each arrangement of some nodes holds of those of every order. -/
theorem forall_front (nodes : List Node) (holds : List Node → Prop)
    (h : ∀ sorted ∈ nodes.permutations', ∀ front ∈ sorted.inits, holds front) :
    ∀ sorted, sorted.Perm nodes → ∀ front, front <+: sorted → holds front :=
  fun sorted hperm front hfront =>
    h sorted (List.mem_permutations'.mpr hperm) front ((List.mem_inits front sorted).mpr hfront)

/-- Three cordoned nodes, of which the most heavily loaded is overcommitted. -/
def ladenSnapshot : Snapshot where
  nodes := [⟨"a", 1000, true, none⟩, ⟨"b", 1000, true, none⟩, ⟨"c", 1000, true, none⟩]
  pods := [⟨"games/x", "a", 1500, false⟩, ⟨"games/y", "b", 300, false⟩]

theorem uncordons_least_cover_laden :
    (ladenSnapshot.nodes.map (·.id)).Nodup ∧
    (∀ node ∈ ladenSnapshot.cordoned, ladenSnapshot.Aligned node) ∧
    pickToUncordon ⟨100, by decide⟩ ladenSnapshot 2 =
      .ok ⟨[⟨"a", -500⟩, ⟨"b", 700⟩], true⟩ ∧
    ∃ sorted : List Node, sorted.Perm ladenSnapshot.cordoned ∧
      (sorted.map (·.id)).Pairwise (Heavier ladenSnapshot) ∧
      (∀ front, front <+: sorted →
        Word.Fits (2 * (100 : UInt64).toNat - (front.map ladenSnapshot.freeOn).sum)) ∧
      ∀ front, front <+: sorted → Covers ladenSnapshot (2 * (100 : UInt64).toNat) front →
        2 ≤ front.length := by
  have hd : (ladenSnapshot.nodes.map (·.id)).Nodup := by decide
  have haligned : ∀ node ∈ ladenSnapshot.cordoned, ladenSnapshot.Aligned node := by
    unfold Snapshot.Aligned
    decide
  have hplan : pickToUncordon ⟨100, by decide⟩ ladenSnapshot 2 =
      .ok ⟨[⟨"a", -500⟩, ⟨"b", 700⟩], true⟩ := by cbv
  obtain ⟨sorted, hperm, hpairs, h⟩ :=
    (uncordons_least_cover ⟨100, by decide⟩ ladenSnapshot 2 hd).2 (by decide) haligned
  have hfits := forall_front ladenSnapshot.cordoned (fun front =>
    Word.Fits (2 * (100 : UInt64).toNat - (front.map ladenSnapshot.freeOn).sum)) (by decide)
    sorted hperm
  obtain ⟨picked, satisfied, hpicked, -, -, hcover⟩ := h hfits
  obtain ⟨hcandidates, rfl⟩ := (UncordonPlan.mk.injEq ..).mp
    (Except.ok.inj (hplan.symm.trans hpicked))
  refine ⟨hd, haligned, hplan, sorted, hperm, hpairs, hfits, fun front hfront hcovers => ?_⟩
  have hlength := congrArg List.length hcandidates
  rw [List.length_map] at hlength
  exact hlength.le.trans (hcover.shortest rfl front hfront hcovers).length_le

/-- A cordoned node whose capacity passes 2^63, and a pod that requests little of it. -/
def vastState : State where
  nodes := [{ id := "n", capacity := some 9223372036854775813, unschedulable := true }]
  pods := [{ space := "games", name := "x", nodeId := some "n", request := 10 }]

/-- The snapshot of such a node. -/
def vastSnapshot : Snapshot where
  nodes := [⟨"n", 9223372036854775813, true, none⟩]
  pods := [⟨"games/x", "n", 10, false⟩]

/-- What the node has free, the need and their difference all have a place in the signed word. But
the capacity is read as a negative number, and there is no plan at all. -/
theorem vast_node_faults : Snapshot.ofState vastState {} = .ok vastSnapshot ∧
    (vastSnapshot.nodes.map (·.id)).Nodup ∧
    (∀ node ∈ vastSnapshot.cordoned, Word.Fits (vastSnapshot.freeOn node)) ∧
    (∀ sorted, sorted.Perm vastSnapshot.cordoned → ∀ front, front <+: sorted →
      Word.Fits (1 * (100 : UInt64).toNat - (front.map vastSnapshot.freeOn).sum)) ∧
    pickToUncordon ⟨100, by decide⟩ vastSnapshot 1 = .error .subtraction := by
  refine ⟨by cbv, by decide, by decide, forall_front _ _ (by decide), by cbv⟩

end Scaling

end Headroom
