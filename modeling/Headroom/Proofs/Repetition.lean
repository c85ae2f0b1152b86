import Headroom.Proofs.Grace
import Headroom.Proofs.Stability

/-! Reconciling a settled pool twice. The second reconciliation has nothing to do if the first has
deleted none of the nodes that it selected, and if those that it cordoned were not overcommitted. A
node that was selected and then deleted makes room in the selection for another, and an overcommitted
node that is cordoned leaves more spare capacity than there was before. -/

namespace Headroom.Scaling

open Cluster (NodeRecord Protection Snapshot State Store)
open Procedure

variable {config : Config} {shape : NodeShape} {now later : Instant} {store store' : Store}

/-- If the front of a list passes a test, the front of what passes it is no other. -/
theorem take_filter_subset {α : Type} {l : List α} {p : α → Bool} {k m : Nat} (hk : k ≤ m)
    (h : ∀ a ∈ l.take m, p a = true) : (l.filter p).take k ⊆ l.take m := by
  intro a ha
  by_cases hm : m ≤ l.length
  · have hsplit : l.filter p = l.take m ++ (l.drop m).filter p := by
      rw [← List.filter_eq_self.mpr h, ← List.filter_append, List.take_append_drop]
    have hlength : k ≤ (l.take m).length := by
      rw [List.length_take]
      omega
    rw [hsplit, List.take_append_of_le_length hlength] at ha
    exact List.mem_of_mem_take ha
  · rw [List.take_of_length_le (by omega)]
    exact (List.mem_filter.mp (List.mem_of_mem_take ha)).1

theorem exists_of_mem_ids {rule : Protection} {id : String}
    (h : id ∈ (store.state.snapshot rule).nodes.map (·.id)) :
    ∃ node ∈ store.state.nodes, node.id = id := by
  rw [((store.state.nodes_snapshot_perm rule).map _).mem_iff, List.map_map] at h
  exact List.mem_map.mp h

/-! ### What a tightening leaves -/

namespace Tightened

variable {commands : List Command} {ids deleted : List String}

theorem ids_eq (h : Tightened config now later store commands store' ids deleted) :
    store'.nodes.rows.map (·.id) =
      (store.nodes.rows.map (·.id)).filter (fun id => decide (id ∉ deleted)) := by
  have hcordons := @Store.ids_updateNodes store ids (·.cordon now) (NodeRecord.id_cordon · now)
  rw [h.store_eq, ← hcordons, List.filter_map]
  rfl

theorem podsOn_eq (h : Tightened config now later store commands store' ids deleted) {id : String}
    (hid : id ∉ deleted) : store'.state.podsOn id = store.state.podsOn id := by
  rw [h.store_eq, Store.podsOn_dropNodes hid]
  rfl

/-! A snapshot that is taken afterwards shows the nodes that are left, each with as many pods. -/

theorem snapshot_ids (h : Tightened config now later store commands store' ids deleted)
    (rule : Protection) : ((store'.state.snapshot rule).nodes.map (·.id)).Perm
      (((store.state.snapshot rule).nodes.map (·.id)).filter
        fun id => decide (id ∉ deleted)) := by
  have hnew := (store'.state.nodes_snapshot_perm rule).map (·.id)
  have hold := (store.state.nodes_snapshot_perm rule).map (·.id)
  rw [List.map_map] at hnew hold
  exact hnew.trans ((List.Perm.of_eq h.ids_eq).trans (hold.filter _).symm)

theorem snapshot_podsOn (h : Tightened config now later store commands store' ids deleted)
    (rule : Protection) : ∀ id ∈ (store'.state.snapshot rule).nodes.map (·.id),
      ((store'.state.snapshot rule).podsOn id).length =
        ((store.state.snapshot rule).podsOn id).length := by
  intro id hid
  obtain ⟨hthere, hleft⟩ := List.mem_filter.mp ((h.snapshot_ids rule).mem_iff.mp hid)
  rw [State.podsOn_snapshot (exists_of_mem_ids hid), State.podsOn_snapshot
    (exists_of_mem_ids hthere), List.length_map, List.length_map, h.podsOn_eq (by simpa using hleft)]

theorem capacityProxy (h : Tightened config now later store commands store' ids deleted)
    (huniform : store.Uniform shape) (rule : Protection) (capacity : UInt64)
    (hsome : (store'.state.snapshot rule).capacityProxy? = some capacity) :
    (store.state.snapshot rule).capacityProxy? = some capacity := by
  have huniform' : store'.Uniform shape := by
    rw [h.store_eq]
    exact (huniform.updateNodes _ (NodeRecord.capacity_cordon · now)).dropNodes deleted
  obtain rfl := (huniform'.capacityProxy rule).2 capacity hsome
  obtain ⟨view, hview, -⟩ := Option.map_eq_some_iff.mp hsome
  have hid := List.mem_map_of_mem (f := (·.id)) (List.mem_of_mem_head? hview)
  obtain ⟨node, hnode, -⟩ :=
    exists_of_mem_ids (List.mem_filter.mp ((h.snapshot_ids rule).mem_iff.mp hid)).1
  exact (huniform.capacityProxy rule).1 (List.ne_nil_of_mem hnode)

/-- What is spare afterwards, and what was free on the nodes cordoned, was spare before. -/
theorem spare_eq (h : Tightened config now later store commands store' ids deleted)
    (huniform : store.Uniform shape) :
    store.state.spare = store.freeUnder shape ids + store'.state.spare := by
  have hcordoned : Store.Uniform shape
      (store.updateNodes ids (·.cordon now) (NodeRecord.id_cordon · now)) :=
    huniform.updateNodes _ (NodeRecord.capacity_cordon · now)
  rw [h.store_eq, h.reaped.spare_eq hcordoned]
  exact huniform.spare_cordon now h.nodup h.opened

theorem not_reapable (h : Tightened config now later store commands store' ids deleted)
    {node : NodeRecord} (hnode : node ∈ store'.nodes.rows) :
    ¬ Reapable config store' later node := by
  intro hreap
  rw [h.store_eq] at hnode hreap
  obtain ⟨hrow, hkept⟩ := h.reaped.mem_nodes.mp hnode
  have hleft : node.id ∉ deleted := (Store.mem_nodes_dropNodes.mp hnode).2
  -- Pods go only with deleted nodes, so none that was on this one has gone.
  refine hkept ⟨hreap.cordoned, hreap.overdue, fun pod hpod hbound => ?_⟩
  refine hreap.unprotected pod (Store.mem_pods_dropNodes.mpr ⟨hpod, fun id hid heq => ?_⟩) hbound
  obtain rfl := Option.some.inj (hbound.symm.trans heq)
  exact hleft hid

theorem barred (h : Tightened config now later store commands store' ids deleted)
    {node : NodeRecord} (hnode : node ∈ store'.nodes.rows)
    (hids : node.id ∈ store.openNodes → node.id ∈ ids) : node.unschedulable = true := by
  rw [h.store_eq] at hnode
  obtain ⟨old, hold, rfl⟩ := List.mem_map.mp (Store.mem_nodes_dropNodes.mp hnode).1
  by_cases hid : old.id ∈ ids
  · rw [if_pos hid]
    exact NodeRecord.unschedulable_cordon old now
  · rw [if_neg hid] at hids ⊢
    by_contra hopen
    exact hid (hids ((Store.mem_openNodes_of_mem hold).mpr (by simpa using hopen)))

end Tightened

/-! ### The second selection -/

theorem exists_of_mem_selected {id : String} (hid : id ∈ selected config store) :
    ∃ node ∈ store.nodes.rows, node.id = id := by
  obtain ⟨view, hview, rfl⟩ := List.mem_map.mp hid
  have hnode := (byPodCount_perm _ _).mem_iff.mp (List.mem_of_mem_take hview)
  exact exists_of_mem_ids (List.mem_map_of_mem hnode)

theorem mem_shed_of_open {id : String} (hid : id ∈ selected config store)
    (hopen : id ∈ store.openNodes) : id ∈ shed config store := by
  obtain ⟨node, hrow, hflag, rfl⟩ := Store.mem_openNodes.mp hopen
  refine List.mem_filter.mpr ⟨hid, ?_⟩
  rw [node?_snapshot (State.distinct_of_store store) hrow]
  simpa using hflag

/-- With no more to spare and all of the selected nodes left, nothing else is selected. -/
theorem selected_subset {commands : List Command} {ids deleted : List String}
    (h : Tightened config now later store commands store' ids deleted)
    (huniform : store.Uniform shape) (hblock : config.block.raw.toNat < 2 ^ 63)
    (hspare : store'.state.spare ≤ store.state.spare)
    (hkept : ∀ id ∈ selected config store, id ∉ deleted) :
    selected config store' ⊆ selected config store := by
  have hfewer : store'.state.spare / config.block.raw.toNat - config.target ≤
      store.state.spare / config.block.raw.toNat - config.target :=
    sub_le_sub_right (Int.ediv_le_ediv config.block_pos hspare) _
  have hcount := allowance_mono hblock (h.capacityProxy huniform config.protection) hfewer
  unfold selected at hkept ⊢
  simp only [List.map_take] at hkept ⊢
  rw [ids_byPodCount_filter (h.snapshot_ids config.protection)
    (h.snapshot_podsOn config.protection)]
  exact take_filter_subset hcount fun id hid => by simpa using hkept id hid

/-- Two reconciliations follow one another at one reading of the clock, on a pool of equal nodes
that has the target spare to begin with. If the first deletes none of the nodes that are selected
for the surplus, and the nodes that it cordons hold no more than their capacity, then the second
issues no command. -/
theorem second_tick_idle {blocks : Int} {s : Snapshot} {picked : List String}
    {first second : Report} {middle final : Store} (huniform : store.Uniform shape)
    (hrange : InRange config store) (hs : Snapshot.ofState store.state config.protection = .ok s)
    (hblocks : s.availableBlocks config.block = .ok blocks) (htarget : config.target ≤ blocks)
    (hfirst : (tick config now).run shape.backend store = (.ok first, middle))
    (hsecond : (tick config now).run shape.backend middle = (.ok second, final))
    (hpicked : pickToCordon config.block s (blocks - config.target) = .ok picked)
    (hkept : ∀ id ∈ picked, id ∉ first.deleted)
    (hload : 0 ≤ store.freeUnder shape first.outcome.cordoned) :
    (tick config now).issued shape.backend middle = [] := by
  obtain ⟨-, rfl⟩ := State.ofState_eq_ok_iff.mp hs
  obtain rfl := Except.ok.inj ((hrange.blocks config.protection).symm.trans hblocks)
  obtain rfl := Except.ok.inj ((pickToCordon_eq config.block _ _).symm.trans hpicked)
  have hsettled : Settled config shape store :=
    ⟨huniform, hrange, (Int.le_ediv_iff_mul_le config.block_pos).mp htarget⟩
  obtain ⟨hcourse, hcordoned⟩ := hsettled.tightened (completes_of_run hfirst)
  obtain ⟨hagain, -⟩ := (hcourse.settled hsettled).tightened (completes_of_run hsecond)
  have hspare := hcourse.spare_eq huniform
  rw [hcordoned] at hload
  have hsubset := selected_subset hcourse huniform hrange.block (by omega) hkept
  have hnone : shed config middle = [] := by
    refine List.filter_eq_nil_iff.mpr fun id hid => ?_
    obtain ⟨node, hrow, rfl⟩ := exists_of_mem_selected hid
    have hbarred := hcourse.barred hrow (mem_shed_of_open (hsubset hid))
    rw [node?_snapshot (State.distinct_of_store middle) hrow]
    simpa using hbarred
  have hundeleted : second.deleted = [] := by
    refine List.eq_nil_iff_forall_not_mem.mpr fun id hid => ?_
    obtain ⟨node, hnode, hreap, -⟩ := (hagain.reaped.mem_iff id).mp hid
    rw [hnone, Store.updateNodes_nil] at hnode hreap
    exact hcourse.not_reapable hnode hreap
  have hcommands := hagain.commands_eq
  rw [hnone, hundeleted] at hcommands
  exact List.map_eq_nil_iff.mp hcommands

set_option maxRecDepth 10000 in
/-- The first reconciliation cordons the selected node and deletes another. -/
theorem second_tick_idle_small :
    Store.Uniform {} smallStore ∧ InRange pairConfig smallStore ∧
    pickToCordon pairConfig.block (smallStore.state.snapshot {}) 10 = .ok ["a"] ∧
    ((tick pairConfig pairNow).run (NodeShape.backend {}) smallStore).1 =
      .ok ⟨20, 10, .shrunk ["a"], ["b"]⟩ ∧
    ((tick pairConfig pairNow).issued (NodeShape.backend {})
      ((tick pairConfig pairNow).run (NodeShape.backend {}) smallStore).2) = [] := by
  have huniform : Store.Uniform {} smallStore := by unfold Store.Uniform; decide
  have hrange : InRange pairConfig smallStore := by constructor <;> decide
  have hs : Snapshot.ofState smallStore.state {} = .ok (smallStore.state.snapshot {}) :=
    State.ofState_eq_ok_iff.mpr ⟨by decide, rfl⟩
  have hblocks : (smallStore.state.snapshot {}).availableBlocks pairConfig.block = .ok 20 := by cbv
  have hpicked : pickToCordon pairConfig.block (smallStore.state.snapshot {}) 10 = .ok ["a"] := by
    cbv
  have hfirst : ((tick pairConfig pairNow).run (NodeShape.backend {}) smallStore).1 =
      .ok ⟨20, 10, .shrunk ["a"], ["b"]⟩ := by cbv
  have hsecond : ((tick pairConfig pairNow).run (NodeShape.backend {})
      ((tick pairConfig pairNow).run (NodeShape.backend {}) smallStore).2).1 =
        .ok ⟨10, 10, .unchanged, []⟩ := by cbv
  refine ⟨huniform, hrange, hpicked, hfirst, ?_⟩
  exact second_tick_idle huniform hrange hs hblocks (by decide) (Prod.ext hfirst rfl)
    (Prod.ext hsecond rfl) hpicked (by decide) (by decide)

/-- A node that was cordoned long ago and two open ones, all without pods. -/
def staleStore : Store := .ofState {
  nodes := [
    { id := "a", capacity := some 1000, unschedulable := true,
      annotations := .ofList [(Cluster.cordonKey, "2023-01-01T00:00:00Z")] },
    { id := "b", capacity := some 1000 },
    { id := "c", capacity := some 1000 }] }

/-- Three nodes with a pod each, the first of which requests twice what its node has. -/
def crowdedStore : Store := .ofState {
  nodes := [
    { id := "a", capacity := some 1000 },
    { id := "b", capacity := some 1000 },
    { id := "c", capacity := some 1000 }]
  pods := [
    { space := "games", name := "x", nodeId := some "a", request := 2000 },
    { space := "games", name := "y", nodeId := some "b" },
    { space := "games", name := "z", nodeId := some "c" }] }

def zeroConfig : Config := { smallConfig with target := 0, target_le := by decide }

set_option maxRecDepth 10000 in
/-- The second of two reconciliations cordons a node: in one pool because the first has deleted the
node that it selected, in another because the first has cordoned an overcommitted node. -/
theorem second_tick_cordons :
    (Homogeneous {} staleStore ∧ InRange pairConfig staleStore ∧
      ((tick pairConfig pairNow).run (NodeShape.backend {}) staleStore).1 =
        .ok ⟨20, 10, .unchanged, ["a"]⟩ ∧
      ((tick pairConfig pairNow).run (NodeShape.backend {})
        ((tick pairConfig pairNow).run (NodeShape.backend {}) staleStore).2).1 =
          .ok ⟨20, 10, .shrunk ["b"], []⟩ ∧
      ((tick pairConfig pairNow).issued (NodeShape.backend {})
        ((tick pairConfig pairNow).run (NodeShape.backend {}) staleStore).2).map Prod.fst =
          [.cordon "b" pairNow]) ∧
    Homogeneous {} crowdedStore ∧ InRange zeroConfig crowdedStore ∧
    ((tick zeroConfig pairNow).run (NodeShape.backend {}) crowdedStore).1 =
      .ok ⟨10, 0, .shrunk ["a"], []⟩ ∧
    ((tick zeroConfig pairNow).run (NodeShape.backend {})
      ((tick zeroConfig pairNow).run (NodeShape.backend {}) crowdedStore).2).1 =
        .ok ⟨20, 0, .shrunk ["b"], []⟩ ∧
    ((tick zeroConfig pairNow).issued (NodeShape.backend {})
      ((tick zeroConfig pairNow).run (NodeShape.backend {}) crowdedStore).2).map Prod.fst =
        [.cordon "b" pairNow] := by
  have hstale : Homogeneous {} staleStore := by
    refine ⟨by decide, by decide, ?_, by decide⟩
    unfold Store.Uniform
    decide
  have hcrowded : Homogeneous {} crowdedStore := by
    refine ⟨by decide, by decide, ?_, by decide⟩
    unfold Store.Uniform
    decide
  refine ⟨⟨hstale, ?_, by cbv, by cbv, by cbv⟩, hcrowded, ?_, by cbv, by cbv, by cbv⟩
  · constructor <;> decide
  · constructor <;> decide

end Headroom.Scaling
