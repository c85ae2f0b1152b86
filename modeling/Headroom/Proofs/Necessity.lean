import Headroom.Proofs.Convergence

/-! When the pool has to grow. A larger pool is asked for only where the target is missed with every
cordoned node opened again, so opening some of them would not have met it either. The exception are
choices that leave out nodes which are overcommitted as a whole: opening those lowers what is
spare. -/

namespace Headroom.Scaling

open Cluster (NodeRecord Protection Snapshot State Store)
open Procedure

variable {block : BlockSize} {config : Config} {store : Store}

/-! ### What a plan to add nodes says about the deficit -/

theorem unitsOf_pos_of_adds {deficit add : Int} {capacity : UInt64}
    (h : nodesToAdd block deficit capacity = .ok (some add)) (hadds : 0 < add) :
    0 < unitsOf block deficit := by
  by_contra hnone
  -- Without a need no node at all is enough.
  have hle : add ≤ 0 := (nodesToAdd_least h).2.2 (show unitsOf block deficit ≤ 0 * _ by omega)
  omega

theorem below_of_units_pos (hblock : config.block.raw.toNat < 2 ^ 63) {available : Int}
    (h : 0 < unitsOf config.block (config.deficit available)) : available < config.target := by
  by_contra habove
  have hdeficit : config.deficit available ≤ 0 := by
    unfold Config.deficit Word.clamp Word.least
    omega
  have hmul := mul_nonpos_of_nonpos_of_nonneg hdeficit (Int.natCast_nonneg config.block.raw.toNat)
  rw [unitsOf_eq hblock] at h
  unfold Word.clamp Word.least at h
  omega

/-- Where a larger pool is asked for, a snapshot shows that the target is missed. -/
theorem Asked.below {size : Nat} {world : Store} {plan : UncordonPlan} {available : Int}
    {larger : GrowthPlan} (h : Asked config store size world plan available larger)
    (hblock : config.block.raw.toNat < 2 ^ 63) : available < config.target := by
  obtain ⟨-, capacity, -, hadd⟩ := growthPlan_eq_some h.growth
  exact below_of_units_pos hblock (unitsOf_pos_of_adds hadd h.adds)

/-! ### What opening some nodes adds -/

/-- The cordoned nodes that are not among some ids. -/
def leftOut (store : Store) (ids : List String) : List NodeRecord :=
  store.state.cordoned.filter (·.id ∉ ids)

theorem spare_uncordon_eq (store : Store) (ids : List String) :
    (store.updateNodes ids NodeRecord.uncordon NodeRecord.id_uncordon).state.spare =
      ((store.state.nodes.filter fun node => decide (node.id ∈ ids) || !node.unschedulable).map
        store.state.freeOn).sum := by
  have hopen : (store.updateNodes ids NodeRecord.uncordon NodeRecord.id_uncordon).state.schedulable
      = (store.state.nodes.filter fun node => decide (node.id ∈ ids) || !node.unschedulable).map
        fun node => if node.id ∈ ids then node.uncordon else node := by
    have hrows := @Store.rows_updateNodes store ids _ NodeRecord.id_uncordon
    rw [State.schedulable, show (store.updateNodes ids NodeRecord.uncordon
      NodeRecord.id_uncordon).state.nodes = _ from hrows, List.filter_map]
    refine congrArg _ (List.filter_congr fun node _ => ?_)
    by_cases hid : node.id ∈ ids <;> simp [hid]
  rw [State.spare, hopen, List.map_map]
  refine congrArg List.sum (List.map_congr_left fun node _ => ?_)
  by_cases hid : node.id ∈ ids
  · simp only [Function.comp_apply, if_pos hid]
    rfl
  · simp only [Function.comp_apply, if_neg hid]
    rfl

/-- Opened nodes and those left out account together for all nodes. -/
theorem spare_uncordon_add (store : Store) (ids : List String) :
    (store.updateNodes ids NodeRecord.uncordon NodeRecord.id_uncordon).state.spare +
      ((leftOut store ids).map store.state.freeOn).sum =
      (store.state.nodes.map store.state.freeOn).sum := by
  have hleft : leftOut store ids = store.state.nodes.filter
      fun node => !(decide (node.id ∈ ids) || !node.unschedulable) := by
    rw [leftOut, State.cordoned, List.filter_filter]
    refine List.filter_congr fun node _ => ?_
    by_cases hid : node.id ∈ ids <;> simp [hid]
  have hsplit := List.filter_append_perm
    (fun node : NodeRecord => decide (node.id ∈ ids) || !node.unschedulable) store.state.nodes
  rw [spare_uncordon_eq, hleft, ← List.sum_append, ← List.map_append]
  exact (hsplit.map _).sum_eq

theorem moderate_updateNodes (h : store.state.Moderate) {ids : List String}
    {f : NodeRecord → NodeRecord} (hf : ∀ node, (f node).id = node.id)
    (hcapacity : ∀ node, (f node).capacity = node.capacity) :
    (store.updateNodes ids f hf).state.Moderate :=
  ⟨(totalCapacity_updateNodes hf hcapacity).trans_lt h.capacity, h.requests⟩

theorem Asked.leftOut_eq_nil {size : Nat} {world : Store} {plan : UncordonPlan} {available : Int}
    {larger : GrowthPlan} (h : Asked config store size world plan available larger) :
    leftOut store plan.ids = [] := by
  obtain ⟨deficit, hdeficit, hplan⟩ := h.planned
  refine List.filter_eq_nil_iff.mpr fun node hnode => ?_
  simpa using mem_uncordon_of_misses hplan hdeficit h.misses hnode

/-! ### The necessity of growth -/

/-- Let a reconciliation ask for a larger pool, with the block and the totals of the store below
2^63. Take some of the nodes that are cordoned at its start, such that those left out hold
together no more requests than their capacity. Had these nodes been opened, a snapshot would still
have counted fewer spare blocks than the target asks for. -/
theorem growth_needed (config : Config) (pool : Command → Store → Store) (now later : Instant)
    (rule : Protection) {store world : Store} {size : Nat} {ids : List String}
    (hblock : config.block.raw.toNat < 2 ^ 63) (hm : store.state.Moderate)
    (hasked : (.increaseToSize size, world) ∈
      (tick config now later).issued (clusterBackend pool) store)
    (hleft : ((leftOut store ids).map fun node => store.state.load node.id).sum ≤
      ((leftOut store ids).map NodeRecord.offer).sum) :
    ∃ s blocks, Snapshot.ofState
        (store.updateNodes ids NodeRecord.uncordon NodeRecord.id_uncordon).state rule = .ok s ∧
      s.availableBlocks config.block = .ok blocks ∧ blocks < config.target := by
  have hscales : (.increaseToSize size, world) ∈
      (adjust config now).issued (clusterBackend pool) store := by
    rcases mem_issued_bind.mp hasked with h | ⟨_, _, -, h⟩
    · exact h
    · rcases mem_issued_bind.mp h with h | ⟨_, _, -, h⟩
      · exact absurd rfl ((reap_only config later).mem_issued _ h size)
      · exact absurd h List.not_mem_nil
  obtain ⟨plan, available, larger, hasked⟩ := exists_asked hscales
  -- Whatever is opened, a snapshot counts the spare capacity exactly.
  have hcounts : ∀ (opened : List String) (rule : Protection),
      let after := store.updateNodes opened NodeRecord.uncordon NodeRecord.id_uncordon
      (after.state.snapshot rule).availableBlocks config.block =
        .ok (after.state.spare / config.block.raw.toNat) := fun opened rule =>
    State.availableBlocks_snapshot (State.distinct_of_store _)
      (moderate_updateNodes hm _ NodeRecord.capacity_uncordon) hblock
  have hmissed := hasked.below hblock
  have hall := spare_uncordon_add store plan.ids
  have hsome := spare_uncordon_add store ids
  rw [hasked.leftOut_eq_nil, List.map_nil, List.sum_nil, add_zero] at hall
  have hworld := hasked.blocks
  rw [hasked.opened, hcounts] at hworld
  obtain rfl := Except.ok.inj hworld
  have hfree : 0 ≤ ((leftOut store ids).map store.state.freeOn).sum := by
    rw [State.sum_freeOn]
    omega
  refine ⟨_, _, State.ofState_eq_ok_iff.mpr ⟨?_, rfl⟩, hcounts ids rule, ?_⟩
  · intro node hnode
    obtain ⟨old, hold, rfl⟩ := List.mem_map.mp hnode
    have hknown := (mem_issued_capture_bind.mp hscales).1 old hold
    split
    · exact hknown
    · exact hknown
  · exact (Int.ediv_le_ediv config.block_pos (by omega)).trans_lt hmissed

theorem exists_world_of_commands {α σ : Type} {backend : Backend σ} {p : Procedure α} {world : σ}
    {command : Command} (h : command ∈ (p.issued backend world).map Prod.fst) :
    ∃ met, (command, met) ∈ p.issued backend world := by
  obtain ⟨⟨_, met⟩, hcall, rfl⟩ := List.mem_map.mp h
  exact ⟨met, hcall⟩

/-- Five blocks of a fifth of a processor spare. -/
def fiveConfig : Config :=
  { smallConfig with block := ⟨200, by decide⟩, target := 5, target_le := by decide }

/-- A node that is full, and two that are cordoned and about half full. -/
def scarceStore : Store := .ofState {
  nodes := [
    { id := "a", capacity := some 1000 },
    { id := "b", capacity := some 1000, unschedulable := true,
      annotations := .ofList [(Cluster.cordonKey, "2023-11-14T11:55:00Z")] },
    { id := "c", capacity := some 1000, unschedulable := true,
      annotations := .ofList [(Cluster.cordonKey, "2023-11-14T11:55:00Z")] }]
  pods := [
    { space := "games", name := "x", nodeId := some "a", request := 1000 },
    { space := "games", name := "y", nodeId := some "b", request := 450 },
    { space := "games", name := "z", nodeId := some "c", request := 600 }] }

set_option maxRecDepth 10000 in
theorem scarce_issued : ((tick fiveConfig smallNow).issued (NodeShape.backend {})
    scarceStore).map Prod.fst = [.uncordon "c", .uncordon "b", .increaseToSize 4] := by cbv

/-- Both cordoned nodes are opened in vain, and to open only one of them would have been too. -/
theorem growth_needed_scarce : scarceStore.state.Moderate ∧
    Command.increaseToSize 4 ∈ ((tick fiveConfig smallNow).issued (NodeShape.backend {})
      scarceStore).map Prod.fst ∧
    (leftOut scarceStore ["b"]).map (·.id) = ["c"] ∧
    ((leftOut scarceStore ["b"]).map fun node => scarceStore.state.load node.id).sum ≤
      ((leftOut scarceStore ["b"]).map NodeRecord.offer).sum ∧
    ∃ s blocks, Snapshot.ofState
        (scarceStore.updateNodes ["b"] NodeRecord.uncordon NodeRecord.id_uncordon).state {} =
          .ok s ∧
      s.availableBlocks fiveConfig.block = .ok blocks ∧ blocks < fiveConfig.target := by
  have hm : scarceStore.state.Moderate := ⟨by decide, by decide⟩
  have hasked : Command.increaseToSize 4 ∈ ((tick fiveConfig smallNow).issued
      (NodeShape.backend {}) scarceStore).map Prod.fst := by
    rw [scarce_issued]
    decide
  have hleft : ((leftOut scarceStore ["b"]).map fun node => scarceStore.state.load node.id).sum ≤
      ((leftOut scarceStore ["b"]).map NodeRecord.offer).sum := by decide
  obtain ⟨world, hcall⟩ := exists_world_of_commands hasked
  exact ⟨hm, hasked, by decide, hleft, growth_needed fiveConfig (NodeShape.pool {}) smallNow
    smallNow {} (by decide) hm hcall hleft⟩

/-- A node that is full, and two that are cordoned: one that is overcommitted and one that is
idle. -/
def strainedStore : Store := .ofState {
  nodes := [
    { id := "a", capacity := some 1000 },
    { id := "b", capacity := some 1000, unschedulable := true,
      annotations := .ofList [(Cluster.cordonKey, "2023-11-14T11:55:00Z")] },
    { id := "c", capacity := some 1000, unschedulable := true,
      annotations := .ofList [(Cluster.cordonKey, "2023-11-14T11:55:00Z")] }]
  pods := [
    { space := "games", name := "x", nodeId := some "a", request := 1000 },
    { space := "games", name := "y", nodeId := some "b", request := 1500 }] }

set_option maxRecDepth 10000 in
/-- The idle node alone holds the target, but the overcommitted one is opened before it and takes
half of that away, so the pool is enlarged. -/
theorem growth_avoidable : Homogeneous {} strainedStore ∧ InRange fiveConfig strainedStore ∧
    Command.increaseToSize 4 ∈ ((tick fiveConfig smallNow).issued (NodeShape.backend {})
      strainedStore).map Prod.fst ∧
    (∃ node ∈ strainedStore.state.cordoned, node.id = "c") ∧
    ∃ s, Snapshot.ofState (strainedStore.updateNodes ["c"] NodeRecord.uncordon
        NodeRecord.id_uncordon).state {} = .ok s ∧
      s.availableBlocks fiveConfig.block = .ok fiveConfig.target := by
  refine ⟨⟨by decide, by decide, by unfold Store.Uniform; decide, by decide⟩,
    by constructor <;> decide, ?_, by decide, ?_⟩
  · have hissued : ((tick fiveConfig smallNow).issued (NodeShape.backend {})
        strainedStore).map Prod.fst = [.uncordon "b", .uncordon "c", .increaseToSize 4] := by cbv
    rw [hissued]
    decide
  · refine ⟨_, State.ofState_eq_ok_iff.mpr ⟨by decide, rfl⟩, ?_⟩
    cbv

end Headroom.Scaling
