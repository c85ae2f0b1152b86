import Headroom.Proofs.Difference
import Headroom.Proofs.Uniform

/-! A pool of equal nodes meets its target after one complete reconciliation. Rounding never works
against it: a deficit is counted up to whole blocks and nodes, a surplus down, and reaping takes
only nodes that count for nothing. -/

namespace Headroom.Scaling

open Cluster (NodeRecord Protection Snapshot State Store)
open Procedure

variable {config : Config} {shape : NodeShape} {now later : Instant} {store store' : Store}

/-- A pool with nodes, which all offer the positive capacity of the shape, and with no pod bound to
a node that is not there. -/
structure Homogeneous (shape : NodeShape) (store : Store) : Prop where
  nonempty : store.nodes.rows ≠ []
  positive : 0 < shape.capacity.toNat
  uniform : store.Uniform shape
  bound : ∀ pod ∈ store.pods.rows, ∀ id, pod.nodeId = some id → store.nodes.contains id = true

/-- A block, the totals of a store and the capacity that is to be kept stay below 2^63. -/
structure InRange (config : Config) (store : Store) : Prop where
  block : config.block.raw.toNat < 2 ^ 63
  capacity : store.state.totalCapacity < 2 ^ 63
  requests : store.state.totalRequests < 2 ^ 63
  need : config.target * config.block.raw.toNat + store.state.totalRequests +
    config.block.raw.toNat < 2 ^ 63

/-- The spare capacity holds the target. -/
def Meets (config : Config) (store : Store) : Prop :=
  (config.target * config.block.raw.toNat : Int) ≤ store.state.spare

theorem Config.block_pos (config : Config) : (0 : Int) < config.block.raw.toNat := by
  exact_mod_cast config.block.pos

/-- In range, a snapshot counts the exact number of spare blocks. -/
theorem InRange.blocks (h : InRange config store) (rule : Protection) :
    (store.state.snapshot rule).availableBlocks config.block =
      .ok (store.state.spare / config.block.raw.toNat) :=
  State.availableBlocks_snapshot (State.distinct_of_store store) ⟨h.capacity, h.requests⟩ h.block

/-! ### Rounding -/

/-- The deficit in units fills the spare capacity up to the target, and is less than a block more
than what is missing. -/
theorem unitsOf_deficit (h : InRange config store) :
    (config.target * config.block.raw.toNat : Int) ≤ store.state.spare + unitsOf config.block
      (config.deficit (store.state.spare / config.block.raw.toNat)) ∧
    (store.state.spare / config.block.raw.toNat < config.target →
      unitsOf config.block (config.deficit (store.state.spare / config.block.raw.toNat)) <
        config.target * config.block.raw.toNat - store.state.spare + config.block.raw.toNat) := by
  have hspare := (State.distinct_of_store store).least_spare
  have hneed : (config.target * config.block.raw.toNat : Int) + store.state.totalRequests +
      config.block.raw.toNat < 2 ^ 63 := by exact_mod_cast h.need
  have hpos := config.block_pos
  have hfloor := Int.ediv_mul_le store.state.spare (ne_of_gt hpos)
  have hceil := Int.lt_ediv_add_one_mul_self store.state.spare hpos
  unfold Config.deficit
  generalize store.state.spare / (config.block.raw.toNat : Int) = blocks at *
  have hmissing : (config.target - blocks) * (config.block.raw.toNat : Int) =
      config.target * config.block.raw.toNat - blocks * config.block.raw.toNat := sub_mul _ _ _
  rw [add_one_mul] at hceil
  -- Rounding down loses less than a block, so the range leaves room for the whole deficit.
  obtain ⟨hfull, hexact⟩ := unitsOf_clamp h.block
    (by unfold Word.greatest; omega : (config.target - blocks) * _ ≤ Word.greatest)
  refine ⟨by omega, fun hbelow => ?_⟩
  rw [hexact (by omega)]
  omega

/-! ### The branches of scaling -/

theorem meets_of_uncordon (huniform : store.Uniform shape) (hrange : InRange config store)
    (below : store.state.spare / config.block.raw.toNat < config.target) {plan : UncordonPlan}
    (planned : pickToUncordon config.block (store.state.snapshot config.protection)
      (config.deficit (store.state.spare / config.block.raw.toNat)) = .ok plan)
    (covers : plan.satisfied = true) :
    Meets config (store.updateNodes plan.ids NodeRecord.uncordon NodeRecord.id_uncordon) := by
  have hd := State.distinct_of_store store
  have hdeficit := Config.deficit_pos below
  obtain ⟨hfills, hless⟩ := unitsOf_deficit hrange
  have hless := hless below
  have hneed : (config.target * config.block.raw.toNat : Int) + store.state.totalRequests +
      config.block.raw.toNat < 2 ^ 63 := by exact_mod_cast hrange.need
  have hfree : ∀ node ∈ (store.state.snapshot config.protection).cordoned,
      (store.state.snapshot config.protection).free node =
        .ok (shape.capacity.toNat - store.state.load node.id : Int) ∧
      -(store.state.load node.id : Int) ≤ shape.capacity.toNat - store.state.load node.id := by
    intro node hnode
    obtain ⟨record, hrecord, rfl⟩ := State.exists_of_mem_cordoned_snapshot hnode
    have hrow := (State.mem_cordoned.mp hrecord).1
    rw [State.free_snapshot ⟨hrange.capacity, hrange.requests⟩ hrow, huniform.freeOn hrow]
    exact ⟨rfl, by rw [NodeRecord.id_view]; omega⟩
  -- An overcommitted node raises the need. All of them together raise it by no more than what is
  -- requested on them, which the range allows for.
  have hload : (((store.state.snapshot config.protection).cordoned.map fun node =>
      store.state.load node.id).sum : Int) ≤ store.state.spare + store.state.totalRequests := by
    rw [((store.state.cordoned_snapshot_perm config.protection).map _).sum_eq, List.map_map]
    exact hd.sum_load_cordoned_le
  obtain ⟨picked, hids, hcovered⟩ := pickToUncordon_covers planned hdeficit
    (unitsOf_pos hrange.block hdeficit) hfree (by unfold Word.greatest; omega) covers
  have hfreed : store.freeUnder shape plan.ids =
      (picked.map fun node => (shape.capacity.toNat - store.state.load node.id : Int)).sum := by
    rw [Store.freeUnder, hids, List.map_map]
    rfl
  rw [Meets, huniform.spare_uncordon (nodup_uncordon hd planned hdeficit)
    fun id hid => exists_of_mem_uncordon planned hdeficit hid, hfreed]
  omega

theorem Homogeneous.capacity_lt (hpool : Homogeneous shape store) (hrange : InRange config store) :
    store.nodes.size < 2 ^ 63 ∧ shape.capacity.toNat < 2 ^ 63 := by
  have hcapacity := hrange.capacity
  rw [hpool.uniform.totalCapacity] at hcapacity
  have hsize : 0 < store.nodes.size := List.length_pos_iff.mpr hpool.nonempty
  exact ⟨(Nat.le_mul_of_pos_right _ hpool.positive).trans_lt hcapacity,
    (Nat.le_mul_of_pos_left _ hsize).trans_lt hcapacity⟩

/-- The nodes added hold what is missing. -/
theorem added_covers (hpool : Homogeneous shape store) (hrange : InRange config store)
    {calls : List (Command × Store)} {added : Nat}
    (h : Enlarged config shape.pool store calls added store') :
    unitsOf config.block (config.deficit (store.state.spare / config.block.raw.toNat)) ≤
      added * shape.capacity.toNat := by
  obtain ⟨hproxy, hknown⟩ := hpool.uniform.capacityProxy config.protection
  have hblocks := hrange.blocks config.protection
  have hcovers : ∀ {plan : GrowthPlan},
      growthPlan config.block (store.state.snapshot config.protection)
        (config.deficit (store.state.spare / config.block.raw.toNat)) = .ok (some plan) →
      unitsOf config.block (config.deficit (store.state.spare / config.block.raw.toNat)) ≤
        plan.add * shape.capacity.toNat := by
    intro plan planned
    obtain ⟨-, capacity, hcapacity, hadd⟩ := growthPlan_eq_some planned
    obtain rfl := hknown capacity hcapacity
    exact (nodesToAdd_least hadd).2.1
  cases h with
  | unplanned blocks planned =>
    -- This branch is for an empty pool or an unusable capacity, and here is neither.
    have hnone := growthPlan_eq_none planned _ (hproxy hpool.nonempty)
    have hsome := divisor?_eq_some_iff.mpr ⟨hpool.positive, by
      have := (hpool.capacity_lt hrange).2
      unfold Word.greatest
      omega, rfl⟩
    simp [hsome] at hnone
  | sufficient blocks planned noop =>
    obtain rfl := Except.ok.inj (hblocks.symm.trans blocks)
    refine (hcovers planned).trans ?_
    rw [Nat.cast_zero, zero_mul]
    exact mul_nonpos_of_nonpos_of_nonneg noop (Int.natCast_nonneg _)
  | asked blocks planned adds =>
    obtain rfl := Except.ok.inj (hblocks.symm.trans blocks)
    rw [Int.toNat_of_nonneg adds.le]
    exact hcovers planned

theorem meets_of_enlarged (hpool : Homogeneous shape store) (hrange : InRange config store)
    (hopen : ∀ node ∈ store.nodes.rows, node.unschedulable = false) {calls : List (Command × Store)}
    {added : Nat} (h : Enlarged config shape.pool store calls added store') :
    Meets config store' := by
  obtain ⟨hfills, -⟩ := unitsOf_deficit hrange
  have hcovers := added_covers hpool hrange h
  obtain ⟨numbers, rfl, hgrowth⟩ := growth_of_enlarged hopen (hpool.capacity_lt hrange).1 h
  rw [Meets, hpool.uniform.spare_growth hpool.bound hgrowth]
  omega

/-- The nodes cordoned offer no more than the surplus. -/
theorem openIds_bound (huniform : store.Uniform shape) (hblock : config.block.raw.toNat < 2 ^ 63)
    {surplus : Int} (hsurplus : 0 ≤ surplus) {picked : List String}
    (planned : pickToCordon config.block (store.state.snapshot config.protection) surplus =
      .ok picked) :
    ((openIds (store.state.snapshot config.protection) picked).length * shape.capacity.toNat :
      Int) ≤ surplus * config.block.raw.toNat := by
  obtain ⟨count, rfl, hbound⟩ := pickToCordon_bound planned
  have hle : (openIds (store.state.snapshot config.protection)
      (((byPodCount (store.state.snapshot config.protection)
        (store.state.snapshot config.protection).nodes).take count).map (·.id))).length ≤
      min count store.nodes.size := by
    refine (List.length_filter_le _ _).trans ?_
    rw [List.length_map, List.length_take, (byPodCount_perm _ _).length_eq,
      (store.state.nodes_snapshot_perm _).length_eq, List.length_map]
    rfl
  generalize (openIds _ _).length = length at hle ⊢
  rcases Nat.eq_zero_or_pos length with rfl | hpos
  · simpa using mul_nonneg hsurplus (Int.natCast_nonneg _)
  · have hrows : store.nodes.rows ≠ [] := by
      apply List.length_pos_iff.mp
      unfold Table.size at hle
      omega
    have hcount := hbound _ ((huniform.capacityProxy config.protection).1 hrows) (by omega)
    calc (length * shape.capacity.toNat : Int)
        ≤ count * shape.capacity.toNat := by
          exact_mod_cast Nat.mul_le_mul_right _ (hle.trans (min_le_left _ _))
      _ ≤ unitsOf config.block surplus := hcount
      _ ≤ surplus * config.block.raw.toNat := unitsOf_le hblock hsurplus

theorem meets_of_cordon (huniform : store.Uniform shape) (hrange : InRange config store)
    (above : config.target < store.state.spare / config.block.raw.toNat) {picked : List String}
    (planned : pickToCordon config.block (store.state.snapshot config.protection)
      (store.state.spare / config.block.raw.toNat - config.target) = .ok picked) :
    Meets config (store.updateNodes (openIds (store.state.snapshot config.protection) picked)
      (·.cordon now) (NodeRecord.id_cordon · now)) := by
  obtain ⟨hnodup, hopen⟩ := openIds_spec (State.distinct_of_store store) planned
  have hspare := huniform.spare_cordon now hnodup hopen
  have hfreed := @Store.freeUnder_le store shape
    (openIds (store.state.snapshot config.protection) picked)
  have hbound := openIds_bound huniform hrange.block (sub_nonneg.mpr above.le) planned
  have hpos := config.block_pos
  have hfloor := Int.ediv_mul_le store.state.spare (ne_of_gt hpos)
  rw [sub_mul] at hbound
  unfold Meets
  omega

/-! ### A whole reconciliation -/

theorem totalCapacity_updateNodes {ids : List String} {f : NodeRecord → NodeRecord}
    (hf : ∀ node, (f node).id = node.id) (hcapacity : ∀ node, (f node).capacity = node.capacity) :
    (store.updateNodes ids f hf).state.totalCapacity = store.state.totalCapacity := by
  unfold State.totalCapacity
  rw [show (store.updateNodes ids f hf).state.nodes = _ from Store.rows_updateNodes hf,
    List.map_map]
  refine congrArg List.sum (List.map_congr_left fun node _ => ?_)
  simp only [Function.comp_apply, NodeRecord.offer]
  split
  · rw [hcapacity]
  · rfl

theorem InRange.updateNodes (h : InRange config store) {ids : List String}
    {f : NodeRecord → NodeRecord} (hf : ∀ node, (f node).id = node.id)
    (hcapacity : ∀ node, (f node).capacity = node.capacity) :
    InRange config (store.updateNodes ids f hf) :=
  ⟨h.block, (totalCapacity_updateNodes hf hcapacity).trans_lt h.capacity, h.requests, h.need⟩

theorem Homogeneous.updateNodes (h : Homogeneous shape store) {ids : List String}
    {f : NodeRecord → NodeRecord} (hf : ∀ node, (f node).id = node.id)
    (hcapacity : ∀ node, (f node).capacity = node.capacity) :
    Homogeneous shape (store.updateNodes ids f hf) where
  nonempty := by
    rw [Store.rows_updateNodes, ne_eq, List.map_eq_nil_iff]
    exact h.nonempty
  positive := h.positive
  uniform := h.uniform.updateNodes hf hcapacity
  bound pod hpod id hid := by
    rw [Store.contains_updateNodes]
    exact h.bound pod hpod id hid

/-- Whichever branch is taken, the target is met after it. -/
theorem meets_of_scaled (hpool : Homogeneous shape store) (hrange : InRange config store)
    {calls : List (Command × Store)} {available : Int} {outcome : Outcome}
    (hblocks : (store.state.snapshot config.protection).availableBlocks config.block =
      .ok available)
    (h : Scaled config shape.pool now store available calls outcome store') :
    Meets config store' := by
  obtain rfl := Except.ok.inj ((hrange.blocks config.protection).symm.trans hblocks)
  cases h with
  | uncordoned below planned covers =>
    exact meets_of_uncordon hpool.uniform hrange below planned covers
  | enlarged below planned misses commands enlarges =>
    exact meets_of_enlarged (hpool.updateNodes _ NodeRecord.capacity_uncordon)
      (hrange.updateNodes _ NodeRecord.capacity_uncordon)
      (all_open_of_misses planned (Config.deficit_pos below) misses) enlarges
  | cordoned above planned => exact meets_of_cordon hpool.uniform hrange above planned
  | level level =>
    have hpos := config.block_pos
    unfold Meets
    rw [← level]
    exact Int.ediv_mul_le _ (ne_of_gt hpos)

/-- Nodes keep their capacity, and those added have that of the shape. -/
theorem Outcome.Accounts.uniform {outcome : Outcome}
    (h : outcome.Accounts shape now store store') (huniform : store.Uniform shape) :
    store'.Uniform shape := by
  obtain ⟨fresh, -, hfresh, hperm⟩ := h.nodes
  intro node hnode
  rcases List.mem_append.mp (hperm.mem_iff.mp hnode) with hold | hnew
  · obtain ⟨old, hrow, rfl⟩ := List.mem_map.mp hold
    rw [Outcome.capacity_change, huniform old hrow]
  · rw [(hfresh node hnew).plain]

theorem Reaped.spare_eq {ids : List String} (h : Reaped config store later ids)
    (huniform : store.Uniform shape) :
    (store.dropNodes ids).state.spare = store.state.spare := by
  refine huniform.spare_drop fun id hid => ?_
  obtain ⟨node, hnode, hreap, rfl⟩ := (h.mem_iff id).mp hid
  exact ⟨node, State.mem_cordoned.mpr ⟨hnode, hreap.cordoned⟩, rfl⟩

theorem totalRequests_dropNodes_le (store : Store) (ids : List String) :
    (store.dropNodes ids).state.totalRequests ≤ store.state.totalRequests :=
  State.sum_map_le_of_sublist _ List.filter_sublist

/-- A pool of equal nodes, in range, that meets its target. -/
structure Settled (config : Config) (shape : NodeShape) (store : Store) : Prop where
  uniform : store.Uniform shape
  range : InRange config store
  meets : Meets config store

/-- A settled store has a snapshot, which shows that the target is met. -/
theorem Settled.snapshot (h : Settled config shape store) (rule : Protection) :
    ∃ s blocks, Snapshot.ofState store.state rule = .ok s ∧
      s.availableBlocks config.block = .ok blocks ∧ config.target ≤ blocks := by
  have hpos := config.block_pos
  refine ⟨_, _, State.ofState_eq_ok_iff.mpr ⟨fun node hnode => ?_, rfl⟩, h.range.blocks rule,
    (Int.le_ediv_iff_mul_le hpos).mpr h.meets⟩
  rw [h.uniform node hnode]
  rfl

theorem InRange.of_requests_le (h : InRange config store)
    (hrequests : store'.state.totalRequests ≤ store.state.totalRequests)
    (hcapacity : store'.state.totalCapacity < 2 ^ 63) : InRange config store' where
  block := h.block
  capacity := hcapacity
  requests := hrequests.trans_lt h.requests
  need := by
    have hneed := h.need
    omega

/-- A complete reconciliation leaves a settled store. -/
theorem settled_of_tick {final : Store} {report : Report} (hpool : Homogeneous shape store)
    (hrange : InRange config store)
    (hrun : (tick config now later).run shape.backend store = (.ok report, final))
    (hafter : final.state.totalCapacity < 2 ^ 63) : Settled config shape final := by
  obtain ⟨middle, hcourse⟩ := reconciled_of_completes (completes_of_run hrun)
  obtain ⟨calls, hscaled, -⟩ := hcourse.scaled
  obtain rfl := hcourse.final_eq
  have haccounts := accounts_of_scaled (hpool.capacity_lt hrange).1 hscaled
  have huniform := haccounts.uniform hpool.uniform
  have hpods : middle.state.totalRequests = store.state.totalRequests := by
    rw [State.totalRequests, show middle.state.pods = store.state.pods from
      congrArg Table.rows haccounts.pods]
    rfl
  refine ⟨huniform.dropNodes _, hrange.of_requests_le ?_ hafter, ?_⟩
  · exact (totalRequests_dropNodes_le middle _).trans hpods.le
  · rw [Meets, hcourse.reaped.spare_eq huniform]
    exact meets_of_scaled hpool hrange hcourse.blocks hscaled

/-- After a complete reconciliation of a pool of equal nodes, with all figures in range, a snapshot
counts at least as many spare blocks as the target asks for. -/
theorem tick_meets_target (config : Config) (shape : NodeShape) (now later : Instant)
    (rule : Protection) {store final : Store} {report : Report} (hpool : Homogeneous shape store)
    (hrange : InRange config store)
    (hrun : (tick config now later).run shape.backend store = (.ok report, final))
    (hafter : final.state.totalCapacity < 2 ^ 63) :
    ∃ s blocks, Snapshot.ofState final.state rule = .ok s ∧
      s.availableBlocks config.block = .ok blocks ∧ config.target ≤ blocks :=
  (settled_of_tick hpool hrange hrun hafter).snapshot rule

theorem smallStore_homogeneous : Homogeneous {} smallStore where
  nonempty := by decide
  positive := by decide
  uniform := by unfold Store.Uniform; decide
  bound := by decide

theorem greedyConfig_inRange : InRange greedyConfig smallStore := by
  constructor <;> decide

set_option maxRecDepth 10000 in
theorem greedy_after : ((tick greedyConfig smallNow).run (NodeShape.backend {})
    smallStore).2.state.totalCapacity < 2 ^ 63 := by
  have hfour : ((tick greedyConfig smallNow).run (NodeShape.backend {})
    smallStore).2.state.totalCapacity = 4000 := by cbv
  exact hfour.trans_lt (by decide)

theorem tick_meets_target_small : ∃ s blocks,
    Homogeneous {} smallStore ∧ InRange greedyConfig smallStore ∧
    Snapshot.ofState ((tick greedyConfig smallNow).run (NodeShape.backend {}) smallStore).2.state
      {} = .ok s ∧
    s.availableBlocks greedyConfig.block = .ok blocks ∧ greedyConfig.target ≤ blocks := by
  obtain ⟨s, blocks, hs, hblocks, htarget⟩ := tick_meets_target greedyConfig {} smallNow smallNow {}
    smallStore_homogeneous greedyConfig_inRange (Prod.ext greedy_run rfl) greedy_after
  exact ⟨s, blocks, smallStore_homogeneous, greedyConfig_inRange, hs, hblocks, htarget⟩

end Headroom.Scaling
