import Headroom.Proofs.Reaping

/-! The report of a complete reconciliation is the exact difference between the stores before and
after it: what is listed has happened, and nothing else has. A request for a larger pool is always
for more nodes than the store has, so it is never passed over in silence. -/

namespace Headroom.Scaling

open Cluster (NodeRecord State Store)
open Procedure

variable {config : Config} {shape : NodeShape} {now later : Instant} {store store' : Store}

/-! ### What a report says -/

namespace Outcome

/-- The nodes listed as opened to new work. -/
def uncordoned : Outcome → List String
  | .grown ids _ => ids
  | _ => []

/-- The nodes listed as barred to new work. -/
def cordoned : Outcome → List String
  | .shrunk ids => ids
  | _ => []

/-- The number of nodes added. -/
def added : Outcome → Nat
  | .grown _ added => added
  | _ => 0

/-- A node as the outcome leaves it: listed nodes have their flag and their time of cordoning
changed, others are as they were. -/
def change (now : Instant) : Outcome → NodeRecord → NodeRecord
  | .grown ids _, node =>
    if node.id ∈ ids then
      { node with
        unschedulable := false
        annotations := node.annotations.erase Cluster.cordonKey }
    else node
  | .shrunk ids, node =>
    if node.id ∈ ids then
      { node with
        unschedulable := true
        annotations := node.annotations.put Cluster.cordonKey (Rfc3339.print .stamp now) }
    else node
  | .unchanged, node => node

@[simp] theorem change_unchanged : Outcome.unchanged.change now = id := rfl

@[simp] theorem change_grown_nil {added : Nat} : (Outcome.grown [] added).change now = id := rfl

@[simp] theorem change_shrunk_nil : (Outcome.shrunk []).change now = id := rfl

@[simp] theorem id_change (outcome : Outcome) (node : NodeRecord) :
    (outcome.change now node).id = node.id := by
  cases outcome with
  | grown ids added => simp only [change]; split <;> rfl
  | shrunk ids => simp only [change]; split <;> rfl
  | unchanged => rfl

@[simp] theorem capacity_change (outcome : Outcome) (node : NodeRecord) :
    (outcome.change now node).capacity = node.capacity := by
  cases outcome with
  | grown ids added => simp only [change]; split <;> rfl
  | shrunk ids => simp only [change]; split <;> rfl
  | unchanged => rfl

theorem change_of_mem_uncordoned {outcome : Outcome} {node : NodeRecord}
    (h : node.id ∈ outcome.uncordoned) : (outcome.change now node).unschedulable = false := by
  cases outcome with
  | grown ids added =>
    simp only [change]
    rw [if_pos (show node.id ∈ ids from h)]
  | shrunk ids => exact absurd h List.not_mem_nil
  | unchanged => exact absurd h List.not_mem_nil

end Outcome

/-- A schedulable node of the shape without annotations or labels, under an id that the store does
not use. -/
structure NodeShape.Fresh (shape : NodeShape) (store : Store) (node : NodeRecord) : Prop where
  free : store.nodes.contains node.id = false
  plain : node = {
    id := node.id
    capacity := some shape.capacity
    unschedulable := false
    annotations := ∅
    labels := ∅ }

/-- An outcome accounts for the difference of two stores: the listed nodes were open or barred
before and are changed, as many fresh nodes are there as were added, and the rest is the same. -/
structure Outcome.Accounts (outcome : Outcome) (shape : NodeShape) (now : Instant)
    (before after : Store) : Prop where
  uncordoned : ∀ id ∈ outcome.uncordoned, ∃ node ∈ before.nodes.rows, node.id = id ∧
    node.unschedulable = true
  cordoned : ∀ id ∈ outcome.cordoned, ∃ node ∈ before.nodes.rows, node.id = id ∧
    node.unschedulable = false
  nodes : ∃ fresh : List NodeRecord, fresh.length = outcome.added ∧
    (∀ node ∈ fresh, shape.Fresh before node) ∧
    after.nodes.rows.Perm (before.nodes.rows.map (outcome.change now) ++ fresh)
  pods : after.pods = before.pods

/-- A report accounts for the difference of two stores: the second is the first with the outcome,
and then without the nodes deleted and the pods bound to them. -/
structure Report.Accounts (report : Report) (shape : NodeShape) (now : Instant)
    (before after : Store) : Prop where
  uncordoned : ∀ id ∈ report.outcome.uncordoned, ∃ node ∈ before.nodes.rows, node.id = id ∧
    node.unschedulable = true
  cordoned : ∀ id ∈ report.outcome.cordoned, ∃ node ∈ before.nodes.rows, node.id = id ∧
    node.unschedulable = false
  deleted : ∀ id ∈ report.deleted, before.nodes.contains id = true
  apart : ∀ id ∈ report.outcome.uncordoned, id ∉ report.deleted
  nodes : ∃ fresh : List NodeRecord, fresh.length = report.outcome.added ∧
    (∀ node ∈ fresh, shape.Fresh before node) ∧
    after.nodes.rows.Perm ((before.nodes.rows.map (report.outcome.change now) ++ fresh).filter
      (·.id ∉ report.deleted))
  pods : after.pods.rows = before.pods.rows.filter
    fun pod => ∀ id ∈ report.deleted, pod.nodeId ≠ some id

/-! ### Growth -/

/-- Nodes to uncordon that do not suffice are all that are cordoned, so none is left. -/
theorem all_open_of_misses {deficit : Int} {plan : UncordonPlan}
    (h : pickToUncordon config.block (store.state.snapshot config.protection) deficit = .ok plan)
    (hdeficit : 0 < deficit) (hmisses : plan.satisfied = false) :
    ∀ node ∈ (store.updateNodes plan.ids NodeRecord.uncordon NodeRecord.id_uncordon).nodes.rows,
      node.unschedulable = false := by
  intro node hnode
  rw [Store.rows_updateNodes, List.mem_map] at hnode
  obtain ⟨old, hold, rfl⟩ := hnode
  split
  · rfl
  · rename_i hother
    rw [← Bool.not_eq_true]
    exact fun hcordoned =>
      hother (mem_uncordon_of_misses h hdeficit hmisses (State.mem_cordoned.mpr ⟨hold, hcordoned⟩))

/-- Where all nodes are schedulable, the size planned is the number of nodes and what is added. -/
theorem targetSize_of_all_open {lacking : Int} {plan : GrowthPlan}
    (hopen : ∀ node ∈ store.nodes.rows, node.unschedulable = false)
    (h : growthPlan config.block (store.state.snapshot config.protection) lacking =
      .ok (some plan)) (hadds : 0 < plan.add) (hsize : store.nodes.size < 2 ^ 63) :
    plan.targetSize = store.nodes.size + plan.add.toNat := by
  obtain ⟨hcurrent, capacity, -, hadd⟩ := growthPlan_eq_some h
  have hbound := (nodesToAdd_least hadd).1.2
  have hall : store.state.schedulable = store.nodes.rows :=
    List.filter_eq_self.mpr fun node hnode => by simp [hopen node hnode]
  rw [(store.state.schedulable_snapshot_perm config.protection).length_eq, List.length_map,
    hall] at hcurrent
  have hcount : plan.current = store.nodes.size := hcurrent
  unfold Word.greatest at hbound
  unfold GrowthPlan.targetSize
  rw [hcount, show UInt64.size = 18446744073709551616 from rfl]
  omega

/-- A pool of schedulable nodes that is enlarged grows by as many nodes as are counted. -/
theorem growth_of_enlarged {calls : List (Command × Store)} {added : Nat}
    (hopen : ∀ node ∈ store.nodes.rows, node.unschedulable = false)
    (hsize : store.nodes.size < 2 ^ 63)
    (h : Enlarged config shape.pool store calls added store') :
    ∃ numbers, numbers.length = added ∧ shape.Growth store.nodes.size numbers store store' := by
  cases h with
  | unplanned => exact ⟨[], rfl, .refl _ _ _⟩
  | sufficient => exact ⟨[], rfl, .refl _ _ _⟩
  | @asked _ plan _ planned adds =>
    have htarget := targetSize_of_all_open hopen planned adds hsize
    obtain ⟨numbers, hlength, hgrowth⟩ :=
      shape.exists_growth (plan.targetSize - store.nodes.size) store.nodes.size store
    exact ⟨numbers, by omega, hgrowth⟩

/-- Uncordoning nodes and then growing is accounted for by the outcome that lists them. -/
theorem accounts_of_growth {ids : List String} {numbers : List Nat} {n : Nat}
    (hids : ∀ id ∈ ids, ∃ node ∈ store.nodes.rows, node.id = id ∧ node.unschedulable = true)
    (h : shape.Growth n numbers
      (store.updateNodes ids NodeRecord.uncordon NodeRecord.id_uncordon) store') :
    (Outcome.grown ids numbers.length).Accounts shape now store store' := by
  refine ⟨hids, fun _ hid => absurd hid List.not_mem_nil, ?_, h.pods_eq⟩
  refine ⟨numbers.map shape.node, by simp [Outcome.added], fun node hnode => ?_, ?_⟩
  · obtain ⟨k, hk, rfl⟩ := List.mem_map.mp hnode
    exact ⟨(Store.contains_updateNodes _ _).symm.trans (h.free k hk), rfl⟩
  · exact h.rows_perm.trans List.perm_append_comm

/-- Cordoning schedulable nodes is accounted for by the outcome that lists them. -/
theorem accounts_of_cordons {ids : List String}
    (hids : ∀ id ∈ ids, ∃ node ∈ store.state.schedulable, node.id = id) :
    (Outcome.shrunk ids).Accounts shape now store
      (store.updateNodes ids (·.cordon now) (NodeRecord.id_cordon · now)) := by
  have hlisted : ∀ id ∈ ids, ∃ node ∈ store.nodes.rows, node.id = id ∧
      node.unschedulable = false := by
    intro id hid
    obtain ⟨node, hnode, rfl⟩ := hids id hid
    exact ⟨node, (State.mem_schedulable.mp hnode).1, rfl, (State.mem_schedulable.mp hnode).2⟩
  refine ⟨fun _ hid => absurd hid List.not_mem_nil, hlisted, ⟨[], rfl, by simp, ?_⟩, rfl⟩
  rw [List.append_nil, Store.rows_updateNodes]
  refine .of_eq (List.map_congr_left fun node hnode => ?_)
  simp only [Outcome.change]
  by_cases hid : node.id ∈ ids
  · obtain ⟨other, hother, heq, hopen⟩ := hlisted node.id hid
    obtain rfl := store.nodes.eq_of_key_eq hother hnode heq
    rw [if_pos hid, if_pos hid, NodeRecord.cordon_of_schedulable hopen]
  · rw [if_neg hid, if_neg hid]

/-- An outcome that lists nothing says that nothing was done. -/
theorem Outcome.Accounts.unchanged {outcome : Outcome}
    (h : outcome.Accounts shape now store store') (hadded : outcome.added = 0)
    (hchange : outcome.change now = id) : Outcome.unchanged.Accounts shape now store store' := by
  refine ⟨fun _ hid => absurd hid List.not_mem_nil, fun _ hid => absurd hid List.not_mem_nil, ?_,
    h.pods⟩
  rw [change_unchanged, ← hchange, show Outcome.unchanged.added = outcome.added from hadded.symm]
  exact h.nodes

/-- What a complete scaling reports is what it has done. -/
theorem accounts_of_scaled {calls : List (Command × Store)} {available : Int} {outcome : Outcome}
    (hsize : store.nodes.size < 2 ^ 63)
    (h : Scaled config shape.pool now store available calls outcome store') :
    outcome.Accounts shape now store store' := by
  have hlisted : ∀ {plan : UncordonPlan}, available < config.target →
      pickToUncordon config.block (store.state.snapshot config.protection)
        (config.deficit available) = .ok plan →
      ∀ id ∈ plan.ids, ∃ node ∈ store.nodes.rows, node.id = id ∧ node.unschedulable = true := by
    intro plan below planned id hid
    obtain ⟨node, hnode, rfl⟩ :=
      exists_of_mem_uncordon planned (Config.deficit_pos below) hid
    exact ⟨node, (State.mem_cordoned.mp hnode).1, rfl, (State.mem_cordoned.mp hnode).2⟩
  cases h with
  | uncordoned below planned =>
    exact accounts_of_growth (hlisted below planned) (.refl shape 0 _)
  | @enlarged plan _ _ added _ below planned misses _ enlarges =>
    -- The size asked for counts schedulable nodes and the pool counts all nodes. They agree because
    -- a plan that does not cover the deficit has uncordoned whatever was cordoned.
    obtain ⟨numbers, rfl, hgrowth⟩ := growth_of_enlarged
      (all_open_of_misses planned (Config.deficit_pos below) misses) (by simpa using hsize) enlarges
    have haccounts : (Outcome.grown plan.ids numbers.length).Accounts shape now store store' :=
      accounts_of_growth (hlisted below planned) hgrowth
    split
    · rename_i hnone
      obtain ⟨hids, hcount⟩ := Bool.and_eq_true_iff.mp hnone
      rw [List.isEmpty_iff.mp hids, beq_iff_eq.mp hcount] at haccounts
      exact haccounts.unchanged rfl Outcome.change_grown_nil
    · exact haccounts
  | @cordoned picked _ _ planned =>
    have haccounts : (Outcome.shrunk _).Accounts shape now store _ :=
      accounts_of_cordons (openIds_spec (State.distinct_of_store store) planned).2
    split
    · rename_i hnone
      rw [List.isEmpty_iff.mp hnone] at haccounts ⊢
      exact haccounts.unchanged rfl Outcome.change_shrunk_nil
    · exact haccounts
  | level =>
    exact ⟨by simp [Outcome.uncordoned], by simp [Outcome.cordoned],
      ⟨[], rfl, by simp, by simp⟩, rfl⟩

/-! ### Reaping and the whole -/

/-- A node that is barred after a scaling was there before, and is not listed as opened. -/
theorem Outcome.Accounts.barred {outcome : Outcome} {node : NodeRecord}
    (h : outcome.Accounts shape now store store') (hnode : node ∈ store'.nodes.rows)
    (hbarred : node.unschedulable = true) :
    store.nodes.contains node.id = true ∧ node.id ∉ outcome.uncordoned := by
  obtain ⟨fresh, -, hfresh, hperm⟩ := h.nodes
  rcases List.mem_append.mp (hperm.mem_iff.mp hnode) with hold | hnew
  · obtain ⟨old, hrow, rfl⟩ := List.mem_map.mp hold
    rw [Outcome.id_change]
    refine ⟨Table.contains_of_mem hrow, fun hlisted => ?_⟩
    simp [Outcome.change_of_mem_uncordoned hlisted] at hbarred
  · rw [(hfresh node hnew).plain] at hbarred
    simp at hbarred

/-- What an outcome accounts for, a report accounts for once the reapable nodes are dropped. -/
theorem Outcome.Accounts.report {report : Report}
    (h : report.outcome.Accounts shape now store store')
    (hreaped : Reaped config store' later report.deleted) :
    report.Accounts shape now store (store'.dropNodes report.deleted) := by
  have hbarred : ∀ id ∈ report.deleted, store.nodes.contains id = true ∧
      id ∉ report.outcome.uncordoned := by
    intro id hid
    obtain ⟨node, hnode, hreap, rfl⟩ := (hreaped.mem_iff id).mp hid
    exact h.barred hnode hreap.cordoned
  constructor
  · exact h.uncordoned
  · exact h.cordoned
  · exact fun id hid => (hbarred id hid).1
  · exact fun id hopened hid => (hbarred id hid).2 hopened
  · obtain ⟨fresh, hlength, hfresh, hperm⟩ := h.nodes
    exact ⟨fresh, hlength, hfresh, hperm.filter _⟩
  · rw [← h.pods]
    rfl

theorem reap_only (config : Config) (now : Instant) :
    (reap config.grace config.protection now).Only
      fun command => ∀ size, command ≠ .increaseToSize size := by
  refine (reap_removes config now).mono ?_
  rintro command h size rfl
  exact h

/-- In a store of fewer than 2^62 nodes, the report of a complete reconciliation accounts for the
difference that it made; and however a reconciliation ends, a size that it asks the pool for is
larger than the number of nodes at that time. -/
theorem report_accounts (config : Config) (shape : NodeShape) (now later : Instant) (store : Store)
    (hsize : store.nodes.size < 2 ^ 62) :
    (∀ report final, (tick config now later).run shape.backend store = (.ok report, final) →
      report.Accounts shape now store final) ∧
    ∀ size world, (.increaseToSize size, world) ∈
      (tick config now later).issued shape.backend store → world.nodes.size < size := by
  constructor
  · intro report final hrun
    obtain ⟨middle, hcourse⟩ := reconciled_of_completes (completes_of_run hrun)
    obtain ⟨calls, hscaled, -⟩ := hcourse.scaled
    rw [hcourse.final_eq]
    exact (accounts_of_scaled (by omega) hscaled).report hcourse.reaped
  · intro size world h
    rcases mem_issued_bind.mp h with h | ⟨⟨available, outcome⟩, middle, -, h⟩
    · obtain ⟨deficit, plan, lacking, growth, hdeficit, hplan, hmisses, rfl, hgrowth, hadds, rfl⟩ :=
        asked_of_mem_issued h
      rw [targetSize_of_all_open (all_open_of_misses hplan hdeficit hmisses) hgrowth hadds
        (by rw [Store.size_updateNodes]; omega)]
      omega
    · rcases mem_issued_bind.mp h with h | ⟨_, _, -, h⟩
      · exact absurd rfl ((reap_only config later).mem_issued _ h size)
      · exact absurd h List.not_mem_nil

/-- A target that the small pool cannot hold. -/
def greedyConfig : Config := { smallConfig with target := 35, target_le := by decide }

set_option maxRecDepth 10000 in
theorem greedy_run : ((tick greedyConfig smallNow).run (NodeShape.backend {}) smallStore).1 =
    .ok ⟨20, 35, .grown ["b"] 1, []⟩ := by cbv

theorem report_accounts_small :
    smallStore.nodes.size < 2 ^ 62 ∧ ∃ final,
      (tick greedyConfig smallNow).run (NodeShape.backend {}) smallStore =
        (.ok ⟨20, 35, .grown ["b"] 1, []⟩, final) ∧
      Report.Accounts ⟨20, 35, .grown ["b"] 1, []⟩ {} smallNow smallStore final := by
  have hsize : smallStore.nodes.size < 2 ^ 62 := by decide
  have haccounts := (report_accounts greedyConfig {} smallNow smallNow smallStore hsize).1
  exact ⟨hsize, _, Prod.ext greedy_run rfl, haccounts _ _ (Prod.ext greedy_run rfl)⟩

end Headroom.Scaling
