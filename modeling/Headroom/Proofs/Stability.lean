import Headroom.Proofs.Convergence

/-! Reconciliations that follow one another settle. Once a pool of equal nodes meets its target it
is never grown again: it is only shrunk and reaped, and as each of these uses up nodes, all but
finitely many reconciliations change nothing. -/

namespace Headroom.Scaling

open Cluster (NodeRecord State Store)
open Procedure

variable {config : Config} {shape : NodeShape} {now later : Instant} {store store' : Store}

/-- What a reconciliation does to a pool that has enough: some open nodes are cordoned, then
reapable nodes are dropped. -/
structure Tightened (config : Config) (now later : Instant) (store : Store)
    (commands : List Command) (store' : Store) (ids deleted : List String) : Prop where
  nodup : ids.Nodup
  opened : ∀ id ∈ ids, ∃ node ∈ store.state.schedulable, node.id = id
  reaped : Reaped config
    (store.updateNodes ids (·.cordon now) (NodeRecord.id_cordon · now)) later deleted
  store_eq : store' =
    (store.updateNodes ids (·.cordon now) (NodeRecord.id_cordon · now)).dropNodes deleted
  commands_eq : commands = ids.map (.cordon · now) ++
    if deleted.isEmpty then [] else .deleteNodes deleted :: deleted.map .deregister
  meets : Meets config (store.updateNodes ids (·.cordon now) (NodeRecord.id_cordon · now))

/-- The ids of the nodes selected for what a store has beyond the target, barred ones among them. -/
def selected (config : Config) (store : Store) : List String :=
  let s := store.state.snapshot config.protection
  let surplus := store.state.spare / config.block.raw.toNat - config.target
  ((byPodCount s s.nodes).take (allowance config.block s surplus)).map (·.id)

/-- The ids of the nodes to be cordoned for what a store has beyond the target. -/
def shed (config : Config) (store : Store) : List String :=
  openIds (store.state.snapshot config.protection) (selected config store)

theorem shed_spec (config : Config) (store : Store) : (shed config store).Nodup ∧
    ∀ id ∈ shed config store, ∃ node ∈ store.state.schedulable, node.id = id :=
  openIds_spec (State.distinct_of_store store) (pickToCordon_eq config.block _ _)

/-- Where nothing is beyond the target, no node is selected. -/
theorem shed_of_level (h : store.state.spare / config.block.raw.toNat = config.target) :
    shed config store = [] := by
  have hnone : allowance config.block (store.state.snapshot config.protection) 0 = 0 := by
    unfold allowance
    rcases (store.state.snapshot config.protection).capacityProxy?.bind divisor? with _ | c
    · rfl
    · simp [unitsOf, Word.clamp, Word.least, Word.greatest]
  rw [shed, selected, h, sub_self, hnone]
  rfl

/-- A settled pool has enough, so it is only tightened, by the nodes that it reports as cordoned. -/
theorem Settled.tightened (h : Settled config shape store) {calls : List (Command × Store)}
    {report : Report}
    (htick : (tick config now later).Completes shape.backend store calls report store') :
    Tightened config now later store (calls.map Prod.fst) store' (shed config store)
        report.deleted ∧
      report.outcome.cordoned = shed config store := by
  obtain ⟨middle, hcourse⟩ := reconciled_of_completes htick
  obtain ⟨first, hscaled, hcommands⟩ := hcourse.scaled
  have hblocks := hcourse.blocks
  have hreaped := hcourse.reaped
  have hfinal := hcourse.final_eq
  have hpos := config.block_pos
  have henough := (Int.le_ediv_iff_mul_le hpos).mpr h.meets
  obtain ⟨hnodup, hopen⟩ := shed_spec config store
  rw [hcommands]
  generalize report.available = available at hblocks hscaled
  generalize report.outcome = outcome at hscaled ⊢
  obtain rfl := Except.ok.inj ((h.range.blocks config.protection).symm.trans hblocks)
  cases hscaled with
  | uncordoned below => exact absurd henough (not_le.mpr below)
  | enlarged below => exact absurd henough (not_le.mpr below)
  | @cordoned picked _ above planned commands =>
    have hpicked : picked = selected config store :=
      (Except.ok.inj ((pickToCordon_eq config.block _ _).symm.trans planned)).symm
    have hmeets : Meets config (store.updateNodes
        (openIds (store.state.snapshot config.protection) picked) (·.cordon now)
        (NodeRecord.id_cordon · now)) := meets_of_cordon h.uniform h.range above planned
    subst hpicked
    refine ⟨⟨hnodup, hopen, hreaped, hfinal, by rw [commands]; rfl, hmeets⟩, ?_⟩
    show Outcome.cordoned (if (shed config store).isEmpty then .unchanged
      else .shrunk (shed config store)) = shed config store
    split
    · rename_i hempty
      rw [List.isEmpty_iff.mp hempty]
      rfl
    · rfl
  | level hlevel =>
    have hsame := @Store.updateNodes_nil store (·.cordon now) (NodeRecord.id_cordon · now)
    rw [shed_of_level hlevel]
    exact ⟨⟨.nil, by simp, by rwa [hsame], by rwa [hsame], rfl, by rw [hsame]; exact h.meets⟩, rfl⟩

namespace Tightened

variable {commands : List Command} {ids deleted : List String}

theorem settled (h : Tightened config now later store commands store' ids deleted)
    (hsettled : Settled config shape store) : Settled config shape store' := by
  have huniform : Store.Uniform shape (store.updateNodes ids _ (NodeRecord.id_cordon · now)) :=
    hsettled.uniform.updateNodes _ (NodeRecord.capacity_cordon · now)
  have hrange : InRange config (store.updateNodes ids _ (NodeRecord.id_cordon · now)) :=
    hsettled.range.updateNodes _ (NodeRecord.capacity_cordon · now)
  rw [h.store_eq]
  refine ⟨huniform.dropNodes deleted, hrange.of_requests_le (totalRequests_dropNodes_le _ _) ?_, ?_⟩
  · exact (State.sum_map_le_of_sublist _ List.filter_sublist).trans_lt hrange.capacity
  · rw [Meets, h.reaped.spare_eq huniform]
    exact h.meets

/-- Tightening opens no node and adds none. -/
theorem never_grows (h : Tightened config now later store commands store' ids deleted) :
    ∀ command ∈ commands,
      (∀ id, command ≠ .uncordon id) ∧ ∀ size, command ≠ .increaseToSize size := by
  rw [h.commands_eq]
  intro command hcommand
  rcases List.mem_append.mp hcommand with hcordon | hdelete
  · obtain ⟨id, -, rfl⟩ := List.mem_map.mp hcordon
    simp
  · split at hdelete
    · exact absurd hdelete List.not_mem_nil
    · rcases List.mem_cons.mp hdelete with rfl | hderegister
      · simp
      · obtain ⟨id, -, rfl⟩ := List.mem_map.mp hderegister
        simp

/-- A node that is cordoned stays as it is until it is dropped. -/
theorem keeps_cordoned (h : Tightened config now later store commands store' ids deleted)
    {node : NodeRecord} (hnode : node ∈ store.nodes.rows) (hcordoned : node.unschedulable = true) :
    node ∈ store'.nodes.rows ∨ store'.nodes.contains node.id = false := by
  have hother : node.id ∉ ids := by
    intro hid
    obtain ⟨open_, hopen, heq⟩ := h.opened node.id hid
    obtain ⟨hrow, hflag⟩ := State.mem_schedulable.mp hopen
    rw [store.nodes.eq_of_key_eq hrow hnode heq, hcordoned] at hflag
    exact absurd hflag.symm Bool.false_ne_true
  have hmiddle : node ∈ (store.updateNodes ids (·.cordon now)
      (NodeRecord.id_cordon · now)).nodes.rows :=
    List.mem_map.mpr ⟨node, hnode, if_neg hother⟩
  rw [h.store_eq]
  by_cases hdropped : node.id ∈ deleted
  · refine .inr (Table.not_contains_iff.mpr fun other hmem heq => ?_)
    exact (Store.mem_nodes_dropNodes.mp hmem).2 (heq ▸ hdropped)
  · exact .inl (Store.mem_nodes_dropNodes.mpr ⟨hmiddle, hdropped⟩)

/-- Nodes do not come back. -/
theorem keeps_absent (h : Tightened config now later store commands store' ids deleted)
    {id : String} (hid : store.nodes.contains id = false) : store'.nodes.contains id = false := by
  rw [h.store_eq]
  refine Table.not_contains_iff.mpr fun node hnode heq => ?_
  have hmiddle := (Store.mem_nodes_dropNodes.mp hnode).1
  have hthere := Table.contains_of_mem hmiddle
  rw [heq, Store.contains_updateNodes, hid] at hthere
  exact absurd hthere Bool.false_ne_true

end Tightened

/-- What reconciliations may still use up: each node once while it is open and once more while it
is there. -/
def slack (store : Store) : Nat := store.nodes.size + store.openNodes.length

theorem slack_le (store : Store) : slack store ≤ 2 * store.nodes.size := by
  have hopen : store.openNodes.length ≤ store.nodes.size := by
    rw [Store.openNodes, List.length_map]
    exact List.length_filter_le _ _
  unfold slack
  omega

/-- Dropping reapable nodes uses up each of them. -/
theorem Reaped.slack_drop {ids : List String} (h : Reaped config store later ids) :
    slack (store.dropNodes ids) ≤ slack store ∧
      (ids ≠ [] → slack (store.dropNodes ids) < slack store) := by
  have hopen : (store.dropNodes ids).openNodes = store.openNodes := by
    refine Store.openNodes_drop fun id hid => ?_
    obtain ⟨node, hnode, hreap, rfl⟩ := (h.mem_iff id).mp hid
    exact ⟨node, State.mem_cordoned.mpr ⟨hnode, hreap.cordoned⟩, rfl⟩
  unfold slack
  rw [hopen]
  refine ⟨Nat.add_le_add_right (List.length_filter_le _ _) _, fun hne => ?_⟩
  obtain ⟨id, hid⟩ := List.exists_mem_of_ne_nil ids hne
  obtain ⟨node, hnode, -, rfl⟩ := (h.mem_iff id).mp hid
  have hfewer : (store.dropNodes ids).nodes.size < store.nodes.size :=
    List.length_filter_lt_length_iff_exists.mpr ⟨node, hnode, by simpa using hid⟩
  omega

/-- A reconciliation that issues a command uses something up. -/
theorem Tightened.slack_lt {commands : List Command} {ids deleted : List String}
    (h : Tightened config now later store commands store' ids deleted) :
    slack store' ≤ slack store ∧ (commands ≠ [] → slack store' < slack store) := by
  have hcordon : slack (store.updateNodes ids (·.cordon now) (NodeRecord.id_cordon · now)) +
      ids.length = slack store := by
    have hlength := (Store.openNodes_cordon now h.nodup h.opened).length_eq
    rw [List.length_append] at hlength
    unfold slack
    rw [Store.size_updateNodes]
    omega
  obtain ⟨hle, hlt⟩ := h.reaped.slack_drop
  rw [h.store_eq]
  refine ⟨by omega, fun hne => ?_⟩
  rcases eq_or_ne deleted [] with rfl | hdeleted
  · have hids : ids ≠ [] := fun hnil => hne (by simp [h.commands_eq, hnil])
    have := List.length_pos_iff.mpr hids
    omega
  · have := hlt hdeleted
    omega

/-! ### Runs -/

/-- Reconciliations one after the other, with any clock readings: each of the first `n` is complete
and leads from its store to the next. -/
structure Ticks (config : Config) (shape : NodeShape) (n : Nat) where
  stores : Nat → Store
  now : Nat → Instant
  later : Nat → Instant
  complete : ∀ i < n, ∃ report, (tick config (now i) (later i)).run shape.backend (stores i) =
    (.ok report, stores (i + 1))

namespace Ticks

variable {n : Nat} (ticks : Ticks config shape n)

/-- The commands that a reconciliation of the run issues. -/
def commands (i : Nat) : List Command :=
  ((tick config (ticks.now i) (ticks.later i)).issued shape.backend (ticks.stores i)).map Prod.fst

variable {ticks}

theorem tightened {i : Nat} (hi : i < n) (h : Settled config shape (ticks.stores i)) :
    ∃ ids deleted, Tightened config (ticks.now i) (ticks.later i) (ticks.stores i)
      (ticks.commands i) (ticks.stores (i + 1)) ids deleted := by
  obtain ⟨report, hrun⟩ := ticks.complete i hi
  exact ⟨_, _, (h.tightened (completes_of_run hrun)).1⟩

/-- Once settled, a pool stays settled. -/
theorem settled {i j : Nat} (hij : i ≤ j) (hj : j ≤ n) (h : Settled config shape (ticks.stores i)) :
    Settled config shape (ticks.stores j) := by
  induction j, hij using Nat.le_induction with
  | base => exact h
  | succ j _ ih =>
    have hhere := ih (by omega)
    obtain ⟨ids, deleted, htight⟩ := tightened (by omega) hhere
    exact htight.settled hhere

theorem cordoned_stays {i j : Nat} (hij : i ≤ j) (hj : j ≤ n)
    (h : Settled config shape (ticks.stores i)) {node : NodeRecord}
    (hnode : node ∈ (ticks.stores i).nodes.rows) (hcordoned : node.unschedulable = true) :
    node ∈ (ticks.stores j).nodes.rows ∨ (ticks.stores j).nodes.contains node.id = false := by
  induction j, hij using Nat.le_induction with
  | base => exact .inl hnode
  | succ j hle ih =>
    obtain ⟨ids, deleted, htight⟩ := tightened (by omega) (settled hle (by omega) h)
    rcases ih (by omega) with hthere | hgone
    · exact htight.keeps_cordoned hthere hcordoned
    · exact .inr (htight.keeps_absent hgone)

/-- The reconciliations from the second on that issue a command use up the slack. -/
theorem active_add_slack {k : Nat} (hk : k + 1 ≤ n) (h : Settled config shape (ticks.stores 1)) :
    ((List.range' 1 k).filter fun i => !(ticks.commands i).isEmpty).length +
      slack (ticks.stores (k + 1)) ≤ slack (ticks.stores 1) := by
  -- Each reconciliation that issues a command is paid for by the slack it uses up.
  induction k with
  | zero => simp
  | succ k ih =>
    have hbefore := ih (by omega)
    obtain ⟨ids, deleted, htight⟩ :=
      tightened (by omega : k + 1 < n) (settled (by omega) (by omega) h)
    obtain ⟨hle, hlt⟩ := htight.slack_lt
    rw [List.range'_1_concat, List.filter_append, List.length_append, Nat.add_comm 1 k]
    cases hcommands : (ticks.commands (k + 1)).isEmpty with
    | true =>
      simp only [hcommands, List.filter_singleton, Bool.not_true, cond_false, List.length_nil]
      omega
    | false =>
      have := hlt (by simpa using hcommands)
      simp only [hcommands, List.filter_singleton, Bool.not_false, cond_true, List.length_singleton]
      omega

end Ticks

/-- Let complete reconciliations follow one another from a pool of equal nodes, with all figures in
range. From the second on none uncordons a node or asks for a larger pool; a node that is cordoned
stays as it is until it is deleted; and at most twice as many issue a command as there are nodes
after the first. -/
theorem ticks_settle {n : Nat} (ticks : Ticks config shape n)
    (hpool : Homogeneous shape (ticks.stores 0)) (hrange : InRange config (ticks.stores 0))
    (hafter : (ticks.stores 1).state.totalCapacity < 2 ^ 63) :
    (∀ i, 1 ≤ i → i < n → ∀ command ∈ ticks.commands i,
      (∀ id, command ≠ .uncordon id) ∧ ∀ size, command ≠ .increaseToSize size) ∧
    (∀ i j, 1 ≤ i → i ≤ j → j ≤ n → ∀ node ∈ (ticks.stores i).nodes.rows,
      node.unschedulable = true →
      node ∈ (ticks.stores j).nodes.rows ∨ (ticks.stores j).nodes.contains node.id = false) ∧
    ((List.range' 1 (n - 1)).filter fun i => !(ticks.commands i).isEmpty).length ≤
      2 * (ticks.stores 1).nodes.size := by
  rcases Nat.eq_zero_or_pos n with rfl | hn
  · exact ⟨fun i _ hi => absurd hi (Nat.not_lt_zero i), fun i j hi hij hj => by omega, by simp⟩
  obtain ⟨report, hrun⟩ := ticks.complete 0 hn
  have hfirst : Settled config shape (ticks.stores 1) := settled_of_tick hpool hrange hrun hafter
  refine ⟨fun i hi hin => ?_, fun i j hi hij hj node hnode hcordoned => ?_, ?_⟩
  · obtain ⟨ids, deleted, htight⟩ := Ticks.tightened hin (Ticks.settled hi hin.le hfirst)
    exact htight.never_grows
  · exact Ticks.cordoned_stays hij hj (Ticks.settled hi (hij.trans hj) hfirst) hnode hcordoned
  · have hcount := Ticks.active_add_slack (k := n - 1) (by omega) hfirst
    have hslack := slack_le (ticks.stores 1)
    omega

set_option maxRecDepth 10000 in
theorem greedy_run_again : ((tick greedyConfig smallNow).run (NodeShape.backend {})
    ((tick greedyConfig smallNow).run (NodeShape.backend {}) smallStore).2).1 =
      .ok ⟨37, 35, .unchanged, []⟩ := by cbv

/-- The small pool, reconciled twice. -/
def smallTicks : Ticks greedyConfig {} 2 where
  stores i := (fun store => ((tick greedyConfig smallNow).run (NodeShape.backend {}) store).2)^[i]
    smallStore
  now _ := smallNow
  later _ := smallNow
  complete i hi := by
    match i, hi with
    | 0, _ => exact ⟨_, Prod.ext greedy_run rfl⟩
    | 1, _ => exact ⟨_, Prod.ext greedy_run_again rfl⟩

theorem ticks_settle_small :
    Homogeneous {} (smallTicks.stores 0) ∧ InRange greedyConfig (smallTicks.stores 0) ∧
    (smallTicks.stores 1).state.totalCapacity < 2 ^ 63 ∧
    ((List.range' 1 1).filter fun i => !(smallTicks.commands i).isEmpty).length ≤
      2 * (smallTicks.stores 1).nodes.size :=
  ⟨smallStore_homogeneous, greedyConfig_inRange, greedy_after,
    (ticks_settle smallTicks smallStore_homogeneous greedyConfig_inRange greedy_after).2.2⟩

end Headroom.Scaling
