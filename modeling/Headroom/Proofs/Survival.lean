import Headroom.Proofs.Convergence
import Headroom.Proofs.History

/-! A pool of equal nodes is never emptied. A complete scaling leaves a node that is open to new
work, and reaping takes only nodes that are not; a scaling that is cut off takes none at all. -/

namespace Headroom.Scaling

open Cluster (NodeRecord State Store)
open Procedure

variable {config : Config} {shape : NodeShape} {now later : Instant} {store store' : Store}
  {outage : Outage}

/-! ### Scaling -/

theorem Config.block_le_need (config : Config) (htarget : 1 ≤ config.target) :
    (config.block.raw.toNat : Int) ≤ config.target * config.block.raw.toNat :=
  le_mul_of_one_le_left config.block_pos.le (by exact_mod_cast htarget)

/-- Nodes that are shed hold less than the open nodes do, since the target is kept. -/
theorem openNodes_cordon_ne_nil (huniform : store.Uniform shape)
    (hblock : config.block.raw.toNat < 2 ^ 63) (htarget : 1 ≤ config.target)
    (above : config.target < store.state.spare / config.block.raw.toNat) {picked : List String}
    (planned : pickToCordon config.block (store.state.snapshot config.protection)
      (store.state.spare / config.block.raw.toNat - config.target) = .ok picked) :
    (store.updateNodes (openIds (store.state.snapshot config.protection) picked)
      (·.cordon now) (NodeRecord.id_cordon · now)).openNodes ≠ [] := by
  intro hnone
  obtain ⟨hnodup, hopen⟩ := openIds_spec (State.distinct_of_store store) planned
  have hlength := (Store.openNodes_cordon now hnodup hopen).length_eq
  rw [hnone, List.append_nil] at hlength
  have hbound := openIds_bound huniform hblock (sub_nonneg.mpr above.le) planned
  have hspare := @Store.freeUnder_le store shape store.openNodes
  rw [← huniform.spare_eq, ← hlength] at hspare
  -- All open nodes together hold the spare capacity; the ones shed hold at least a block less.
  have hpos := config.block_pos
  have hfloor := Int.ediv_mul_le store.state.spare (ne_of_gt hpos)
  have hkept := config.block_le_need htarget
  rw [sub_mul] at hbound
  omega

theorem openNodes_ne_nil_of_spare (huniform : store.Uniform shape) (h : 0 < store.state.spare) :
    store.openNodes ≠ [] := by
  intro hnone
  rw [huniform.spare_eq, hnone] at h
  exact absurd h (lt_irrefl 0)

theorem openNodes_ne_nil_of_enlarged {calls : List (Command × Store)} {added : Nat}
    (hne : store.nodes.rows ≠ []) (hopen : ∀ node ∈ store.nodes.rows, node.unschedulable = false)
    (h : Enlarged config shape.pool store calls added store') : store'.openNodes ≠ [] := by
  obtain ⟨node, hnode⟩ := List.exists_mem_of_ne_nil _ hne
  have hthere : node ∈ store'.nodes.rows := by
    cases h with
    | unplanned => exact hnode
    | sufficient => exact hnode
    | @asked _ plan =>
      obtain ⟨numbers, -, hgrowth⟩ :=
        shape.exists_growth (plan.targetSize - store.nodes.size) store.nodes.size store
      exact hgrowth.rows_perm.mem_iff.mpr (List.mem_append_right _ hnode)
  exact List.ne_nil_of_mem ((Store.mem_openNodes_of_mem hthere).mpr (hopen node hnode))

/-- Whichever branch is taken, an open node is left. -/
theorem openNodes_ne_nil_of_scaled {calls : List (Command × Store)} {outcome : Outcome}
    (huniform : store.Uniform shape) (hne : store.nodes.rows ≠ [])
    (hblock : config.block.raw.toNat < 2 ^ 63) (htarget : 1 ≤ config.target)
    (h : Scaled config shape.pool now store (store.state.spare / config.block.raw.toNat) calls
      outcome store') : store'.openNodes ≠ [] := by
  cases h with
  | uncordoned below planned covers =>
    have hdeficit := Config.deficit_pos below
    obtain ⟨id, hid⟩ := List.exists_mem_of_ne_nil _ (uncordon_ne_nil planned hdeficit covers)
    have hperm := Store.openNodes_uncordon
      (nodup_uncordon (State.distinct_of_store store) planned hdeficit)
      fun id hid => exists_of_mem_uncordon planned hdeficit hid
    exact List.ne_nil_of_mem (hperm.mem_iff.mpr (List.mem_append_left _ hid))
  | enlarged below planned misses commands enlarges =>
    refine openNodes_ne_nil_of_enlarged ?_
      (all_open_of_misses planned (Config.deficit_pos below) misses) enlarges
    rw [Store.rows_updateNodes, ne_eq, List.map_eq_nil_iff]
    exact hne
  | cordoned above planned => exact openNodes_cordon_ne_nil huniform hblock htarget above planned
  | level level =>
    apply openNodes_ne_nil_of_spare huniform
    have hpos := config.block_pos
    have hfloor := Int.ediv_mul_le store.state.spare (ne_of_gt hpos)
    have hkept := config.block_le_need htarget
    rw [level] at hfloor
    omega

/-! ### Reaping -/

theorem reap_keeps_open (config : Config) (shape : NodeShape) (later : Instant)
    (outage : Outage) {node : NodeRecord} (hnode : node ∈ store.nodes.rows)
    (hopen : node.unschedulable = false) :
    node ∈ ((reap config.grace config.protection later).run shape.backend.hampered
      ⟨store, outage⟩).2.world.nodes.rows := by
  obtain ⟨q, rest, hcontinues, honly⟩ := exists_continues_reap config shape later store outage
  have hstays : ¬ ∃ other ∈ store.nodes.rows, Reapable config store later other ∧
      other.id = node.id := by
    rintro ⟨other, hother, hreap, hid⟩
    have hbarred := hreap.cordoned
    rw [store.nodes.eq_of_key_eq hother hnode hid, hopen] at hbarred
    exact absurd hbarred Bool.false_ne_true
  have hexecute : ∀ command (world : Store), command.Removes (fun id => ∃ other ∈ store.nodes.rows,
      Reapable config store later other ∧ other.id = id) → node ∈ world.nodes.rows →
      node ∈ (shape.backend.execute command world).2.nodes.rows := by
    intro command world hremoves hworld
    cases command with
    | deleteNodes ids =>
      show node ∈ (ids.foldl Store.dropNode world).nodes.rows
      rw [Store.foldl_dropNode]
      exact Store.mem_nodes_dropNodes.mpr ⟨hworld, fun hid => hstays (hremoves node.id hid)⟩
    | deregister id =>
      show node ∈ (world.dropNode id).nodes.rows
      rw [Store.dropNode_eq]
      refine Store.mem_nodes_dropNodes.mpr ⟨hworld, fun hid => ?_⟩
      rw [← List.mem_singleton.mp hid] at hremoves
      exact hstays hremoves
    | uncordon id => exact hremoves.elim
    | cordon id t => exact hremoves.elim
    | increaseToSize size => exact hremoves.elim
  rw [hcontinues.run_eq]
  exact (honly.hampered_keeps (fun _ => rfl) hexecute store rest hnode).2

/-! ### The whole reconciliation -/

theorem uniform_execute {command : Command} (h : store.Uniform shape) :
    (shape.backend.execute command store).2.Uniform shape := by
  intro node hnode
  cases descends_of_mem hnode with
  | kept old => exact h node old
  | opened old => exact (NodeRecord.capacity_uncordon _).trans (h _ old)
  | barred old => exact (NodeRecord.capacity_cordon _ _).trans (h _ old)
  | added => rfl

theorem nonempty_of_retains (h : Retains store store') (hne : store.nodes.rows ≠ []) :
    store'.nodes.rows ≠ [] := by
  obtain ⟨node, hnode⟩ := List.exists_mem_of_ne_nil _ hne
  obtain ⟨other, hother, -⟩ := Table.contains_iff.mp (h.contains _ (Table.contains_of_mem hnode))
  exact List.ne_nil_of_mem hother

/-- A pool of equal nodes that may be reconciled: it has a node, and its totals are in range. -/
structure Fit (config : Config) (shape : NodeShape) (store : Store) : Prop where
  block : config.block.raw.toNat < 2 ^ 63
  target : 1 ≤ config.target
  uniform : store.Uniform shape
  nonempty : store.nodes.rows ≠ []
  moderate : store.state.Moderate

theorem Fit.openNodes_ne_nil (h : Fit config shape store) {result : Int × Outcome}
    {after : Hampered Store}
    (hrun : (adjust config now).run shape.backend.hampered ⟨store, outage⟩ = (.ok result, after)) :
    after.world.openNodes ≠ [] := by
  obtain ⟨-, hblocks, hscaled⟩ := scaled_of_completes (completes_of_run (run_of_hampered_ok hrun))
  have hexact : (store.state.snapshot config.protection).availableBlocks config.block =
      .ok (store.state.spare / config.block.raw.toNat) :=
    State.availableBlocks_snapshot (State.distinct_of_store store) h.moderate h.block
  rw [← Except.ok.inj (hexact.symm.trans hblocks)] at hscaled
  exact openNodes_ne_nil_of_scaled h.uniform h.nonempty h.block h.target hscaled

/-- However a reconciliation of a fit pool ends, a node is left; if it is complete, an open one. -/
theorem Fit.survives (h : Fit config shape store) (now later : Instant) (outage : Outage) :
    ((tick config now later).run shape.backend.hampered ⟨store, outage⟩).2.world.nodes.rows ≠ [] ∧
    ∀ report, ((tick config now later).run shape.backend.hampered ⟨store, outage⟩).1 = .ok report →
      ∃ node ∈ ((tick config now later).run shape.backend.hampered
        ⟨store, outage⟩).2.world.nodes.rows, node.unschedulable = false := by
  have hopen : ∀ {done : Int × Outcome} {middle : Hampered Store},
      (adjust config now).run shape.backend.hampered ⟨store, outage⟩ = (.ok done, middle) →
      ∃ node ∈ ((reap config.grace config.protection later).run shape.backend.hampered
        middle).2.world.nodes.rows, node.unschedulable = false := by
    intro done middle adjusts
    obtain ⟨id, hid⟩ := List.exists_mem_of_ne_nil _ (h.openNodes_ne_nil adjusts)
    obtain ⟨node, hnode, hopen, -⟩ := Store.mem_openNodes.mp hid
    exact ⟨node, reap_keeps_open config shape later middle.outage hnode hopen, hopen⟩
  rcases htick : (tick config now later).run shape.backend.hampered ⟨store, outage⟩ with
    ⟨result, final⟩
  cases ends_of_run htick with
  | scaling adjusts =>
    -- A scaling removes no id, so what there was at the start is there still.
    have hexecute : ∀ command world, command.Scales → Retains store world →
        Retains store (shape.backend.execute command world).2 :=
      fun command world hscales hworld => hworld.trans (retains_execute shape hscales world)
    have hretains := ((adjust_only config now).hampered_keeps (fun _ => rfl) hexecute store outage
      ⟨rfl, fun _ hid => hid⟩).2
    rw [adjusts] at hretains
    exact ⟨nonempty_of_retains hretains h.nonempty, fun report hreport => nomatch hreport⟩
  | reaping adjusts reaps =>
    obtain ⟨node, hnode, -⟩ := hopen adjusts
    rw [reaps] at hnode
    exact ⟨List.ne_nil_of_mem hnode, fun report hreport => nomatch hreport⟩
  | reported adjusts reaps =>
    obtain ⟨node, hnode, hstays⟩ := hopen adjusts
    rw [reaps] at hnode
    exact ⟨List.ne_nil_of_mem hnode, fun _ _ => ⟨node, hnode, hstays⟩⟩

/-! ### An empty pool -/

/-- Followed from the store in any outage, the procedure leaves the store as it is. -/
def Idle {α : Type} (shape : NodeShape) (store : Store) (p : Procedure α) : Prop :=
  ∀ outage, (p.run shape.backend.hampered ⟨store, outage⟩).2.world = store

section Idle

variable {α β : Type} {p : Procedure α}

theorem Idle.bind {f : α → Procedure β} (hp : Idle shape store p)
    (hf : ∀ a, Idle shape store (f a)) : Idle shape store (p >>= f) := by
  intro outage
  rw [run_bind]
  have hstill := hp outage
  rcases hrun : p.run shape.backend.hampered ⟨store, outage⟩ with ⟨halt | a, world, rest⟩
  · rwa [hrun] at hstill
  · rw [hrun] at hstill
    obtain rfl : world = store := hstill
    exact hf a rest

theorem Idle.compute_bind {value : Except Fault α} {f : α → Procedure β}
    (hf : ∀ a, value = .ok a → Idle shape store (f a)) :
    Idle shape store (compute value >>= f) := by
  cases value with
  | ok a => exact hf a rfl
  | error fault => exact fun _ => rfl

theorem Idle.capture_bind {rule : Cluster.Protection} {f : Cluster.Snapshot → Procedure β}
    (hf : Idle shape store (f (store.state.snapshot rule))) :
    Idle shape store (capture rule >>= f) := by
  intro outage
  obtain ⟨q, rest, hcontinues, rfl | ⟨error, rfl⟩⟩ :=
    @exists_continues_capture shape store outage _ rule f
  · rw [hcontinues.run_eq]
    exact hf rest
  · rw [hcontinues.run_eq]
    rfl

end Idle

theorem nodes_snapshot_of_empty (h : store.nodes.rows = []) (rule : Cluster.Protection) :
    (store.state.snapshot rule).nodes = [] := by
  have hperm := store.state.nodes_snapshot_perm rule
  rw [show store.state.nodes = [] from h] at hperm
  exact hperm.eq_nil

theorem capacityProxy?_of_empty (h : store.nodes.rows = []) (rule : Cluster.Protection) :
    (store.state.snapshot rule).capacityProxy? = none := by
  rw [Cluster.Snapshot.capacityProxy?, nodes_snapshot_of_empty h]
  rfl

theorem enlarge_idle (h : store.nodes.rows = []) : Idle shape store (enlarge config) := by
  refine Idle.capture_bind (Idle.compute_bind fun available _ => Idle.compute_bind fun plan hplan =>
    ?_)
  rw [growthPlan, capacityProxy?_of_empty h] at hplan
  obtain rfl := Except.ok.inj hplan
  exact fun _ => rfl

theorem grow_idle (h : store.nodes.rows = []) {deficit : Int} (hdeficit : 0 < deficit) :
    Idle shape store (grow config (store.state.snapshot config.protection) deficit) := by
  refine Idle.compute_bind fun plan hplan => ?_
  have hnone : plan.ids = [] := List.eq_nil_iff_forall_not_mem.mpr fun id hid => by
    obtain ⟨node, hnode, -⟩ := exists_of_mem_uncordon hplan hdeficit hid
    have hrow : node ∈ store.nodes.rows := (State.mem_cordoned.mp hnode).1
    exact List.not_mem_nil (h ▸ hrow)
  show Idle shape store (issueAll (plan.ids.map .uncordon) >>= _)
  rw [hnone]
  refine Idle.bind (fun _ => rfl) fun _ => ?_
  split
  · exact fun _ => rfl
  · exact (enlarge_idle h).bind fun _ _ => rfl

theorem shrink_idle (h : store.nodes.rows = []) (surplus : Int) :
    Idle shape store (shrink config now (store.state.snapshot config.protection) surplus) := by
  refine Idle.compute_bind fun picked hpicked => ?_
  rw [pickToCordon, capacityProxy?_of_empty h] at hpicked
  obtain rfl := Except.ok.inj hpicked
  exact fun _ => rfl

theorem adjust_idle (h : store.nodes.rows = []) : Idle shape store (adjust config now) := by
  refine Idle.capture_bind (Idle.compute_bind fun available _ => Idle.bind ?_ fun _ _ => rfl)
  unfold scale
  split
  · rename_i below
    exact grow_idle h (Config.deficit_pos below)
  · split
    · exact Idle.compute_bind fun surplus _ => shrink_idle h surplus
    · exact fun _ => rfl

theorem reap_idle (h : store.nodes.rows = []) :
    Idle shape store (reap config.grace config.protection later) := by
  rw [reap_eq]
  refine Idle.capture_bind ?_
  unfold reapFrom
  rcases hdoomed : doomed config.grace (store.state.snapshot config.protection) later with e | gone
  · exact fun _ => rfl
  · have hnone : gone.map (·.id) = [] := List.eq_nil_iff_forall_not_mem.mpr fun id hid => by
      obtain ⟨node, hnode, -⟩ := (mem_doomed_iff hdoomed).mp hid
      exact List.not_mem_nil (h ▸ hnode)
    simp only [hnone]
    exact fun _ => rfl

/-- A pool without nodes gives no capacity to plan with, so it is left as it is. -/
theorem tick_idle (h : store.nodes.rows = []) : Idle shape store (tick config now later) :=
  (adjust_idle h).bind fun _ => (reap_idle h).bind fun _ _ => rfl

/-! ### Histories -/

theorem fit_history {start : Store} {events : Nat → Event} {n : Nat}
    (hblock : config.block.raw.toNat < 2 ^ 63) (htarget : 1 ≤ config.target)
    (huniform : start.Uniform shape) (hne : start.nodes.rows ≠ [])
    (hmoderate : ∀ i ≤ n, (history config shape start events i).state.Moderate) :
    ∀ i ≤ n, Fit config shape (history config shape start events i) := by
  intro i hi
  have hkept := history_keeps (fun world => world.Uniform shape ∧ world.nodes.rows ≠ [])
    (fun _ _ h => h) (Nat.zero_le i) ⟨huniform, hne⟩ fun k _ hk now later outage _ hbefore => by
      have hfit : Fit config shape (history config shape start events k) :=
        ⟨hblock, htarget, hbefore.1, hbefore.2, hmoderate k (by omega)⟩
      exact ⟨(tick_keeps config shape now later outage hbefore.1
        fun _ _ _ hworld => uniform_execute hworld).2.2, (hfit.survives now later outage).1⟩
  exact ⟨hblock, htarget, hkept.1, hkept.2, hmoderate i hi⟩

theorem empty_history {start : Store} {events : Nat → Event} (h : start.nodes.rows = []) (n : Nat) :
    (history config shape start events n).nodes.rows = [] := by
  refine history_keeps (·.nodes.rows = []) (fun _ _ h => h) (Nat.zero_le n) h ?_
  intro k _ _ now later outage _ hbefore
  rw [tick_idle hbefore outage]
  exact hbefore

/-- Let a pool of equal nodes have at least one, the target be positive, and the block and the
totals of every store of a history stay below 2^63. Then no reconciliation of the history leaves the
pool empty, however it ends, and one that is complete leaves an open node. From an empty pool no
history leads to a node. -/
theorem pool_survives (config : Config) (shape : NodeShape) {start : Store} {events : Nat → Event}
    {n : Nat} (hblock : config.block.raw.toNat < 2 ^ 63) (htarget : 1 ≤ config.target)
    (huniform : start.Uniform shape) (hne : start.nodes.rows ≠ [])
    (hmoderate : ∀ i ≤ n, (history config shape start events i).state.Moderate) :
    (∀ i ≤ n, (history config shape start events i).nodes.rows ≠ []) ∧
    (∀ i < n, ∀ now later outage, events i = .tick now later outage →
      ∀ report, ((tick config now later).run shape.backend.hampered
        ⟨history config shape start events i, outage⟩).1 = .ok report →
      ∃ node ∈ (history config shape start events (i + 1)).nodes.rows,
        node.unschedulable = false) ∧
    ∀ (empty : Store) (others : Nat → Event), empty.nodes.rows = [] →
      ∀ i, (history config shape empty others i).nodes.rows = [] := by
  have hfit : ∀ i ≤ n, Fit config shape (history config shape start events i) :=
    fit_history hblock htarget huniform hne hmoderate
  refine ⟨fun i hi => (hfit i hi).nonempty, fun i hi now later outage hevent report hreport => ?_,
    fun _ _ hempty => empty_history hempty⟩
  rw [history, hevent]
  exact ((hfit i hi.le).survives now later outage).2 report hreport

/-- The small pool is reconciled again and again. -/
def steadyEvents (_ : Nat) : Event := .tick smallNow smallNow {}

set_option maxRecDepth 10000 in
theorem steady_moderate : ∀ i ≤ 1,
    (history greedyConfig {} smallStore steadyEvents i).state.Moderate := by
  have hcapacity : (history greedyConfig {} smallStore steadyEvents 1).state.totalCapacity =
      4000 := by cbv
  have hrequests : (history greedyConfig {} smallStore steadyEvents 1).state.totalRequests =
      300 := by cbv
  intro i hi
  rcases Nat.le_one_iff_eq_zero_or_eq_one.mp hi with rfl | rfl
  · exact ⟨greedyConfig_inRange.capacity, greedyConfig_inRange.requests⟩
  · exact ⟨hcapacity.trans_lt (by decide), hrequests.trans_lt (by decide)⟩

set_option maxRecDepth 10000 in
theorem steady_run : ((tick greedyConfig smallNow smallNow).run (NodeShape.backend {}).hampered
    ⟨history greedyConfig {} smallStore steadyEvents 0, {}⟩).1 =
      .ok ⟨20, 35, .grown ["b"] 1, []⟩ := by cbv

theorem pool_survives_small :
    greedyConfig.block.raw.toNat < 2 ^ 63 ∧ 1 ≤ greedyConfig.target ∧ smallStore.Uniform {} ∧
    ∃ node ∈ (history greedyConfig {} smallStore steadyEvents 1).nodes.rows,
      node.unschedulable = false := by
  have hblock := greedyConfig_inRange.block
  have htarget : 1 ≤ greedyConfig.target := by decide
  have hsurvives := pool_survives greedyConfig {} hblock htarget smallStore_homogeneous.uniform
    smallStore_homogeneous.nonempty steady_moderate
  exact ⟨hblock, htarget, smallStore_homogeneous.uniform,
    hsurvives.2.1 0 (by decide) smallNow smallNow {} rfl _ steady_run⟩

end Headroom.Scaling
