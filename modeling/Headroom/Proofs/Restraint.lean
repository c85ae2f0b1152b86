import Headroom.Proofs.Covering
import Headroom.Proofs.Necessity

/-! How far a reconciliation goes in opening nodes. The deficit is counted once, in whole blocks,
and drawn down by what each node frees, so no node is opened when it is covered. Before the last
node a snapshot counts at most the target; it counts the target where what is still missing is no
more than the part of a block that was rounded off at the start. -/

namespace Headroom

namespace Scaling

open Cluster (Node NodeRecord Protection Snapshot State Store)
open Procedure

variable {config : Config} {pool : Command → Store → Store} {now later : Instant} {store : Store}

/-! ### The calls that open nodes -/

/-- The node that a command opens. -/
def Command.opened? : Command → Option String
  | .uncordon id => some id
  | _ => none

/-- The nodes that some calls open, in their order. -/
def opened (calls : List (Command × Store)) : List String :=
  (calls.map Prod.fst).filterMap Command.opened?

/-- Whatever it is answered, the procedure opens nothing. -/
abbrev OpensNothing {α : Type} (p : Procedure α) : Prop := p.Only (·.opened? = none)

theorem opened_of_opensNothing {α : Type} {p : Procedure α} (hp : OpensNothing p)
    (backend : Backend Store) (world : Store) : opened (p.issued backend world) = [] :=
  List.filterMap_eq_nil_iff.mpr (List.forall_mem_map.mpr hp.mem_issued)

/-- What goes on without opening nodes leaves those opened before. -/
theorem opened_bind {α β : Type} (p : Procedure α) {f : α → Procedure β}
    (hf : ∀ a, OpensNothing (f a)) (backend : Backend Store) (world : Store) :
    opened ((p >>= f).issued backend world) = opened (p.issued backend world) := by
  rw [issued_bind, opened, List.map_append, List.filterMap_append]
  rcases p.run backend world with ⟨halt | a, middle⟩
  · exact List.append_nil _
  · exact (congrArg _ (opened_of_opensNothing (hf a) backend middle)).trans (List.append_nil _)

theorem opened_issueAll (backend : Backend Store) (ids : List String) (world : Store) :
    opened ((issueAll (ids.map .uncordon)).issued backend world) <+: ids := by
  have hids : (ids.map Command.uncordon).filterMap Command.opened? = ids := by
    rw [List.filterMap_map]
    exact List.filterMap_some
  have hfront := (issued_issueAll backend (ids.map .uncordon) world).filterMap Command.opened?
  rwa [hids] at hfront

theorem enlarge_opensNothing (config : Config) : OpensNothing (enlarge config) := by
  refine (Only.capture _).bind fun s => (Only.compute _).bind fun available =>
    (Only.compute _).bind fun plan => ?_
  cases plan with
  | none => exact .pure _
  | some plan =>
    dsimp only
    split
    · exact .pure _
    · exact (Only.issueAll (by simp [Command.opened?])).bind fun _ => .pure _

theorem shrink_opensNothing (config : Config) (now : Instant) (s : Snapshot) (surplus : Int) :
    OpensNothing (shrink config now s surplus) :=
  (Only.compute _).bind fun picked =>
    (Only.issueAll (List.forall_mem_map.mpr (by simp [Command.opened?]))).bind fun _ => .pure _

theorem scale_opensNothing {available : Int} (h : config.target ≤ available) (now : Instant)
    (s : Snapshot) : OpensNothing (scale config now s available) := by
  rw [scale, if_neg (by omega)]
  split
  · exact (Only.compute _).bind fun surplus => shrink_opensNothing config now s surplus
  · exact .pure _

theorem reap_opensNothing (config : Config) (now : Instant) :
    OpensNothing (reap config.grace config.protection now) := by
  refine (reap_removes config now).mono fun command hremoves => ?_
  cases command with
  | uncordon id => exact hremoves.elim
  | _ => rfl

/-- Growing opens candidates from the front of its plan. -/
theorem opened_grow {s : Snapshot} {deficit : Int} {plan : UncordonPlan}
    (hplan : pickToUncordon config.block s deficit = .ok plan) (backend : Backend Store)
    (world : Store) : opened ((grow config s deficit).issued backend world) <+: plan.ids := by
  rw [grow, issued_compute_bind, hplan]
  dsimp only
  rw [opened_bind]
  · exact opened_issueAll backend plan.ids world
  · intro _
    split
    · exact .pure _
    · exact (enlarge_opensNothing config).bind fun _ => .pure _

/-- A reconciliation that opens nodes has counted a deficit, and opens candidates from the front of
the plan for it. -/
theorem exists_plan_of_opened {id : String} {before after : List String}
    (h : opened ((tick config now later).issued (clusterBackend pool) store) =
      before ++ id :: after) :
    (∀ node ∈ store.nodes.rows, node.capacity.isSome) ∧ ∃ available plan,
      (store.state.snapshot config.protection).availableBlocks config.block = .ok available ∧
      available < config.target ∧
      pickToUncordon config.block (store.state.snapshot config.protection)
        (config.deficit available) = .ok plan ∧ before ++ id :: after <+: plan.ids := by
  have hne : before ++ id :: after ≠ [] := by simp
  rw [tick, opened_bind _ fun _ => (reap_opensNothing config later).bind fun _ => .pure _, adjust,
    issued_capture_bind] at h
  cases hs : Snapshot.ofState store.state config.protection with
  | error error =>
    rw [hs] at h
    exact absurd h.symm hne
  | ok s =>
    obtain ⟨hknown, rfl⟩ := State.ofState_eq_ok_iff.mp hs
    simp only [hs, issued_compute_bind] at h
    refine ⟨hknown, ?_⟩
    cases hblocks : (store.state.snapshot config.protection).availableBlocks config.block with
    | error fault =>
      rw [hblocks] at h
      exact absurd h.symm hne
    | ok available =>
      simp only [hblocks] at h
      rw [opened_bind _ fun _ => .pure _] at h
      rcases lt_or_ge available config.target with hbelow | habove
      · rw [scale, if_pos hbelow] at h
        cases hplan : pickToUncordon config.block (store.state.snapshot config.protection)
            (config.deficit available) with
        | error fault =>
          rw [grow, issued_compute_bind, hplan] at h
          exact absurd h.symm hne
        | ok plan => exact ⟨available, plan, rfl, hbelow, hplan, h ▸ opened_grow hplan _ _⟩
      · rw [opened_of_opensNothing (scale_opensNothing habove now _)] at h
        exact absurd h.symm hne

/-! ### What opening nodes adds -/

/-- Opened nodes add what they have free, if they were barred. -/
theorem spare_uncordon (store : Store) (ids : List String) :
    (store.updateNodes ids NodeRecord.uncordon NodeRecord.id_uncordon).state.spare =
      store.state.spare +
        ((store.state.cordoned.filter (·.id ∈ ids)).map store.state.freeOn).sum := by
  have hsome := spare_uncordon_add store ids
  have hnone := spare_uncordon_add store []
  have hall : leftOut store [] = store.state.cordoned :=
    List.filter_eq_self.mpr fun node _ => by simp
  have hsplit := ((List.filter_append_perm (·.id ∈ ids) store.state.cordoned).map
    store.state.freeOn).sum_eq
  have hleft : leftOut store ids =
      store.state.cordoned.filter fun node => !decide (node.id ∈ ids) :=
    List.filter_congr fun node _ => decide_not
  rw [Store.updateNodes_nil, hall] at hnone
  rw [List.map_append, List.sum_append, ← hleft] at hsplit
  omega

/-- The front of an order of the barred nodes adds what its nodes free. -/
theorem spare_uncordon_front (rule : Protection) {sorted front : List Node}
    (hperm : sorted.Perm (store.state.snapshot rule).cordoned) (hfront : front <+: sorted) :
    (store.updateNodes (front.map (·.id)) NodeRecord.uncordon
        NodeRecord.id_uncordon).state.spare =
      store.state.spare + (front.map (store.state.snapshot rule).freeOn).sum := by
  obtain ⟨tail, rfl⟩ := hfront
  have hviews := hperm.trans (store.state.cordoned_snapshot_perm rule)
  have hnodup : ((front ++ tail).map (·.id)).Nodup := by
    rw [(hviews.map _).nodup_iff, List.map_map]
    exact (State.distinct_of_store store).cordoned
  -- The ids are distinct, so of the whole order only the front carries one of its ids.
  have hkeep : (front ++ tail).filter (·.id ∈ front.map (·.id)) = front := by
    rw [List.map_append] at hnodup
    have htail : tail.filter (·.id ∈ front.map (·.id)) = [] :=
      List.filter_eq_nil_iff.mpr fun node hnode hid => (List.nodup_append.mp hnodup).2.2 node.id
        (by simpa using hid) node.id (List.mem_map_of_mem hnode) rfl
    rw [List.filter_append, htail, List.append_nil]
    exact List.filter_eq_self.mpr fun node hnode => by simpa using ⟨node, hnode, rfl⟩
  have hfilter := hviews.filter (·.id ∈ front.map (·.id))
  rw [hkeep, List.filter_map] at hfilter
  rw [spare_uncordon, (hfilter.map _).sum_eq, List.map_map]
  refine congrArg _ (congrArg List.sum (List.map_congr_left fun node hnode => ?_))
  have hrow := (State.mem_cordoned.mp (List.mem_filter.mp hnode).1).1
  exact (State.freeOn_snapshot rule hrow).symm

/-! ### The deficit in units -/

/-- Clamped twice, the deficit is never counted for more than it is. -/
theorem unitsOf_deficit_le (hblock : config.block.raw.toNat < 2 ^ 63) {available : Int}
    (h : available < config.target) : unitsOf config.block (config.deficit available) ≤
      (config.target - available) * config.block.raw.toNat := by
  refine (unitsOf_le hblock (Config.deficit_pos h).le).trans
    (mul_le_mul_of_nonneg_right ?_ config.block_pos.le)
  unfold Config.deficit Word.clamp Word.least
  omega

/-! ### The extent of opening -/

/-- Candidates short of the last add less than the deficit in units. -/
theorem spare_uncordon_lt (hm : store.state.Moderate) {rule : Protection} {deficit : Int}
    {plan : UncordonPlan} {before after : List String} {id : String} (hdeficit : 0 < deficit)
    (hpos : 0 < unitsOf config.block deficit)
    (hplan : pickToUncordon config.block (store.state.snapshot rule) deficit = .ok plan)
    (hfront : before ++ id :: after <+: plan.ids) :
    (store.updateNodes before NodeRecord.uncordon NodeRecord.id_uncordon).state.spare <
      store.state.spare + unitsOf config.block deficit := by
  rw [pickToUncordon, if_neg (by omega)] at hplan
  obtain ⟨sorted, hsorted, hdraw⟩ := bind_eq_ok_iff.mp hplan
  have hperm := byUse_perm hsorted
  have hfree : ∀ node ∈ sorted, (store.state.snapshot rule).free node =
      .ok ((store.state.snapshot rule).freeOn node) := fun node hnode =>
    State.free_of_cordoned hm (hperm.mem_iff.mp hnode)
  obtain ⟨picked, satisfied, hpicked, hresult, -⟩ :=
    exists_drawDown hfree (unitsOf config.block deficit)
  obtain rfl := Except.ok.inj (hresult.symm.trans hdraw)
  obtain ⟨rest, hids⟩ := hfront
  have hids : picked.map (·.id) = before ++ id :: (after ++ rest) := by
    rw [← List.cons_append, ← List.append_assoc, hids, UncordonPlan.ids, List.map_map]
    rfl
  obtain ⟨front, others, rfl, rfl, hothers⟩ := List.map_eq_append_iff.mp hids
  obtain ⟨last, others, rfl, -, -⟩ := List.map_eq_cons_iff.mp hothers
  have hless := drawDown_undershoots hresult hpos (List.map_append ..)
  rw [sum_freed] at hless
  rw [spare_uncordon_front rule hperm ((List.prefix_append front _).trans hpicked)]
  omega

/-- Let a reconciliation open some nodes, with the block and the totals of the store below 2^63, and
take those opened before one of them. What they add to the spare capacity is less than the deficit,
counted in the whole blocks that the snapshot at the start misses. With only these nodes opened a
snapshot counts at most the target; and it counts less exactly if what is still missing of the
deficit is more than the part of a block that was rounded off at the start. -/
theorem uncordons_within_deficit (config : Config) (pool : Command → Store → Store)
    (now later : Instant) (rule : Protection) {store : Store} {before after : List String}
    {id : String} (hblock : config.block.raw.toNat < 2 ^ 63) (hm : store.state.Moderate)
    (hopened : opened ((tick config now later).issued (clusterBackend pool) store) =
      before ++ id :: after) :
    let world := store.updateNodes before NodeRecord.uncordon NodeRecord.id_uncordon
    let gain := world.state.spare - store.state.spare
    ∃ s available t blocks,
      Snapshot.ofState store.state config.protection = .ok s ∧
      s.availableBlocks config.block = .ok available ∧ available < config.target ∧
      Snapshot.ofState world.state rule = .ok t ∧
      t.availableBlocks config.block = .ok blocks ∧
      gain < (config.target - available) * config.block.raw.toNat ∧
      blocks ≤ config.target ∧
      (blocks < config.target ↔ store.state.spare % config.block.raw.toNat <
        (config.target - available) * config.block.raw.toNat - gain) := by
  intro world gain
  obtain ⟨hknown, available, plan, hblocks, hbelow, hplan, hfront⟩ := exists_plan_of_opened hopened
  have hpos := config.block_pos
  have hdeficit := Config.deficit_pos hbelow
  have hless : world.state.spare < _ :=
    spare_uncordon_lt hm hdeficit (unitsOf_pos hblock hdeficit) hplan hfront
  have hunits := unitsOf_deficit_le hblock hbelow
  have hworld : (world.state.snapshot rule).availableBlocks config.block =
      .ok (world.state.spare / config.block.raw.toNat) :=
    State.availableBlocks_snapshot (State.distinct_of_store world)
      (moderate_updateNodes hm _ NodeRecord.capacity_uncordon) hblock
  obtain rfl := Except.ok.inj ((State.availableBlocks_snapshot
    (State.distinct_of_store store) hm hblock).symm.trans hblocks)
  -- The draw misses the target by a number of whole blocks; the rest of a block stays aside.
  have hmissing := sub_mul (config.target : Int) (store.state.spare / config.block.raw.toNat)
    config.block.raw.toNat
  have hsplit := Int.ediv_mul_add_emod store.state.spare config.block.raw.toNat
  refine ⟨_, _, _, _, State.ofState_eq_ok_iff.mpr ⟨hknown, rfl⟩, hblocks, hbelow,
    State.ofState_eq_ok_iff.mpr ⟨?_, rfl⟩, hworld, ?_, ?_, ?_⟩
  · intro node hnode
    obtain ⟨old, hold, rfl⟩ := List.mem_map.mp hnode
    split
    · exact hknown old hold
    · exact hknown old hold
  · exact sub_left_lt_of_lt_add (hless.trans_le (by omega))
  · have hround := Int.emod_lt_of_pos store.state.spare hpos
    refine Int.lt_add_one_iff.mp (Int.ediv_lt_of_lt_mul hpos ?_)
    rw [add_one_mul]
    omega
  · rw [Int.ediv_lt_iff_lt_mul hpos]
    omega

/-- A node with a quarter of a block left, and two that are cordoned and all but idle. -/
def fractionStore : Store := .ofState {
  nodes := [
    { id := "a", capacity := some 1000 },
    { id := "b", capacity := some 1000, unschedulable := true,
      annotations := .ofList [(Cluster.cordonKey, "2023-11-14T11:55:00Z")] },
    { id := "c", capacity := some 1000, unschedulable := true,
      annotations := .ofList [(Cluster.cordonKey, "2023-11-14T11:55:00Z")] }]
  pods := [
    { space := "games", name := "x", nodeId := some "a", request := 950 },
    { space := "games", name := "y", nodeId := some "b", request := 50 }] }

/-- Six blocks of a fifth of a processor spare. -/
def ampleConfig : Config := { fiveConfig with target := 6, target_le := by decide }

set_option maxRecDepth 10000 in
theorem uncordons_within_deficit_fraction : fractionStore.state.Moderate ∧
    opened ((tick ampleConfig smallNow).issued (NodeShape.backend {}) fractionStore) =
      ["b"] ++ "c" :: [] ∧
    fractionStore.state.spare % ampleConfig.block.raw.toNat = 50 ∧
    ∃ t blocks, Snapshot.ofState (fractionStore.updateNodes ["b"] NodeRecord.uncordon
        NodeRecord.id_uncordon).state {} = .ok t ∧
      t.availableBlocks ampleConfig.block = .ok blocks ∧ blocks < ampleConfig.target := by
  have hm : fractionStore.state.Moderate := ⟨by decide, by decide⟩
  have hopened : opened ((tick ampleConfig smallNow).issued (NodeShape.backend {}) fractionStore) =
      ["b"] ++ "c" :: [] := by cbv
  obtain ⟨s, available, t, blocks, hs, havailable, -, ht, hblocks, -, -, hless⟩ :=
    uncordons_within_deficit ampleConfig (NodeShape.pool {}) smallNow smallNow {} (by decide) hm
      hopened
  have hstart : available = 0 := by
    obtain ⟨-, rfl⟩ := State.ofState_eq_ok_iff.mp hs
    have hzero : (fractionStore.state.snapshot ampleConfig.protection).availableBlocks
        ampleConfig.block = .ok 0 := by cbv
    exact Except.ok.inj (havailable.symm.trans hzero)
  subst hstart
  exact ⟨hm, hopened, by decide, t, blocks, ht, hblocks, hless.mpr (by decide)⟩

set_option maxRecDepth 10000 in
/-- With the first node opened the target is met. But it does not cover the deficit of five whole
blocks, so the second one is opened too. -/
theorem opened_past_target : Homogeneous {} fractionStore ∧ InRange fiveConfig fractionStore ∧
    ((tick fiveConfig smallNow).issued (NodeShape.backend {}) fractionStore).map Prod.fst =
      [.uncordon "b", .uncordon "c"] ∧
    (∃ s available, Snapshot.ofState fractionStore.state {} = .ok s ∧
      s.availableBlocks fiveConfig.block = .ok available ∧ available < fiveConfig.target) ∧
    ∃ t, Snapshot.ofState (fractionStore.updateNodes ["b"] NodeRecord.uncordon
        NodeRecord.id_uncordon).state {} = .ok t ∧
      t.availableBlocks fiveConfig.block = .ok fiveConfig.target := by
  refine ⟨⟨by decide, by decide, by unfold Store.Uniform; decide, by decide⟩,
    by constructor <;> decide, by cbv, ?_, ?_⟩
  · exact ⟨_, 0, State.ofState_eq_ok_iff.mpr ⟨by decide, rfl⟩, by cbv, by decide⟩
  · exact ⟨_, State.ofState_eq_ok_iff.mpr ⟨by decide, rfl⟩, by cbv⟩

end Scaling

end Headroom
