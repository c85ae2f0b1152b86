import Headroom.Proofs.Planning
import Headroom.Proofs.Store
import Headroom.Scaling.Controller

/-! The course of a reconciliation over a store: for each part that comes to its end, the branch
taken, the commands issued and the store left behind. -/

namespace Headroom.Scaling

open Cluster (NodeRecord Protection Snapshot State Store)
open Procedure

variable {pool : Command → Store → Store} {config : Config} {now : Instant} {store store' : Store}
  {calls : List (Command × Store)}

/-- A snapshot of a store changes nothing, and fails only where a capacity is unknown. -/
theorem run_capture_bind {α : Type} {rule : Protection} {f : Snapshot → Procedure α} :
    (capture rule >>= f).run (clusterBackend pool) store =
      match Snapshot.ofState store.state rule with
      | .ok s => (f s).run (clusterBackend pool) store
      | .error e => (.error (.failed (.sourceUnavailable e)), store) := by
  show ((match Snapshot.ofState store.state rule with
    | .ok s => Procedure.finish (.ok s)
    | .error e => fail (.sourceUnavailable e)) >>= f).run _ store = _
  cases Snapshot.ofState store.state rule <;> rfl

theorem issued_capture_bind {α : Type} {rule : Protection} {f : Snapshot → Procedure α} :
    (capture rule >>= f).issued (clusterBackend pool) store =
      match Snapshot.ofState store.state rule with
      | .ok s => (f s).issued (clusterBackend pool) store
      | .error _ => [] := by
  show ((match Snapshot.ofState store.state rule with
    | .ok s => Procedure.finish (.ok s)
    | .error e => fail (.sourceUnavailable e)) >>= f).issued _ store = _
  cases Snapshot.ofState store.state rule <;> rfl

theorem completes_capture_bind {α : Type} {rule : Protection} {f : Snapshot → Procedure α} {a : α} :
    (capture rule >>= f).Completes (clusterBackend pool) store calls a store' ↔
      (∀ node ∈ store.nodes.rows, node.capacity.isSome) ∧
        (f (store.state.snapshot rule)).Completes (clusterBackend pool) store calls a store' := by
  have hstate := @State.ofState_eq_ok_iff store.state rule
  constructor
  · rintro ⟨hrun, hissued⟩
    rw [run_capture_bind] at hrun
    rw [issued_capture_bind] at hissued
    split at hrun
    · rename_i s hs
      obtain ⟨hknown, rfl⟩ := hstate.mp hs
      rw [hs] at hissued
      exact ⟨hknown, hrun, hissued⟩
    · simp at hrun
  · rintro ⟨hknown, hrun, hissued⟩
    have hs := hstate.mpr ⟨hknown, rfl⟩
    exact ⟨by rw [run_capture_bind, hs]; exact hrun, by rw [issued_capture_bind, hs]; exact hissued⟩

theorem mem_issued_capture_bind {α : Type} {rule : Protection} {f : Snapshot → Procedure α}
    {call : Command × Store} :
    call ∈ (capture rule >>= f).issued (clusterBackend pool) store ↔
      (∀ node ∈ store.nodes.rows, node.capacity.isSome) ∧
        call ∈ (f (store.state.snapshot rule)).issued (clusterBackend pool) store := by
  have hstate := @State.ofState_eq_ok_iff store.state rule
  rw [issued_capture_bind]
  constructor
  · intro h
    split at h
    · rename_i s hs
      obtain ⟨hknown, rfl⟩ := hstate.mp hs
      exact ⟨hknown, h⟩
    · exact absurd h List.not_mem_nil
  · rintro ⟨hknown, h⟩
    rw [hstate.mpr ⟨hknown, rfl⟩]
    exact h

/-- How the pool is enlarged from a store: not at all without a plan or with one that adds nothing,
else by a request for the size planned. -/
inductive Enlarged (config : Config) (pool : Command → Store → Store) (store : Store) :
    List (Command × Store) → Nat → Store → Prop
  | unplanned {available : Int}
      (blocks : (store.state.snapshot config.protection).availableBlocks config.block =
        .ok available)
      (planned : growthPlan config.block (store.state.snapshot config.protection)
        (config.deficit available) = .ok none) :
      Enlarged config pool store [] 0 store
  | sufficient {available : Int} {plan : GrowthPlan}
      (blocks : (store.state.snapshot config.protection).availableBlocks config.block =
        .ok available)
      (planned : growthPlan config.block (store.state.snapshot config.protection)
        (config.deficit available) = .ok (some plan))
      (noop : plan.add ≤ 0) :
      Enlarged config pool store [] 0 store
  | asked {available : Int} {plan : GrowthPlan}
      (blocks : (store.state.snapshot config.protection).availableBlocks config.block =
        .ok available)
      (planned : growthPlan config.block (store.state.snapshot config.protection)
        (config.deficit available) = .ok (some plan))
      (adds : 0 < plan.add) :
      Enlarged config pool store [(.increaseToSize plan.targetSize, store)] plan.add.toNat
        (pool (.increaseToSize plan.targetSize) store)

theorem enlarged_of_completes {added : Nat}
    (h : (enlarge config).Completes (clusterBackend pool) store calls added store') :
    Enlarged config pool store calls added store' := by
  rw [enlarge, completes_capture_bind] at h
  obtain ⟨-, h⟩ := h
  obtain ⟨available, hblocks, h⟩ := completes_compute_bind.mp h
  obtain ⟨plan, hplan, h⟩ := completes_compute_bind.mp h
  cases plan with
  | none =>
    obtain ⟨rfl, rfl, rfl⟩ := completes_pure.mp h
    exact .unplanned hblocks hplan
  | some plan =>
    by_cases hadd : plan.add ≤ 0
    · simp only [GrowthPlan.isNoop, hadd, decide_true, if_true] at h
      obtain ⟨rfl, rfl, rfl⟩ := completes_pure.mp h
      exact .sufficient hblocks hplan hadd
    · simp only [GrowthPlan.isNoop, hadd, decide_false, Bool.false_eq_true, if_false] at h
      obtain ⟨first, _, middle, rest, hissue, hdone, rfl⟩ := completes_bind.mp h
      obtain ⟨rfl, rfl, rfl⟩ := completes_pure.mp hdone
      obtain ⟨after, later, hexec, hnil, rfl⟩ := completes_issueAll_cons.mp hissue
      obtain ⟨rfl, rfl⟩ := completes_issueAll_nil.mp hnil
      obtain rfl := (Prod.mk.inj hexec).2
      exact .asked hblocks hplan (by omega)

/-- How a store is scaled: nodes are uncordoned, and the pool is enlarged too if they do not
suffice; or nodes are cordoned; or nothing is done. -/
inductive Scaled (config : Config) (pool : Command → Store → Store) (now : Instant) (store : Store)
    (available : Int) : List (Command × Store) → Outcome → Store → Prop
  | uncordoned {plan : UncordonPlan} {calls : List (Command × Store)}
      (below : available < config.target)
      (planned : pickToUncordon config.block (store.state.snapshot config.protection)
        (config.deficit available) = .ok plan)
      (covers : plan.satisfied = true)
      (commands : calls.map Prod.fst = plan.ids.map .uncordon) :
      Scaled config pool now store available calls (.grown plan.ids 0)
        (store.updateNodes plan.ids NodeRecord.uncordon NodeRecord.id_uncordon)
  | enlarged {plan : UncordonPlan} {calls later : List (Command × Store)} {added : Nat}
      {store' : Store}
      (below : available < config.target)
      (planned : pickToUncordon config.block (store.state.snapshot config.protection)
        (config.deficit available) = .ok plan)
      (misses : plan.satisfied = false)
      (commands : calls.map Prod.fst = plan.ids.map .uncordon)
      (enlarges : Enlarged config pool
        (store.updateNodes plan.ids NodeRecord.uncordon NodeRecord.id_uncordon) later added
        store') :
      Scaled config pool now store available (calls ++ later)
        (if plan.ids.isEmpty && added == 0 then .unchanged else .grown plan.ids added) store'
  | cordoned {picked : List String} {calls : List (Command × Store)}
      (above : config.target < available)
      (planned : pickToCordon config.block (store.state.snapshot config.protection)
        (available - config.target) = .ok picked)
      (commands : calls.map Prod.fst =
        (openIds (store.state.snapshot config.protection) picked).map (.cordon · now)) :
      Scaled config pool now store available calls
        (if (openIds (store.state.snapshot config.protection) picked).isEmpty then .unchanged
          else .shrunk (openIds (store.state.snapshot config.protection) picked))
        (store.updateNodes (openIds (store.state.snapshot config.protection) picked)
          (·.cordon now) (NodeRecord.id_cordon · now))
  | level (level : available = config.target) :
      Scaled config pool now store available [] .unchanged store

theorem scaled_of_grow {available : Int} {outcome : Outcome} (hbelow : available < config.target)
    (h : (grow config (store.state.snapshot config.protection) (config.deficit available)).Completes
      (clusterBackend pool) store calls outcome store') :
    Scaled config pool now store available calls outcome store' := by
  obtain ⟨plan, hplan, h⟩ := completes_compute_bind.mp h
  obtain ⟨first, _, middle, rest, hissue, hnext, rfl⟩ := completes_bind.mp h
  have hcommands := hissue.commands
  obtain rfl := completes_uncordons hissue
  cases hsatisfied : plan.satisfied with
  | true =>
    simp only [hsatisfied, if_true] at hnext
    obtain ⟨rfl, rfl, rfl⟩ := completes_pure.mp hnext
    rw [List.append_nil]
    exact .uncordoned hbelow hplan hsatisfied hcommands
  | false =>
    simp only [hsatisfied, Bool.false_eq_true, if_false] at hnext
    obtain ⟨later, added, _, last, henlarge, hdone, rfl⟩ := completes_bind.mp hnext
    obtain ⟨rfl, rfl, rfl⟩ := completes_pure.mp hdone
    rw [List.append_nil]
    exact .enlarged hbelow hplan hsatisfied hcommands (enlarged_of_completes henlarge)

theorem scaled_of_shrink {available : Int} {outcome : Outcome} (habove : config.target < available)
    (h : (shrink config now (store.state.snapshot config.protection)
      (available - config.target)).Completes (clusterBackend pool) store calls outcome store') :
    Scaled config pool now store available calls outcome store' := by
  obtain ⟨picked, hpicked, h⟩ := completes_compute_bind.mp h
  obtain ⟨first, _, middle, rest, hissue, hdone, rfl⟩ := completes_bind.mp h
  have hcommands := hissue.commands
  obtain rfl := completes_cordons hissue
  obtain ⟨rfl, rfl, rfl⟩ := completes_pure.mp hdone
  rw [List.append_nil]
  exact .cordoned habove hpicked hcommands

/-- The course of the first part of a reconciliation. -/
theorem scaled_of_completes {available : Int} {outcome : Outcome}
    (h : (adjust config now).Completes (clusterBackend pool) store calls (available, outcome)
      store') :
    (∀ node ∈ store.nodes.rows, node.capacity.isSome) ∧
      (store.state.snapshot config.protection).availableBlocks config.block = .ok available ∧
      Scaled config pool now store available calls outcome store' := by
  rw [adjust, completes_capture_bind] at h
  obtain ⟨hknown, h⟩ := h
  obtain ⟨blocks, hblocks, h⟩ := completes_compute_bind.mp h
  obtain ⟨first, outcome', middle, rest, hscale, hdone, rfl⟩ := completes_bind.mp h
  obtain ⟨rfl, hpair, rfl⟩ := completes_pure.mp hdone
  obtain ⟨rfl, rfl⟩ := Prod.mk.inj hpair
  rw [List.append_nil]
  refine ⟨hknown, hblocks, ?_⟩
  unfold scale at hscale
  split at hscale
  · rename_i hbelow
    exact scaled_of_grow hbelow hscale
  · split at hscale
    · rename_i habove
      obtain ⟨surplus, hsurplus, hshrink⟩ := completes_compute_bind.mp hscale
      obtain ⟨-, rfl⟩ := Word.sub_eq_ok_iff.mp hsurplus
      exact scaled_of_shrink habove hshrink
    · rename_i hbelow habove
      obtain ⟨rfl, rfl, rfl⟩ := completes_pure.mp hscale
      exact .level (by omega)

/-! ### Asking for a larger pool -/

theorem Config.deficit_pos {available : Int} (h : available < config.target) :
    0 < config.deficit available := by
  unfold deficit Word.clamp Word.least Word.greatest
  omega

theorem mem_issued_enlarge {call : Command × Store}
    (h : call ∈ (enlarge config).issued (clusterBackend pool) store) :
    ∃ available plan, (store.state.snapshot config.protection).availableBlocks config.block =
      .ok available ∧ growthPlan config.block (store.state.snapshot config.protection)
      (config.deficit available) = .ok (some plan) ∧ 0 < plan.add ∧
      call = (.increaseToSize plan.targetSize, store) := by
  obtain ⟨-, h⟩ := mem_issued_capture_bind.mp h
  obtain ⟨available, hblocks, h⟩ := mem_issued_compute_bind.mp h
  obtain ⟨plan, hplan, h⟩ := mem_issued_compute_bind.mp h
  cases plan with
  | none => exact absurd h List.not_mem_nil
  | some plan =>
    refine ⟨available, plan, hblocks, hplan, ?_⟩
    by_cases hadd : plan.add ≤ 0
    · simp only [GrowthPlan.isNoop, hadd, decide_true, if_true] at h
      exact absurd h List.not_mem_nil
    · simp only [GrowthPlan.isNoop, hadd, decide_false, Bool.false_eq_true, if_false] at h
      rcases mem_issued_bind.mp h with h | ⟨_, _, _, h⟩
      · exact ⟨by omega, List.mem_singleton.mp h⟩
      · exact absurd h List.not_mem_nil

/-- How a request for a larger pool came about: nodes were opened that did not cover a deficit, and
what a snapshot then still missed is planned for. -/
structure Asked (config : Config) (store : Store) (size : Nat) (world : Store)
    (plan : UncordonPlan) (available : Int) (larger : GrowthPlan) : Prop where
  planned : ∃ deficit, 0 < deficit ∧
    pickToUncordon config.block (store.state.snapshot config.protection) deficit = .ok plan
  misses : plan.satisfied = false
  opened : world = store.updateNodes plan.ids NodeRecord.uncordon NodeRecord.id_uncordon
  blocks : (world.state.snapshot config.protection).availableBlocks config.block = .ok available
  growth : growthPlan config.block (world.state.snapshot config.protection)
    (config.deficit available) = .ok (some larger)
  adds : 0 < larger.add
  size_eq : size = larger.targetSize

/-- A larger pool is asked for only when all nodes that could be uncordoned have been. -/
theorem exists_asked {size : Nat} {world : Store}
    (h : (.increaseToSize size, world) ∈ (adjust config now).issued (clusterBackend pool) store) :
    ∃ plan available larger, Asked config store size world plan available larger := by
  obtain ⟨-, h⟩ := mem_issued_capture_bind.mp h
  obtain ⟨available, -, h⟩ := mem_issued_compute_bind.mp h
  rcases mem_issued_bind.mp h with h | ⟨_, _, _, h⟩
  swap
  · exact absurd h List.not_mem_nil
  unfold scale at h
  split at h
  · rename_i hbelow
    obtain ⟨plan, hplan, h⟩ := mem_issued_compute_bind.mp h
    rcases mem_issued_bind.mp h with h | ⟨_, middle, hrun, h⟩
    · have honly : (issueAll (plan.ids.map .uncordon)).Only fun command =>
          ∀ size, command ≠ .increaseToSize size := Only.issueAll (by simp)
      exact absurd rfl (honly.mem_issued _ h size)
    · obtain rfl := completes_uncordons (completes_of_run hrun)
      cases hsatisfied : plan.satisfied with
      | true =>
        simp only [hsatisfied, if_true] at h
        exact absurd h List.not_mem_nil
      | false =>
        simp only [hsatisfied, Bool.false_eq_true, if_false] at h
        rcases mem_issued_bind.mp h with h | ⟨_, _, _, h⟩
        · obtain ⟨lacking, larger, hblocks, hgrowth, hadds, hcall⟩ := mem_issued_enlarge h
          obtain ⟨hsize, rfl⟩ := Prod.mk.inj hcall
          exact ⟨plan, lacking, larger, ⟨_, Config.deficit_pos hbelow, hplan⟩, hsatisfied, rfl,
            hblocks, hgrowth, hadds, Command.increaseToSize.inj hsize⟩
        · exact absurd h List.not_mem_nil
  · split at h
    · obtain ⟨surplus, -, h⟩ := mem_issued_compute_bind.mp h
      have honly : (shrink config now (store.state.snapshot config.protection) surplus).Only
          fun command => ∀ size, command ≠ .increaseToSize size :=
        (Only.compute _).bind fun picked =>
          (Only.issueAll (List.forall_mem_map.mpr (by simp))).bind fun _ => .pure _
      exact absurd rfl (honly.mem_issued _ h size)
    · exact absurd h List.not_mem_nil

theorem asked_of_mem_issued {size : Nat} {world : Store}
    (h : (.increaseToSize size, world) ∈ (adjust config now).issued (clusterBackend pool) store) :
    ∃ deficit plan lacking growth, 0 < deficit ∧
      pickToUncordon config.block (store.state.snapshot config.protection) deficit = .ok plan ∧
      plan.satisfied = false ∧
      world = store.updateNodes plan.ids NodeRecord.uncordon NodeRecord.id_uncordon ∧
      growthPlan config.block (world.state.snapshot config.protection) lacking =
        .ok (some growth) ∧ 0 < growth.add ∧ size = growth.targetSize := by
  obtain ⟨plan, available, larger, hasked⟩ := exists_asked h
  obtain ⟨deficit, hdeficit, hplan⟩ := hasked.planned
  exact ⟨deficit, plan, _, larger, hdeficit, hplan, hasked.misses, hasked.opened, hasked.growth,
    hasked.adds, hasked.size_eq⟩

end Headroom.Scaling
