import Headroom.Proofs.Outage
import Headroom.Proofs.Uniform

/-! What a reconciliation may do to a store, wherever an outage cuts it off. It bars only nodes that
were open when it began, and removes only nodes that may go. -/

namespace Headroom.Scaling

open Cluster (NodeRecord Protection Snapshot State Store)
open Procedure

namespace Procedure

variable {α σ : Type} {backend : Backend σ} {allowed : Command → Prop} {keeps : σ → Prop}

theorem Only.hampered_keeps {p : Procedure α} (hp : p.Only allowed) (hfetch : backend.FetchesOnly)
    (hexecute : ∀ command world, allowed command → keeps world →
      keeps (backend.execute command world).2)
    (world : σ) (outage : Outage) (h : keeps world) :
    (∀ call ∈ p.issued backend.hampered ⟨world, outage⟩, keeps call.2.world) ∧
      keeps (p.run backend.hampered ⟨world, outage⟩).2.world := by
  have hfetches : ∀ w : Hampered σ, keeps w.world → keeps (backend.hampered.fetch w).2.world := by
    intro w hw
    rcases herror : w.outage.fetches 0 with _ | error
    · rw [Backend.fetch_hampered_of_none herror]
      show keeps (backend.fetch w.world).2
      rwa [hfetch]
    · rwa [Backend.fetch_hampered_of_some herror]
  have hexecutes : ∀ command (w : Hampered σ), allowed command → keeps w.world →
      keeps (backend.hampered.execute command w).2.world := by
    intro command w hallowed hw
    rcases hcause : w.outage.commands 0 with _ | cause
    · rw [Backend.execute_hampered_of_none hcause]
      exact hexecute command w.world hallowed hw
    · rwa [Backend.execute_hampered_of_some hcause]
  exact ⟨hp.issued_keeps hfetches hexecutes _ h, hp.run_keeps hfetches hexecutes _ h⟩

end Procedure

variable {config : Config} {shape : NodeShape} {now later : Instant} {store : Store}
  {outage : Outage}

/-! ### Single commands -/

/-- Where a node that is there after a command comes from. -/
inductive Descends (shape : NodeShape) (store : Store) : Command → NodeRecord → Prop
  | kept {command : Command} {node : NodeRecord} (old : node ∈ store.nodes.rows) :
      Descends shape store command node
  | opened {node : NodeRecord} (old : node ∈ store.nodes.rows) :
      Descends shape store (.uncordon node.id) node.uncordon
  | barred {node : NodeRecord} {t : Instant} (old : node ∈ store.nodes.rows) :
      Descends shape store (.cordon node.id t) (node.cordon t)
  | added {size k : Nat} : Descends shape store (.increaseToSize size) (shape.node k)

theorem mem_changed_updateNode {id : String} {f : NodeRecord → NodeRecord}
    (hf : ∀ node, (f node).id = node.id) {node : NodeRecord}
    (h : node ∈ (changed store (store.updateNode id f)).2.nodes.rows) :
    node ∈ store.nodes.rows ∨ ∃ old ∈ store.nodes.rows, old.id = id ∧ node = f old := by
  rcases hupdate : store.updateNode id f with e | after
  · rw [hupdate] at h
    exact .inl h
  · obtain ⟨-, rfl⟩ := (Store.updateNode_eq_ok_iff hf).mp hupdate
    rw [hupdate] at h
    obtain ⟨old, hold, rfl⟩ := List.mem_map.mp h
    split
    · rename_i hid
      exact .inr ⟨old, hold, List.mem_singleton.mp hid, rfl⟩
    · exact .inl hold

theorem descends_of_mem {command : Command} {node : NodeRecord}
    (h : node ∈ (shape.backend.execute command store).2.nodes.rows) :
    Descends shape store command node := by
  cases command with
  | uncordon id =>
    rcases mem_changed_updateNode NodeRecord.id_uncordon h with hold | ⟨old, hold, rfl, rfl⟩
    · exact .kept hold
    · exact .opened hold
  | cordon id t =>
    rcases mem_changed_updateNode (NodeRecord.id_cordon · t) h with hold | ⟨old, hold, rfl, rfl⟩
    · exact .kept hold
    · exact .barred hold
  | increaseToSize size =>
    obtain ⟨numbers, -, hgrowth⟩ :=
      shape.exists_growth (size - store.nodes.size) store.nodes.size store
    rcases List.mem_append.mp (hgrowth.rows_perm.mem_iff.mp h) with hnew | hold
    · obtain ⟨k, -, rfl⟩ := List.mem_map.mp hnew
      exact .added
    · exact .kept hold
  | deleteNodes ids =>
    have hkept : node ∈ (ids.foldl Store.dropNode store).nodes.rows := h
    rw [Store.foldl_dropNode, Store.mem_nodes_dropNodes] at hkept
    exact .kept hkept.1
  | deregister id =>
    have hkept : node ∈ (store.dropNode id).nodes.rows := h
    rw [Store.dropNode_eq, Store.mem_nodes_dropNodes] at hkept
    exact .kept hkept.1

/-! ### Snapshots in an outage -/

/-- Followed from a store, `p` does and ends as `q` does there with the rest of the outage. -/
structure Continues {α : Type} (shape : NodeShape) (store : Store) (outage : Outage)
    (p q : Procedure α) (rest : Outage) : Prop where
  run_eq : p.run shape.backend.hampered ⟨store, outage⟩ =
    q.run shape.backend.hampered ⟨store, rest⟩
  issued_eq : p.issued shape.backend.hampered ⟨store, outage⟩ =
    q.issued shape.backend.hampered ⟨store, rest⟩

/-- A snapshot is taken of the store as it is, or ends the procedure. -/
theorem exists_continues_capture {α : Type} (rule : Protection) (f : Snapshot → Procedure α) :
    ∃ q rest, Continues shape store outage (capture rule >>= f) q rest ∧
      (q = f (store.state.snapshot rule) ∨ ∃ error, q = fail (.sourceUnavailable error)) := by
  cases hnow : outage.fetches 0 with
  | some error =>
    refine ⟨fail (.sourceUnavailable error), outage.afterFetch, ⟨?_, ?_⟩, .inr ⟨error, rfl⟩⟩
    all_goals
      simp only [bind_eq, capture, Procedure.bind, run, issued, Backend.fetch_hampered_of_some hnow]
      rfl
  | none =>
    cases hstate : Snapshot.ofState store.state rule with
    | error e =>
      refine ⟨fail (.sourceUnavailable e), outage.afterFetch, ⟨?_, ?_⟩, .inr ⟨e, rfl⟩⟩
      all_goals
        simp only [bind_eq, capture, Procedure.bind, run, issued,
          Backend.fetch_hampered_of_none hnow, NodeShape.backend, clusterBackend, hstate]
        rfl
    | ok s =>
      obtain ⟨-, rfl⟩ := State.ofState_eq_ok_iff.mp hstate
      refine ⟨f (store.state.snapshot rule), outage.afterFetch, ⟨?_, ?_⟩, .inl rfl⟩
      all_goals
        simp only [bind_eq, capture, Procedure.bind, run, issued,
          Backend.fetch_hampered_of_none hnow, NodeShape.backend, clusterBackend, hstate]

/-! ### The parts of a reconciliation -/

/-- What a reconciliation at `now` may ask for once it has met a store. Of the nodes it bars, each
was open there. -/
def Command.Permitted (store : Store) (now : Instant) : Command → Prop
  | .cordon id t => id ∈ store.openNodes ∧ t = now
  | _ => True

theorem Command.Opens.permitted {command : Command} (h : command.Opens) :
    command.Permitted store now := by
  cases command <;> trivial

theorem Command.Removes.permitted {gone : String → Prop} {command : Command}
    (h : command.Removes gone) : command.Permitted store now := by
  cases command <;> trivial

theorem shrink_permitted (config : Config) (now : Instant) (store : Store) (surplus : Int) :
    (shrink config now (store.state.snapshot config.protection) surplus).Only
      (Command.Permitted store now) := by
  apply Only.compute_bind
  intro picked hpicked
  refine (Only.issueAll fun command hcommand => ?_).bind fun _ => .pure _
  obtain ⟨id, hid, rfl⟩ := List.mem_map.mp hcommand
  obtain ⟨node, hnode, rfl⟩ := (openIds_spec (State.distinct_of_store store) hpicked).2 id hid
  exact ⟨List.mem_map_of_mem hnode, rfl⟩

theorem scale_permitted (config : Config) (now : Instant) (store : Store) (available : Int) :
    (scale config now (store.state.snapshot config.protection) available).Only
      (Command.Permitted store now) := by
  unfold scale
  split
  · exact (grow_only config _ _).mono fun _ => Command.Opens.permitted
  · split
    · exact (Only.compute _).bind fun surplus => shrink_permitted config now store surplus
    · exact .pure _

/-- What follows the first snapshot of a reconciliation. -/
def adjustFrom (config : Config) (now : Instant) (s : Snapshot) : Procedure (Int × Outcome) := do
  let available ← Procedure.compute (s.availableBlocks config.block)
  return (available, ← scale config now s available)

theorem adjust_eq (config : Config) (now : Instant) :
    adjust config now = capture config.protection >>= adjustFrom config now := rfl

theorem exists_continues_adjust (config : Config) (shape : NodeShape) (now : Instant)
    (store : Store) (outage : Outage) :
    ∃ q rest, Continues shape store outage (adjust config now) q rest ∧
      q.Only (Command.Permitted store now) := by
  rw [adjust_eq]
  obtain ⟨q, rest, hcontinues, rfl | ⟨error, rfl⟩⟩ :=
    exists_continues_capture config.protection (adjustFrom config now)
  · refine ⟨_, rest, hcontinues, (Only.compute _).bind fun available => ?_⟩
    exact (scale_permitted config now store available).bind fun _ => .pure _
  · exact ⟨_, rest, hcontinues, trivial⟩

/-- What follows the snapshot that a reaping takes. -/
def reapFrom (config : Config) (later : Instant) (s : Snapshot) : Procedure (List String) :=
  match doomed config.grace s later with
  | .error e => .fail (.ofCluster e)
  | .ok nodes => do
    let ids := nodes.map (·.id)
    if ids.isEmpty then return []
    Procedure.issueAll (.deleteNodes ids :: ids.map .deregister)
    return ids

theorem reap_eq (config : Config) (later : Instant) :
    reap config.grace config.protection later =
      capture config.protection >>= reapFrom config later := rfl

/-- What is removed after a store is met is reapable there. -/
theorem exists_continues_reap (config : Config) (shape : NodeShape) (later : Instant)
    (store : Store) (outage : Outage) :
    ∃ q rest, Continues shape store outage (reap config.grace config.protection later) q rest ∧
      q.Only (Command.Removes fun id =>
        ∃ node ∈ store.nodes.rows, Reapable config store later node ∧ node.id = id) := by
  rw [reap_eq]
  obtain ⟨q, rest, hcontinues, rfl | ⟨error, rfl⟩⟩ :=
    exists_continues_capture config.protection (reapFrom config later)
  · refine ⟨_, rest, hcontinues, ?_⟩
    unfold reapFrom
    rcases hdoomed : doomed config.grace (store.state.snapshot config.protection) later
      with e | gone
    · trivial
    · have hreaped := reaped_of_doomed hdoomed
      dsimp only
      split
      · exact .pure _
      · exact (deletions_only fun id hid => (hreaped.mem_iff id).mp hid).bind fun _ => .pure _
  · exact ⟨_, rest, hcontinues, trivial⟩

/-! ### The whole reconciliation -/

/-- How a reconciliation ends: in its scaling, in its reaping, or with a report. -/
inductive Ends {σ : Type} (config : Config) (backend : Backend σ) (now later : Instant)
    (world : σ) : Except Halt Report → σ → Prop
  | scaling {halt : Halt} {final : σ}
      (adjusts : (adjust config now).run backend world = (.error halt, final)) :
      Ends config backend now later world (.error halt) final
  | reaping {done : Int × Outcome} {middle final : σ} {halt : Halt}
      (adjusts : (adjust config now).run backend world = (.ok done, middle))
      (reaps : (reap config.grace config.protection later).run backend middle =
        (.error halt, final)) :
      Ends config backend now later world (.error halt) final
  | reported {done : Int × Outcome} {middle final : σ} {deleted : List String}
      (adjusts : (adjust config now).run backend world = (.ok done, middle))
      (reaps : (reap config.grace config.protection later).run backend middle =
        (.ok deleted, final)) :
      Ends config backend now later world (.ok ⟨done.1, config.target, done.2, deleted⟩) final

theorem ends_of_run {σ : Type} {backend : Backend σ} {world final : σ}
    {result : Except Halt Report}
    (h : (tick config now later).run backend world = (result, final)) :
    Ends config backend now later world result final := by
  unfold tick at h
  rw [run_bind] at h
  rcases hadjust : (adjust config now).run backend world with ⟨halt | ⟨available, outcome⟩, middle⟩
  · rw [hadjust] at h
    obtain ⟨rfl, rfl⟩ := Prod.mk.inj h
    exact .scaling hadjust
  · rw [hadjust] at h
    dsimp only at h
    rw [run_bind] at h
    rcases hreap : (reap config.grace config.protection later).run backend middle with
      ⟨halt | deleted, last⟩
    · rw [hreap] at h
      obtain ⟨rfl, rfl⟩ := Prod.mk.inj h
      exact .reaping hadjust hreap
    · rw [hreap] at h
      obtain ⟨rfl, rfl⟩ := Prod.mk.inj h
      exact .reported hadjust hreap

/-- What permitted commands keep holds wherever an outage cuts the reconciliation off, and wherever
it issues a command. -/
theorem tick_keeps (config : Config) (shape : NodeShape) (now later : Instant) {store : Store}
    (outage : Outage) {keeps : Store → Prop} (hstore : keeps store)
    (hexecute : ∀ command world, command.Permitted store now → keeps world →
      keeps (shape.backend.execute command world).2) :
    keeps ((adjust config now).run shape.backend.hampered ⟨store, outage⟩).2.world ∧
    (∀ call ∈ (tick config now later).issued shape.backend.hampered ⟨store, outage⟩,
      keeps call.2.world) ∧
    keeps ((tick config now later).run shape.backend.hampered ⟨store, outage⟩).2.world := by
  obtain ⟨q, rest, hcontinues, honly⟩ := exists_continues_adjust config shape now store outage
  have hfetch : shape.backend.FetchesOnly := fun _ => rfl
  obtain ⟨hissued, hrun⟩ := honly.hampered_keeps hfetch hexecute store rest hstore
  rw [← hcontinues.issued_eq] at hissued
  rw [← hcontinues.run_eq] at hrun
  have hreap : ∀ middle : Hampered Store, keeps middle.world →
      (∀ call ∈ (reap config.grace config.protection later).issued shape.backend.hampered middle,
        keeps call.2.world) ∧
      keeps ((reap config.grace config.protection later).run shape.backend.hampered
        middle).2.world :=
    fun middle hmiddle => (reap_removes config later).hampered_keeps hfetch
      (fun command world hremoves => hexecute command world hremoves.permitted) _ _ hmiddle
  refine ⟨hrun, fun call hcall => ?_, ?_⟩
  · rcases mem_issued_bind.mp hcall with hcall | ⟨done, middle, hadjust, hcall⟩
    · exact hissued call hcall
    · rw [hadjust] at hrun
      rcases mem_issued_bind.mp hcall with hcall | ⟨_, _, _, hcall⟩
      · exact (hreap middle hrun).1 call hcall
      · exact absurd hcall List.not_mem_nil
  · rcases htick : (tick config now later).run shape.backend.hampered ⟨store, outage⟩ with
      ⟨result, final⟩
    cases ends_of_run htick with
    | scaling adjusts => rwa [adjusts] at hrun
    | reaping adjusts reaps =>
      rw [adjusts] at hrun
      have hkept := (hreap _ hrun).2
      rwa [reaps] at hkept
    | reported adjusts reaps =>
      rw [adjusts] at hrun
      have hkept := (hreap _ hrun).2
      rwa [reaps] at hkept

end Headroom.Scaling
