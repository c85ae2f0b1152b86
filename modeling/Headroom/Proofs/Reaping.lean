import Headroom.Proofs.Course
import Headroom.Proofs.Provision

/-! Reaping is exact: a complete reconciliation drops the nodes whose time is over and that run no
protected pod, together with the pods bound to them, and nothing else. No reconciliation drops a
schedulable node or a protected pod, however it ends. -/

namespace Headroom

theorem Instant.add?_eq_none {t : Instant} {span : Int} (h : Scaling.longestWait ≤ span) :
    t.add? span = none := by
  have hday := t.firstDay_le
  have hspan : (9223372036854775807000000 : Int) ≤ span := h
  have hseconds : 9223372036854775 ≤ span.tdiv 1000000000 := by
    rw [Int.tdiv_eq_ediv_of_nonneg (by omega)]
    omega
  have hnanos : 0 ≤ span.tmod 1000000000 := Int.tmod_nonneg _ (by omega)
  unfold firstDay at hday
  unfold add?
  rw [if_neg (by omega)]
  obtain ⟨second, nano, hmove, hsecond, hnano⟩ : ∃ second nano,
      t.moveFrom (span.tdiv 1000000000) (span.tmod 1000000000) = (second, nano) ∧
        0 ≤ second ∧ 0 ≤ nano := by
    unfold moveFrom
    split
    · exact ⟨_, _, rfl, by omega, by omega⟩
    · rw [if_pos (.inl (by omega))]
      exact ⟨_, _, rfl, by omega, by omega⟩
  simp only [hmove]
  refine dif_neg fun hparts => ?_
  have hle := hparts.2.1
  unfold lastDay at hle
  omega

namespace Scaling

open Cluster (Node NodeRecord PodRecord Protection Snapshot State Store)
open Procedure

/-- The moment at which a wait that began at `t` is over, at most the last moment. -/
def endOfWait (grace : Duration) (t : Instant) : Instant :=
  (t.add? grace.nanoseconds).getD .latest

/-- Holding a wait to the longest one makes no difference, since either ends past the calendar. -/
theorem expiry_eq (grace : Duration) (t : Instant) : expiry grace t = endOfWait grace t := by
  unfold expiry endOfWait
  rcases Nat.le_total grace.nanoseconds longestWait with h | h
  · rw [min_eq_left (by exact_mod_cast h)]
  · rw [min_eq_right (by exact_mod_cast h), Instant.add?_eq_none le_rfl,
      Instant.add?_eq_none (by exact_mod_cast h)]

/-- A node of a store may be deleted at `now`: it is barred to new work, it carries a time of
cordoning from which the grace period is over, and no protected pod is bound to it. -/
structure Reapable (config : Config) (store : Store) (now : Instant) (node : NodeRecord) :
    Prop where
  cordoned : node.unschedulable = true
  overdue : ∃ stamp t, node.annotations.get? Cluster.cordonKey = some stamp ∧
    Rfc3339.parse stamp = .ok t ∧ endOfWait config.grace t ≤ now
  unprotected : ∀ pod ∈ store.pods.rows, pod.nodeId = some node.id →
    pod.labels.get? config.protection.label ≠ some config.protection.value

/-! ### Selection -/

theorem cordonedAt_view_eq_ok_iff {node : NodeRecord} {t : Instant} :
    node.view.cordonedAt = .ok t ↔ node.unschedulable = true ∧
      ∃ stamp, node.annotations.get? Cluster.cordonKey = some stamp ∧
        Rfc3339.parse stamp = .ok t := by
  unfold Node.cordonedAt NodeRecord.view
  cases hcordoned : node.unschedulable with
  | false => simp
  | true =>
    cases node.annotations.get? Cluster.cordonKey with
    | none => simp
    | some stamp => rcases hparse : Rfc3339.parse stamp with e | t' <;> simp [hparse]

/-- Nodes whose times of cordoning can be read are selected from. -/
theorem doomed_go_ok {grace : Duration} {s : Snapshot} {now : Instant} {nodes : List Node}
    (h : ∀ node ∈ nodes, ∃ t, node.cordonedAt = .ok t) :
    ∃ gone, doomed.go grace s now nodes = .ok gone := by
  induction nodes with
  | nil => exact ⟨[], rfl⟩
  | cons node rest ih =>
    obtain ⟨t, ht⟩ := h node List.mem_cons_self
    obtain ⟨gone, hgone⟩ := ih fun node hnode => h node (List.mem_cons_of_mem _ hnode)
    rw [doomed.go, ht, hgone]
    exact ⟨_, rfl⟩

/-- The nodes doomed are those of the list that are overdue and bear no protection, in order. -/
theorem doomed_go_spec {grace : Duration} {s : Snapshot} {now : Instant} {nodes gone : List Node}
    (h : doomed.go grace s now nodes = .ok gone) :
    gone.Sublist nodes ∧ ∀ node, node ∈ gone ↔ node ∈ nodes ∧ s.protectedOn node.id = 0 ∧
      ∃ t, node.cordonedAt = .ok t ∧ expiry grace t ≤ now := by
  induction nodes generalizing gone with
  | nil =>
    obtain rfl := Except.ok.inj h
    simp
  | cons node rest ih =>
    rw [doomed.go] at h
    obtain ⟨t, ht, h⟩ := bind_eq_ok_iff.mp h
    obtain ⟨later, hlater, h⟩ := bind_eq_ok_iff.mp h
    obtain ⟨hsub, hmem⟩ := ih hlater
    have hkeep : (∃ t, node.cordonedAt = .ok t ∧ expiry grace t ≤ now) ↔ expiry grace t ≤ now := by
      simp [ht]
    obtain rfl := Except.ok.inj h
    split
    · rename_i hgoes
      refine ⟨hsub.cons_cons node, fun other => ?_⟩
      simp only [List.mem_cons, hmem]
      constructor
      · rintro (rfl | ⟨hother, hrest⟩)
        · exact ⟨.inl rfl, hgoes.1, hkeep.mpr hgoes.2⟩
        · exact ⟨.inr hother, hrest⟩
      · rintro ⟨rfl | hother, hrest⟩
        · exact .inl rfl
        · exact .inr ⟨hother, hrest⟩
    · rename_i hstays
      refine ⟨hsub.cons node, fun other => ?_⟩
      simp only [List.mem_cons, hmem]
      constructor
      · rintro ⟨hother, hrest⟩
        exact ⟨.inr hother, hrest⟩
      · rintro ⟨rfl | hother, hzero, hover⟩
        · exact absurd ⟨hzero, hkeep.mp hover⟩ hstays
        · exact ⟨hother, hzero, hover⟩

variable {config : Config} {shape : NodeShape} {now : Instant} {store store' : Store}

/-- What is selected from the snapshot of a store are its reapable nodes. -/
theorem mem_doomed_iff {gone : List Node} (h : doomed config.grace
      (store.state.snapshot config.protection) now = .ok gone) {id : String} :
    id ∈ gone.map (·.id) ↔ ∃ node ∈ store.nodes.rows, Reapable config store now node ∧
      node.id = id := by
  obtain ⟨-, hmem⟩ := doomed_go_spec h
  have hreapable : ∀ node ∈ store.nodes.rows,
      node.view ∈ gone ↔ Reapable config store now node := by
    intro node hnode
    rw [hmem, (store.state.cordoned_snapshot_perm config.protection).mem_iff, NodeRecord.id_view,
      State.protectedOn_snapshot_eq_zero_iff ⟨node, hnode, rfl⟩]
    constructor
    · rintro ⟨-, hidle, t, ht, hover⟩
      obtain ⟨hcordoned, stamp, hstamp, hparse⟩ := cordonedAt_view_eq_ok_iff.mp ht
      refine ⟨hcordoned, ⟨stamp, t, hstamp, hparse, expiry_eq config.grace t ▸ hover⟩, ?_⟩
      intro pod hpod hbound
      simpa [Protection.protects] using hidle pod hpod hbound
    · rintro ⟨hcordoned, ⟨stamp, t, hstamp, hparse, hover⟩, hidle⟩
      refine ⟨List.mem_map_of_mem (List.mem_filter.mpr ⟨hnode, hcordoned⟩), ?_, t,
        cordonedAt_view_eq_ok_iff.mpr ⟨hcordoned, stamp, hstamp, hparse⟩,
        (expiry_eq config.grace t).symm ▸ hover⟩
      intro pod hpod hbound
      simpa [Protection.protects] using hidle pod hpod hbound
  rw [List.mem_map]
  constructor
  · rintro ⟨node, hnode, rfl⟩
    obtain ⟨record, hrecord, rfl⟩ := State.exists_of_mem_cordoned_snapshot ((hmem node).mp hnode).1
    have hrow := (List.mem_filter.mp hrecord).1
    exact ⟨record, hrow, (hreapable record hrow).mp hnode, rfl⟩
  · rintro ⟨record, hrow, hreap, rfl⟩
    exact ⟨record.view, (hreapable record hrow).mpr hreap, rfl⟩

/-! ### The reaping part of a reconciliation -/

/-- The ids of `ids` are those of the reapable nodes of a store, each once. -/
structure Reaped (config : Config) (store : Store) (now : Instant) (ids : List String) : Prop where
  mem_iff : ∀ id, id ∈ ids ↔
    ∃ node ∈ store.nodes.rows, Reapable config store now node ∧ node.id = id
  nodup : ids.Nodup

theorem Reaped.mem_nodes {ids : List String} (h : Reaped config store now ids) {node : NodeRecord} :
    node ∈ (store.dropNodes ids).nodes.rows ↔
      node ∈ store.nodes.rows ∧ ¬ Reapable config store now node := by
  rw [Store.mem_nodes_dropNodes]
  refine and_congr_right fun hnode => not_congr ((h.mem_iff _).trans ?_)
  constructor
  · rintro ⟨other, hother, hreap, hid⟩
    rwa [store.nodes.eq_of_key_eq hother hnode hid] at hreap
  · exact fun hreap => ⟨node, hnode, hreap, rfl⟩

theorem Reaped.mem_pods {ids : List String} (h : Reaped config store now ids) {pod : PodRecord} :
    pod ∈ (store.dropNodes ids).pods.rows ↔ pod ∈ store.pods.rows ∧
      ¬ ∃ node ∈ store.nodes.rows, Reapable config store now node ∧ pod.nodeId = some node.id := by
  rw [Store.mem_pods_dropNodes]
  refine and_congr_right fun _ => ?_
  constructor
  · rintro hfree ⟨node, hnode, hreap, hbound⟩
    exact hfree node.id ((h.mem_iff _).mpr ⟨node, hnode, hreap, rfl⟩) hbound
  · rintro hnone id hid hbound
    obtain ⟨node, hnode, hreap, rfl⟩ := (h.mem_iff id).mp hid
    exact hnone ⟨node, hnode, hreap, hbound⟩

theorem reaped_of_doomed {gone : List Node} (h : doomed config.grace
      (store.state.snapshot config.protection) now = .ok gone) :
    Reaped config store now (gone.map (·.id)) := by
  refine ⟨fun id => mem_doomed_iff h, ?_⟩
  have hcordoned : ((store.state.snapshot config.protection).cordoned.map (·.id)).Nodup := by
    rw [((store.state.cordoned_snapshot_perm config.protection).map _).nodup_iff, List.map_map]
    exact store.nodes.nodup_keys.sublist (List.filter_sublist.map _)
  exact hcordoned.sublist ((doomed_go_spec h).1.map _)

/-- What a reaping does depends on the snapshot alone, and not on whether the pool removes the nodes
that it is given, some of them or none. -/
theorem run_reap_eq {pool : Command → Store → Store} (grace : Duration) (rule : Protection)
    (now : Instant) (store : Store)
    (hpool : ∀ ids, ∃ gone ⊆ ids, pool (.deleteNodes ids) store = store.dropNodes gone) :
    (reap grace rule now).run (clusterBackend pool) store =
      match Snapshot.ofState store.state rule with
      | .error e => (.error (.failed (.sourceUnavailable e)), store)
      | .ok s =>
        match doomed grace s now with
        | .error e => (.error (.failed (.ofCluster e)), store)
        | .ok nodes => (.ok (nodes.map (·.id)), store.dropNodes (nodes.map (·.id))) := by
  rw [reap, run_capture_bind]
  rcases Snapshot.ofState store.state rule with e | s
  · rfl
  dsimp only
  rcases doomed grace s now with e | nodes
  · rfl
  dsimp only
  generalize nodes.map (·.id) = ids
  split
  · rename_i hempty
    obtain rfl := List.isEmpty_iff.mp hempty
    rw [Store.dropNodes_nil]
    rfl
  · obtain ⟨gone, hgone, hdrops⟩ := hpool ids
    rw [run_bind, run_deletions hdrops hgone]
    rfl

/-- A pool that is kept in the store removes all nodes that it is given. -/
theorem exists_gone_of_shape (shape : NodeShape) (store : Store) (ids : List String) :
    ∃ gone ⊆ ids, shape.pool (.deleteNodes ids) store = store.dropNodes gone :=
  ⟨ids, List.Subset.refl ids, Store.foldl_dropNode ids store⟩

/-- Reaping either fails before it has changed anything, or drops exactly the reapable nodes. -/
theorem run_reap (config : Config) (shape : NodeShape) (now : Instant) (store : Store) :
    (∃ halt, (reap config.grace config.protection now).run shape.backend store =
      (.error halt, store)) ∨
    ∃ ids, Reaped config store now ids ∧
      (reap config.grace config.protection now).run shape.backend store =
        (.ok ids, store.dropNodes ids) := by
  rw [show shape.backend = clusterBackend shape.pool from rfl,
    run_reap_eq _ _ _ _ (exists_gone_of_shape shape store)]
  rcases hstate : Snapshot.ofState store.state config.protection with e | s
  · exact .inl ⟨_, rfl⟩
  obtain ⟨-, rfl⟩ := State.ofState_eq_ok_iff.mp hstate
  rcases hdoomed : doomed config.grace (store.state.snapshot config.protection) now with e | gone
  · exact .inl ⟨_, by simp only [hdoomed]; rfl⟩
  · exact .inr ⟨_, reaped_of_doomed hdoomed, by simp only [hdoomed]⟩

/-- A complete reaping issues commands only when there is a node to drop. -/
theorem reaped_of_completes {ids : List String} {calls : List (Command × Store)}
    (h : (reap config.grace config.protection now).Completes shape.backend store calls ids store') :
    Reaped config store now ids ∧ store' = store.dropNodes ids ∧
      calls.map Prod.fst = if ids.isEmpty then [] else .deleteNodes ids :: ids.map .deregister := by
  obtain ⟨-, h⟩ := completes_capture_bind.mp h
  rcases hdoomed : doomed config.grace (store.state.snapshot config.protection) now with e | gone
  · simp only [hdoomed] at h
    exact absurd h completes_fail
  simp only [hdoomed] at h
  have hreaped := reaped_of_doomed hdoomed
  generalize gone.map (·.id) = all at h hreaped
  cases hempty : all.isEmpty with
  | true =>
    simp only [hempty, if_true] at h
    obtain ⟨rfl, rfl, rfl⟩ := completes_pure.mp h
    obtain rfl := List.isEmpty_iff.mp hempty
    exact ⟨hreaped, Store.dropNodes_nil.symm, rfl⟩
  | false =>
    simp only [hempty, Bool.false_eq_true, if_false] at h
    obtain ⟨first, _, middle, rest, hissue, hdone, rfl⟩ := completes_bind.mp h
    obtain ⟨rfl, rfl, rfl⟩ := completes_pure.mp hdone
    obtain ⟨gone, hgone, hdrops⟩ := exists_gone_of_shape shape store ids
    have hstore := hissue.run_eq.symm.trans (run_deletions hdrops hgone)
    rw [hempty, List.append_nil, hissue.commands]
    exact ⟨hreaped, (Prod.mk.inj hstore).2, rfl⟩

/-- The command removes nodes of some ids. -/
def Command.Removes (gone : String → Prop) : Command → Prop
  | .deleteNodes ids => ∀ id ∈ ids, gone id
  | .deregister id => gone id
  | _ => False

theorem deletions_only {gone : String → Prop} {ids : List String} (h : ∀ id ∈ ids, gone id) :
    (issueAll (.deleteNodes ids :: ids.map .deregister)).Only (Command.Removes gone) := by
  refine ⟨h, Only.issueAll fun command hcommand => ?_⟩
  obtain ⟨id, hid, rfl⟩ := List.mem_map.mp hcommand
  exact h id hid

/-- Whatever a reaping is shown, it only removes. -/
theorem reap_removes (config : Config) (now : Instant) :
    (reap config.grace config.protection now).Only (Command.Removes fun _ => True) := by
  refine (Only.capture _).bind fun s => ?_
  dsimp only
  split
  · trivial
  · split
    · exact .pure _
    · exact (deletions_only fun _ _ => trivial).bind fun _ => .pure _

/-! ### The scaling part of a reconciliation -/

/-- The command bars nodes to new work, opens them or adds some; it removes nothing. -/
def Command.Scales : Command → Prop
  | .deleteNodes _ | .deregister _ => False
  | _ => True

/-- The command opens a barred node or adds nodes. -/
def Command.Opens : Command → Prop
  | .uncordon _ | .increaseToSize _ => True
  | _ => False

theorem Command.Opens.scales {command : Command} (h : command.Opens) : command.Scales := by
  cases command <;> trivial

theorem enlarge_only (config : Config) : (enlarge config).Only Command.Opens := by
  refine (Only.capture _).bind fun s => (Only.compute _).bind fun available =>
    (Only.compute _).bind fun plan => ?_
  cases plan with
  | none => exact .pure _
  | some plan =>
    dsimp only
    split
    · exact .pure _
    · exact (Only.issueAll (by simp [Command.Opens])).bind fun _ => .pure _

theorem grow_only (config : Config) (s : Snapshot) (deficit : Int) :
    (grow config s deficit).Only Command.Opens := by
  refine (Only.compute _).bind fun plan => (Only.issueAll ?_).bind fun _ => ?_
  · simp [Command.Opens]
  · split
    · exact .pure _
    · exact (enlarge_only config).bind fun _ => .pure _

theorem shrink_only (config : Config) (now : Instant) (s : Snapshot) (surplus : Int) :
    (shrink config now s surplus).Only Command.Scales := by
  refine (Only.compute _).bind fun picked => (Only.issueAll ?_).bind fun _ => .pure _
  intro command hcommand
  obtain ⟨id, -, rfl⟩ := List.mem_map.mp hcommand
  trivial

theorem adjust_only (config : Config) (now : Instant) :
    (adjust config now).Only Command.Scales := by
  refine (Only.capture _).bind fun s => (Only.compute _).bind fun available => ?_
  refine Only.bind ?_ fun _ => .pure _
  unfold scale
  split
  · exact (grow_only config s _).mono fun _ => Command.Opens.scales
  · split
    · exact (Only.compute _).bind fun surplus => shrink_only config now s surplus
    · exact .pure _

/-- `after` has the pods of `before` and at least its ids. -/
structure Retains (before after : Store) : Prop where
  pods_eq : after.pods = before.pods
  contains : ∀ id, before.nodes.contains id = true → after.nodes.contains id = true

theorem Retains.trans {a b c : Store} (hab : Retains a b) (hbc : Retains b c) : Retains a c :=
  ⟨hbc.pods_eq.trans hab.pods_eq, fun id h => hbc.contains id (hab.contains id h)⟩

theorem retains_updateNode {id : String} {f : NodeRecord → NodeRecord}
    (hf : ∀ node, (f node).id = node.id) :
    Retains store (changed store (store.updateNode id f)).2 := by
  rcases h : store.updateNode id f with e | after
  · exact ⟨rfl, fun _ h => h⟩
  · obtain ⟨-, rfl⟩ := (Store.updateNode_eq_ok_iff hf).mp h
    exact ⟨rfl, fun id h => by simpa [changed] using h⟩

theorem retains_increaseToSize (shape : NodeShape) (size : Nat) (store : Store) :
    Retains store (shape.increaseToSize size store) := by
  obtain ⟨numbers, -, hgrowth⟩ :=
    shape.exists_growth (size - store.nodes.size) store.nodes.size store
  refine ⟨hgrowth.pods_eq, fun id h => ?_⟩
  obtain ⟨node, hnode, rfl⟩ := Table.contains_iff.mp h
  exact Table.contains_of_mem (hgrowth.rows_perm.mem_iff.mpr (List.mem_append_right _ hnode))

theorem retains_execute (shape : NodeShape) {command : Command} (h : command.Scales)
    (store : Store) : Retains store (shape.backend.execute command store).2 := by
  cases command with
  | uncordon id => exact retains_updateNode NodeRecord.id_uncordon
  | cordon id t => exact retains_updateNode (NodeRecord.id_cordon · t)
  | increaseToSize size => exact retains_increaseToSize shape size store
  | deleteNodes ids => exact h.elim
  | deregister id => exact h.elim

/-- Scaling removes no node and touches no pod, however it ends. -/
theorem retains_adjust (config : Config) (shape : NodeShape) (now : Instant) (store : Store) :
    Retains store ((adjust config now).run shape.backend store).2 := by
  refine (adjust_only config now).run_keeps (fun _ h => h) (fun command middle hcommand h => ?_)
    store ⟨rfl, fun _ h => h⟩
  exact h.trans (retains_execute shape hcommand middle)

/-! ### The whole reconciliation -/

/-- A reconciliation ends where its scaling part does, unless that is followed by a complete
reaping. -/
theorem tick_cases (config : Config) (shape : NodeShape) (now later : Instant) (store : Store) :
    (∃ halt, (tick config now later).run shape.backend store =
      (.error halt, ((adjust config now).run shape.backend store).2)) ∨
    ∃ available outcome middle ids,
      (adjust config now).run shape.backend store = (.ok (available, outcome), middle) ∧
      Reaped config middle later ids ∧
      (tick config now later).run shape.backend store =
        (.ok ⟨available, config.target, outcome, ids⟩, middle.dropNodes ids) := by
  unfold tick
  rw [run_bind]
  rcases hadjust : (adjust config now).run shape.backend store with
    ⟨halt | ⟨available, outcome⟩, middle⟩
  · exact .inl ⟨halt, rfl⟩
  dsimp only
  rw [run_bind]
  rcases run_reap config shape later middle with ⟨halt, hreap⟩ | ⟨ids, hreaped, hreap⟩
  · rw [hreap]
    exact .inl ⟨halt, rfl⟩
  · rw [hreap]
    exact .inr ⟨available, outcome, middle, ids, rfl, hreaped, rfl⟩

/-- The course of a complete reconciliation: a scaling that ends at `middle`, and a reaping of what
may go there. -/
structure Reconciled (config : Config) (shape : NodeShape) (now later : Instant) (store : Store)
    (commands : List Command) (report : Report) (middle final : Store) : Prop where
  blocks : (store.state.snapshot config.protection).availableBlocks config.block =
    .ok report.available
  reaped : Reaped config middle later report.deleted
  final_eq : final = middle.dropNodes report.deleted
  scaled : ∃ calls,
    Scaled config shape.pool now store report.available calls report.outcome middle ∧
    commands = calls.map Prod.fst ++ if report.deleted.isEmpty then []
      else .deleteNodes report.deleted :: report.deleted.map .deregister

theorem reconciled_of_completes {calls : List (Command × Store)} {report : Report} {final : Store}
    (h : (tick config now later).Completes shape.backend store calls report final) :
    ∃ middle, Reconciled config shape now later store (calls.map Prod.fst) report middle final := by
  obtain ⟨first, ⟨available, outcome⟩, middle, rest, hadjust, hnext, rfl⟩ := completes_bind.mp h
  obtain ⟨second, deleted, last, third, hreap, hdone, rfl⟩ := completes_bind.mp hnext
  obtain ⟨rfl, rfl, rfl⟩ := completes_pure.mp hdone
  obtain ⟨-, hblocks, hscaled⟩ := scaled_of_completes hadjust
  obtain ⟨hreaped, rfl, hcommands⟩ := reaped_of_completes hreap
  refine ⟨middle, hblocks, hreaped, rfl, first, hscaled, ?_⟩
  rw [List.append_nil, List.map_append, hcommands]

/-- Let `middle` be the store that the reaping part meets. A complete reconciliation drops from it
the reapable nodes and the pods bound to them, and nothing else. However a reconciliation ends, it
has dropped no node before that, no node that `middle` shows schedulable, and no protected pod. -/
theorem tick_drops_exactly (config : Config) (shape : NodeShape) (now later : Instant)
    (store : Store) :
    let middle := ((adjust config now).run shape.backend store).2
    let final := ((tick config now later).run shape.backend store).2
    (∀ report, ((tick config now later).run shape.backend store).1 = .ok report →
      (∀ node, node ∈ final.nodes.rows ↔
        node ∈ middle.nodes.rows ∧ ¬ Reapable config middle later node) ∧
      (∀ pod, pod ∈ final.pods.rows ↔ pod ∈ middle.pods.rows ∧
        ¬ ∃ node ∈ middle.nodes.rows, Reapable config middle later node ∧
          pod.nodeId = some node.id)) ∧
    (∀ node ∈ store.nodes.rows, middle.nodes.contains node.id = true) ∧
    middle.pods = store.pods ∧
    (∀ node ∈ middle.nodes.rows, node.unschedulable = false → node ∈ final.nodes.rows) ∧
    (∀ pod ∈ store.pods.rows, config.protection.protects pod = true →
      pod ∈ final.pods.rows) := by
  intro middle final
  have hretains : Retains store middle := retains_adjust config shape now store
  have hids : ∀ node ∈ store.nodes.rows, middle.nodes.contains node.id = true :=
    fun node hnode => hretains.contains node.id (Table.contains_of_mem hnode)
  rcases tick_cases config shape now later store with
    ⟨halt, htick⟩ | ⟨available, outcome, middle', ids, hadjust, hreaped, htick⟩
  · have hfinal : final = middle := congrArg Prod.snd htick
    rw [hfinal]
    refine ⟨fun report hreport => ?_, hids, hretains.pods_eq, fun node hnode _ => hnode, ?_⟩
    · simp [htick] at hreport
    · rw [hretains.pods_eq]
      exact fun pod hpod _ => hpod
  · have hmiddle : middle' = middle := (congrArg Prod.snd hadjust).symm
    have hfinal : final = middle.dropNodes ids := by rw [← hmiddle]; exact congrArg Prod.snd htick
    rw [hmiddle] at hreaped
    rw [hfinal]
    refine ⟨fun _ _ => ⟨fun _ => hreaped.mem_nodes, fun _ => hreaped.mem_pods⟩, hids,
      hretains.pods_eq, fun node hnode hopen => ?_, fun pod hpod hprotected => ?_⟩
    · refine hreaped.mem_nodes.mpr ⟨hnode, fun hreap => ?_⟩
      simp [hreap.cordoned] at hopen
    · rw [← hretains.pods_eq] at hpod
      refine hreaped.mem_pods.mpr ⟨hpod, ?_⟩
      rintro ⟨node, -, hreap, hbound⟩
      exact hreap.unprotected pod hpod hbound (by simpa [Protection.protects] using hprotected)

/-! ### A small pool -/

/-- Noon of a day in November 2023. -/
def smallNow : Instant := ⟨19675, 43200, 0, by decide, by decide, by decide, by decide, by decide⟩

/-- Blocks of a tenth of a processor, twenty of them spare, and ten minutes of grace. -/
def smallConfig : Config where
  block := ⟨100, by decide⟩
  target := 20
  target_le := by decide
  grace := .ofSeconds 600
  protection := {}

/-- Two schedulable nodes and, between them, one that was cordoned long ago and still runs a
pod. -/
def smallStore : Store := .ofState {
  nodes := [
    { id := "a", capacity := some 1000 },
    { id := "b", capacity := some 1000, unschedulable := true,
      annotations := .ofList [(Cluster.cordonKey, "2023-01-01T00:00:00Z")] },
    { id := "c", capacity := some 1000 }]
  pods := [{ space := "games", name := "match", nodeId := some "b", request := 300 }] }

set_option maxRecDepth 10000 in
theorem tick_drops_exactly_small :
    ((tick smallConfig smallNow).run (NodeShape.backend {}) smallStore).1 =
      .ok ⟨20, 20, .unchanged, ["b"]⟩ ∧
    ∀ pod, pod ∈ ((tick smallConfig smallNow).run (NodeShape.backend {}) smallStore).2.pods.rows ↔
      pod ∈ ((adjust smallConfig smallNow).run (NodeShape.backend {}) smallStore).2.pods.rows ∧
      ¬ ∃ node ∈ ((adjust smallConfig smallNow).run (NodeShape.backend {}) smallStore).2.nodes.rows,
        Reapable smallConfig ((adjust smallConfig smallNow).run (NodeShape.backend {}) smallStore).2
          smallNow node ∧ pod.nodeId = some node.id := by
  have hrun : ((tick smallConfig smallNow).run (NodeShape.backend {}) smallStore).1 =
      .ok ⟨20, 20, .unchanged, ["b"]⟩ := by cbv
  exact ⟨hrun, ((tick_drops_exactly smallConfig {} smallNow smallNow smallStore).1 _ hrun).2⟩

end Scaling

end Headroom
