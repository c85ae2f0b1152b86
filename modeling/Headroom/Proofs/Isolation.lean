import Headroom.Proofs.Interruption
import Headroom.Proofs.Parallel

/-! Scaling does not see what reaping reads. From stores that agree but for annotations and labels
the same moves are made; and a time of cordoning that cannot be read ends a reconciliation, but only
after its scaling, and before anything is removed. -/

namespace Headroom

/-- The node carries a time of cordoning that can be read. -/
def Cluster.NodeRecord.Readable (node : NodeRecord) : Prop :=
  ∃ stamp t, node.annotations.get? cordonKey = some stamp ∧ Rfc3339.parse stamp = .ok t

namespace Scaling

open Cluster (NodeRecord Protection Snapshot State Store)
open Procedure

/-! ### A time of cordoning that cannot be read -/

/-- The nodes that a snapshot of a store shows barred stand in the order of their ids. -/
theorem cordoned_snapshot (store : Store) (rule : Protection) :
    (store.state.snapshot rule).cordoned = store.state.cordoned.map NodeRecord.view := by
  have hsorted : (store.nodes.rows.map NodeRecord.view).Pairwise
      fun a b => decide (a.id ≤ b.id) = true :=
    List.pairwise_map.mpr (store.nodes.ascending.imp fun h => decide_eq_true (le_of_lt h))
  have hnodes : (store.state.snapshot rule).nodes = store.nodes.rows.map NodeRecord.view :=
    List.mergeSort_of_pairwise hsorted
  rw [Snapshot.cordoned, hnodes, List.filter_map]
  rfl

theorem doomed_go_of_unreadable {grace : Duration} {s : Snapshot} {now : Instant}
    {before after : List Cluster.Node} {node : Cluster.Node} {error : Cluster.Error}
    (hbefore : ∀ earlier ∈ before, ∃ t, earlier.cordonedAt = .ok t)
    (hnode : node.cordonedAt = .error error) :
    doomed.go grace s now (before ++ node :: after) = .error error := by
  induction before with
  | nil =>
    rw [List.nil_append, doomed.go, hnode]
    rfl
  | cons first rest ih =>
    obtain ⟨⟨t, ht⟩, hrest⟩ := List.forall_mem_cons.mp hbefore
    rw [List.cons_append, doomed.go, ht, ih hrest]
    rfl

theorem cordonedAt_eq_error {node : Cluster.Node} {error : Cluster.Error}
    (h : node.cordonedAt = .error error) : ∃ reason, error = .malformedNodeState node.id reason := by
  unfold Cluster.Node.cordonedAt at h
  split at h
  · exact ⟨_, (Except.error.inj h).symm⟩
  · split at h
    · exact ⟨_, (Except.error.inj h).symm⟩
    · split at h
      · contradiction
      · exact ⟨_, (Except.error.inj h).symm⟩

variable {config : Config} {shape : NodeShape} {now later : Instant} {store middle : Store}

theorem readable_iff {node : NodeRecord} (h : node.unschedulable = true) :
    node.Readable ↔ ∃ t, node.view.cordonedAt = .ok t := by
  simp only [cordonedAt_view_eq_ok_iff, h, true_and, NodeRecord.Readable]
  exact exists_comm

theorem exists_first_unreadable
    (h : ∃ node ∈ store.nodes.rows, node.unschedulable = true ∧ ¬ node.Readable) :
    ∃ before node after, store.state.cordoned = before ++ node :: after ∧
      (∀ earlier ∈ before, earlier.Readable) ∧ ¬ node.Readable := by
  classical
  obtain ⟨node, hnode, hbarred, hunread⟩ := h
  cases hfind : store.state.cordoned.find? (fun node => ¬ node.Readable) with
  | none =>
    have hread := List.find?_eq_none.mp hfind node (State.mem_cordoned.mpr ⟨hnode, hbarred⟩)
    exact absurd (decide_eq_true hunread) hread
  | some first =>
    obtain ⟨hfirst, before, after, hsplit, hbefore⟩ := List.find?_eq_some_iff_append.mp hfind
    refine ⟨before, first, after, hsplit, fun earlier hearlier => ?_, of_decide_eq_true hfirst⟩
    simpa using hbefore earlier hearlier

/-- Where a reaping meets a barred node whose time of cordoning cannot be read, it names the first
such node and does nothing. -/
theorem reap_of_unreadable (hknown : ∀ node ∈ middle.nodes.rows, node.capacity.isSome)
    {before after : List NodeRecord} {node : NodeRecord}
    (hcordoned : middle.state.cordoned = before ++ node :: after)
    (hbefore : ∀ earlier ∈ before, earlier.Readable) (hnode : ¬ node.Readable) :
    ∃ reason, (reap config.grace config.protection later).run shape.backend middle =
        (.error (.failed (.malformedNodeState node.id reason)), middle) ∧
      (reap config.grace config.protection later).issued shape.backend middle = [] := by
  have hbarred : ∀ other ∈ before ++ node :: after, other.unschedulable = true := fun other h =>
    (State.mem_cordoned.mp (hcordoned ▸ h)).2
  have hunread : ∀ t, node.view.cordonedAt ≠ .ok t := fun t ht =>
    hnode ((readable_iff (hbarred node (by simp))).mpr ⟨t, ht⟩)
  obtain ⟨error, herror⟩ : ∃ error, node.view.cordonedAt = .error error := by
    rcases hat : node.view.cordonedAt with error | t
    · exact ⟨error, rfl⟩
    · exact absurd hat (hunread t)
  obtain ⟨reason, rfl⟩ := cordonedAt_eq_error herror
  have hdoomed : doomed config.grace (middle.state.snapshot config.protection) later =
      .error (.malformedNodeState node.id reason) := by
    rw [doomed, cordoned_snapshot, hcordoned, List.map_append, List.map_cons]
    refine doomed_go_of_unreadable (List.forall_mem_map.mpr fun earlier hearlier => ?_) herror
    exact (readable_iff (hbarred earlier (by simp [hearlier]))).mp (hbefore earlier hearlier)
  have hstate : Snapshot.ofState middle.state config.protection =
      .ok (middle.state.snapshot config.protection) := State.ofState_eq_ok_iff.mpr ⟨hknown, rfl⟩
  refine ⟨reason, ?_, ?_⟩
  · rw [reap, show shape.backend = clusterBackend shape.pool from rfl, run_capture_bind, hstate]
    simp only [hdoomed]
    rfl
  · rw [reap, show shape.backend = clusterBackend shape.pool from rfl, issued_capture_bind, hstate]
    simp only [hdoomed]
    rfl

/-- A scaling that comes to its end leaves no node of unknown capacity. -/
theorem known_of_adjust {done : Int × Outcome}
    (h : (adjust config now).run shape.backend store = (.ok done, middle)) :
    ∀ node ∈ middle.nodes.rows, node.capacity.isSome := by
  have hstart := (scaled_of_completes (completes_of_run h)).1
  have hexecute : ∀ command (world : Store), command.Scales →
      (∀ node ∈ world.nodes.rows, node.capacity.isSome) →
      ∀ node ∈ (shape.backend.execute command world).2.nodes.rows, node.capacity.isSome := by
    intro command world _ hworld node hnode
    cases descends_of_mem hnode with
    | kept old => exact hworld node old
    | opened old =>
      rw [NodeRecord.capacity_uncordon]
      exact hworld _ old
    | barred old =>
      rw [NodeRecord.capacity_cordon]
      exact hworld _ old
    | added => rfl
  have hkeeps := (adjust_only config now).run_keeps (fun _ hworld => hworld) hexecute store hstart
  rwa [h] at hkeeps

/-- A reconciliation makes the moves of its scaling. -/
theorem moves_tick (config : Config) (shape : NodeShape) (now later : Instant) (store : Store) :
    ((tick config now later).issued shape.backend store).filterMap (·.1.move?) =
      ((adjust config now).issued shape.backend store).filterMap (·.1.move?) := by
  have hreap : ∀ middle : Store, ((reap config.grace config.protection later).issued shape.backend
      middle).filterMap (·.1.move?) = [] := by
    intro middle
    refine List.filterMap_eq_nil_iff.mpr fun call hcall => ?_
    have hremoves := (reap_removes config later).mem_issued call hcall
    cases hcommand : call.1 with
    | deleteNodes ids => rfl
    | deregister id => rfl
    | _ => simp [hcommand, Command.Removes] at hremoves
  rw [tick, issued_bind, List.filterMap_append]
  rcases (adjust config now).run shape.backend store with ⟨halt | done, middle⟩
  · rw [List.filterMap_nil, List.append_nil]
  · dsimp only
    rw [issued_bind, List.filterMap_append, hreap]
    split <;> simp [pure_eq, issued]

/-! ### The isolation of scaling -/

/-- Let two stores agree but for annotations and labels, and two parameters on the block and the
target. Two reconciliations, at whatever times, count the same spare blocks and make the same moves,
and their scaling ends alike. If after it a barred node has no readable time of cordoning, the
reconciliation ends with an error that names the first such node in the order of ids; what the
scaling has changed stays, and nothing but its moves was asked for. -/
theorem scaling_isolated (shape : NodeShape) {config other : Config}
    (hblock : config.block = other.block) (htarget : config.target = other.target)
    (now later now' later' : Instant) {store twin : Store} (hbare : store.bare = twin.bare) :
    (Snapshot.ofState store.state config.protection).map (·.availableBlocks config.block) =
      (Snapshot.ofState twin.state other.protection).map (·.availableBlocks other.block) ∧
    ((adjust config now).run shape.backend store).1 =
      ((adjust other now').run shape.backend twin).1 ∧
    ((tick config now later).issued shape.backend store).filterMap (·.1.move?) =
      ((tick other now' later').issued shape.backend twin).filterMap (·.1.move?) ∧
    (∀ report report',
      ((tick config now later).run shape.backend store).1 = .ok report →
      ((tick other now' later').run shape.backend twin).1 = .ok report' →
      report.available = report'.available ∧ report.outcome = report'.outcome) ∧
    ∀ done middle, (adjust config now).run shape.backend store = (.ok done, middle) →
      (∃ node ∈ middle.nodes.rows, node.unschedulable = true ∧ ¬ node.Readable) →
      ∃ before node after reason, middle.state.cordoned = before ++ node :: after ∧
        (∀ earlier ∈ before, earlier.Readable) ∧ ¬ node.Readable ∧
        (tick config now later).run shape.backend store =
          (.error (.failed (.malformedNodeState node.id reason)), middle) ∧
        ∀ call ∈ (tick config now later).issued shape.backend store, call.1.move?.isSome := by
  have hstate : store.state.bare = twin.state.bare := congrArg Store.state hbare
  obtain ⟨hresult, -, hmoves⟩ :=
    (parallel_adjust hblock htarget now now').run shape hbare
  refine ⟨?_, hresult, ?_, fun report report' hreport hreport' => ?_, ?_⟩
  · rcases State.ofState_alike hstate config.protection other.protection with
      ⟨error, hs, ht⟩ | ⟨x, y, hs, ht, halike⟩
    · simp only [hs, ht, Except.map]
    · simp only [hs, ht, Except.map, hblock, halike.availableBlocks]
  · rw [moves_tick, moves_tick]
    have hmap := congrArg (List.filterMap id) hmoves
    simpa only [List.filterMap_map, Function.comp_def, id] using hmap
  · rcases hrun : (tick config now later).run shape.backend store with ⟨result, final⟩
    rcases hrun' : (tick other now' later').run shape.backend twin with ⟨result', final'⟩
    rw [hrun] at hreport
    rw [hrun'] at hreport'
    cases ends_of_run hrun with
    | scaling adjusts => exact nomatch hreport
    | reaping adjusts reaps => exact nomatch hreport
    | reported adjusts reaps =>
      cases ends_of_run hrun' with
      | scaling adjusts' => exact nomatch hreport'
      | reaping adjusts' reaps' => exact nomatch hreport'
      | reported adjusts' reaps' =>
        rw [adjusts, adjusts'] at hresult
        obtain rfl := Except.ok.inj hresult
        obtain rfl := Except.ok.inj hreport
        obtain rfl := Except.ok.inj hreport'
        exact ⟨rfl, rfl⟩
  · intro done middle hadjust hunread
    obtain ⟨before, node, after, hcordoned, hbefore, hnode⟩ := exists_first_unreadable hunread
    obtain ⟨reason, hrun, hissued⟩ :=
      reap_of_unreadable (known_of_adjust hadjust) hcordoned hbefore hnode
    refine ⟨before, node, after, reason, hcordoned, hbefore, hnode, ?_, ?_⟩
    · rw [tick, run_bind, hadjust]
      dsimp only
      rw [run_bind, hrun]
    · have hissued' : (tick config now later).issued shape.backend store =
          (adjust config now).issued shape.backend store := by
        rw [tick, issued_bind, hadjust]
        dsimp only
        rw [issued_bind, hissued, hrun]
        simp
      intro call hcall
      rw [hissued'] at hcall
      exact ((adjust_only config now).mem_issued call hcall).isSome_move

/-- A node that was cordoned at some time. -/
def cordonedNode (id : String) (annotations : Dictionary) : NodeRecord where
  id := id
  capacity := some 1000
  unschedulable := true
  annotations := annotations

/-- A full node, and two cordoned ones of which the first runs a pod. -/
def cordonedStore (first second labels : Dictionary) : Store := .ofState {
  nodes := [
    { id := "a", capacity := some 1000, labels },
    cordonedNode "b" first,
    cordonedNode "c" second]
  pods := [
    { space := "games", name := "x", nodeId := some "a", request := 1000 },
    { space := "games", name := "y", nodeId := some "b", request := 300, labels }] }

/-- One time of cordoning is missing and the other cannot be read. -/
def vagueStore : Store := cordonedStore ∅ (.ofList [(Cluster.cordonKey, "soon")]) ∅

/-- Both times can be read, and a node and a pod are labelled. -/
def clearStore : Store := cordonedStore (.ofList [(Cluster.cordonKey, "2023-11-14T11:55:00Z")])
  (.ofList [(Cluster.cordonKey, "2023-11-14T11:56:00Z")]) (.ofList [("tier", "gold")])

/-- Seven blocks of a tenth of a processor spare. -/
def sevenConfig : Config := { smallConfig with target := 7, target_le := by decide }

/-- As many blocks spare, with another grace period and another rule. -/
def patientConfig : Config :=
  { sevenConfig with grace := .ofSeconds 3600, protection := ⟨"tier", "gold"⟩ }

set_option maxRecDepth 10000 in
theorem scaling_isolated_small : vagueStore.bare = clearStore.bare ∧
    ((tick patientConfig Instant.latest).issued (NodeShape.backend {}) clearStore).filterMap
      (·.1.move?) = [.uncordon "b"] ∧
    ∃ reason, ((tick sevenConfig smallNow).run (NodeShape.backend {}) vagueStore).1 =
      .error (.failed (.malformedNodeState "c" reason)) := by
  have hbare : vagueStore.bare = clearStore.bare := by decide
  obtain ⟨-, -, hmoves, -, hstops⟩ := @scaling_isolated {} sevenConfig patientConfig rfl rfl
    smallNow smallNow Instant.latest Instant.latest vagueStore clearStore hbare
  have hvague : ((tick sevenConfig smallNow).issued (NodeShape.backend {}) vagueStore).filterMap
      (·.1.move?) = [.uncordon "b"] := by cbv
  refine ⟨hbare, hmoves.symm.trans hvague, ?_⟩
  have hdone : ((adjust sevenConfig smallNow).run (NodeShape.backend {}) vagueStore).1 =
      .ok (0, .grown ["b"] 0) := by cbv
  have hleft : ((adjust sevenConfig smallNow).run (NodeShape.backend {})
      vagueStore).2.state.cordoned = [cordonedNode "c" (.ofList [(Cluster.cordonKey, "soon")])] := by
    cbv
  rcases hadjust : (adjust sevenConfig smallNow).run (NodeShape.backend {}) vagueStore with
    ⟨result, middle⟩
  rw [hadjust] at hdone hleft
  obtain rfl : result = .ok (0, .grown ["b"] 0) := hdone
  have hnode := State.mem_cordoned.mp (hleft.symm ▸ List.mem_singleton_self _)
  have hunread : ¬ (cordonedNode "c" (.ofList [(Cluster.cordonKey, "soon")])).Readable := by
    rintro ⟨stamp, t, hstamp, hparse⟩
    obtain rfl : "soon" = stamp := Option.some.inj hstamp
    have hfails : (Rfc3339.parse "soon").toOption = none := by cbv
    simp [hparse, Except.toOption] at hfails
  obtain ⟨before, node, after, reason, hcordoned, -, -, hrun, -⟩ :=
    hstops _ middle hadjust ⟨_, hnode.1, hnode.2, hunread⟩
  have hid : node.id = "c" := by
    have hmem : node ∈ middle.state.cordoned := by
      rw [hcordoned]
      exact List.mem_append_right _ List.mem_cons_self
    rw [hleft] at hmem
    rw [List.mem_singleton.mp hmem]
    rfl
  exact ⟨reason, by rw [hrun, hid]⟩

end Scaling

end Headroom
