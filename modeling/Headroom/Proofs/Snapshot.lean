import Headroom.Cluster.Snapshot
import Headroom.Proofs.Checked

/-! What a snapshot shows of the records it was made from. A listing has a snapshot exactly when
every node states its capacity, and then each query of it is a query of the records. -/

namespace Headroom.Cluster

/-- The node that a snapshot shows for a record. -/
def NodeRecord.view (record : NodeRecord) : Node where
  id := record.id
  capacity := record.capacity.getD 0
  cordoned := record.unschedulable
  stamp := if record.unschedulable then record.annotations.get? cordonKey else none

@[simp] theorem NodeRecord.id_view (record : NodeRecord) : record.view.id = record.id := rfl

@[simp] theorem NodeRecord.cordoned_view (record : NodeRecord) :
    record.view.cordoned = record.unschedulable := rfl

/-- The pod that a snapshot shows for a record bound to the node `id`. -/
def PodRecord.view (rule : Protection) (id : String) (record : PodRecord) : Pod :=
  ⟨record.key, id, record.request, rule.protects record⟩

theorem Node.ofRecord_eq_ok_iff {record : NodeRecord} {node : Node} :
    Node.ofRecord record = .ok node ↔ record.capacity.isSome ∧ node = record.view := by
  unfold ofRecord NodeRecord.view
  cases record.capacity with
  | none => simp
  | some capacity =>
    rw [Except.ok.injEq, eq_comm]
    simp

theorem Node.mapM_ofRecord_eq_ok_iff {records : List NodeRecord} {nodes : List Node} :
    records.mapM Node.ofRecord = .ok nodes ↔
      (∀ record ∈ records, record.capacity.isSome) ∧ nodes = records.map NodeRecord.view :=
  mapM_eq_ok_iff fun _ _ => Node.ofRecord_eq_ok_iff

namespace State

variable {state : State} {rule : Protection}

/-- The pods bound to an id. -/
def podsOn (state : State) (id : String) : List PodRecord :=
  state.pods.filter (·.nodeId == some id)

/-- The nodes open to new work. -/
def schedulable (state : State) : List NodeRecord := state.nodes.filter (!·.unschedulable)

/-- The nodes barred to new work. -/
def cordoned (state : State) : List NodeRecord := state.nodes.filter (·.unschedulable)

theorem mem_cordoned {node : NodeRecord} :
    node ∈ state.cordoned ↔ node ∈ state.nodes ∧ node.unschedulable = true :=
  List.mem_filter

theorem mem_schedulable {node : NodeRecord} :
    node ∈ state.schedulable ↔ node ∈ state.nodes ∧ node.unschedulable = false := by
  simp [schedulable]

/-- The snapshot of a listing whose nodes all state their capacity. -/
def snapshot (state : State) (rule : Protection) : Snapshot :=
  let nodes := (state.nodes.map NodeRecord.view).mergeSort fun a b => a.id ≤ b.id
  ⟨nodes, state.pods.filterMap (Pod.ofRecord? rule nodes)⟩

/-- A listing has a snapshot exactly when all capacities are known. -/
theorem ofState_eq_ok_iff {s : Snapshot} :
    Snapshot.ofState state rule = .ok s ↔
      (∀ node ∈ state.nodes, node.capacity.isSome) ∧ s = state.snapshot rule := by
  unfold Snapshot.ofState
  rcases hnodes : state.nodes.mapM Node.ofRecord with error | nodes
  · have hnot : ¬ ∀ node ∈ state.nodes, node.capacity.isSome := fun hall => by
      have := Node.mapM_ofRecord_eq_ok_iff.mpr ⟨hall, rfl⟩
      simp [hnodes] at this
    simp [bind, Except.bind, hnot]
  · obtain ⟨hall, rfl⟩ := Node.mapM_ofRecord_eq_ok_iff.mp hnodes
    simp only [bind, Except.bind, pure, Except.pure, Except.ok.injEq, snapshot]
    exact ⟨fun h => ⟨hall, h.symm⟩, fun h => h.2.symm⟩

/-- What is wrong with a listing that has no snapshot: its first node of unknown capacity. -/
def unreadable? (state : State) : Option Error :=
  (state.nodes.find? (·.capacity.isNone)).map fun node => .missingCapacity node.id

theorem ofState_eq_error_iff {error : Error} :
    Snapshot.ofState state rule = .error error ↔ state.unreadable? = some error := by
  have hnodes : ∀ nodes : List NodeRecord, nodes.mapM Node.ofRecord = .error error ↔
      (nodes.find? (·.capacity.isNone)).map (fun node => Error.missingCapacity node.id) =
        some error := by
    intro nodes
    induction nodes with
    | nil => simp [pure, Except.pure]
    | cons node rest ih =>
      rw [List.mapM_cons, List.find?_cons]
      cases hcapacity : node.capacity with
      | none => simp [Node.ofRecord, hcapacity, bind, Except.bind]
      | some capacity =>
        simp only [Node.ofRecord, hcapacity, Option.isNone_some]
        rw [← ih]
        rcases rest.mapM Node.ofRecord with e | nodes <;>
          simp [bind, Except.bind, pure, Except.pure]
  rw [unreadable?, ← hnodes]
  unfold Snapshot.ofState
  rcases state.nodes.mapM Node.ofRecord with e | nodes <;>
    simp [bind, Except.bind, pure, Except.pure]

theorem nodes_snapshot_perm (state : State) (rule : Protection) :
    (state.snapshot rule).nodes.Perm (state.nodes.map NodeRecord.view) :=
  List.mergeSort_perm _ _

/-- A snapshot shows the nodes in the order of their ids. -/
theorem ascending_snapshot (state : State) (rule : Protection) :
    ((state.snapshot rule).nodes.map (·.id)).Pairwise (· ≤ ·) := by
  refine List.pairwise_map.mpr ((List.pairwise_mergeSort (fun a b c hab hbc => ?_) (fun a b => ?_)
    (state.nodes.map NodeRecord.view)).imp fun {a b} h => ?_)
  · exact decide_eq_true ((of_decide_eq_true hab).trans (of_decide_eq_true hbc))
  · simpa using le_total a.id b.id
  · exact of_decide_eq_true h

theorem schedulable_snapshot_perm (state : State) (rule : Protection) :
    (state.snapshot rule).schedulable.Perm (state.schedulable.map NodeRecord.view) := by
  have hfilter := (state.nodes_snapshot_perm rule).filter (!·.cordoned)
  rwa [List.filter_map] at hfilter

theorem cordoned_snapshot_perm (state : State) (rule : Protection) :
    (state.snapshot rule).cordoned.Perm (state.cordoned.map NodeRecord.view) := by
  have hfilter := (state.nodes_snapshot_perm rule).filter (·.cordoned)
  rwa [List.filter_map] at hfilter

theorem exists_of_mem_cordoned_snapshot {node : Node} (h : node ∈ (state.snapshot rule).cordoned) :
    ∃ record ∈ state.cordoned, record.view = node :=
  List.mem_map.mp ((state.cordoned_snapshot_perm rule).mem_iff.mp h)

theorem any_nodes_snapshot (state : State) (rule : Protection) (id : String) :
    (state.snapshot rule).nodes.any (·.id == id) = true ↔ ∃ node ∈ state.nodes, node.id = id := by
  simp only [List.any_eq_true, beq_iff_eq, (state.nodes_snapshot_perm rule).mem_iff, List.mem_map]
  constructor
  · rintro ⟨node, ⟨record, hrecord, rfl⟩, hid⟩
    exact ⟨record, hrecord, hid⟩
  · rintro ⟨record, hrecord, hid⟩
    exact ⟨record.view, ⟨record, hrecord, rfl⟩, hid⟩

/-- A snapshot shows the pods bound to one of its nodes, in their order. -/
theorem podsOn_snapshot {id : String} (h : ∃ node ∈ state.nodes, node.id = id) :
    (state.snapshot rule).podsOn id = (state.podsOn id).map (PodRecord.view rule id) := by
  have hknown := (state.any_nodes_snapshot rule id).mpr h
  simp only [Snapshot.podsOn, podsOn, snapshot] at hknown ⊢
  generalize (state.nodes.map NodeRecord.view).mergeSort _ = nodes at hknown
  rw [List.filter_filterMap, ← List.filterMap_eq_map, List.filterMap_filter]
  refine List.filterMap_congr fun pod _ => ?_
  unfold Pod.ofRecord? PodRecord.view
  cases pod.nodeId with
  | none => simp
  | some nodeId =>
    by_cases hid : nodeId = id
    · subst hid
      simp [hknown]
    · by_cases hany : nodes.any (·.id == nodeId) <;> simp [hany, hid]

/-- Under an id that no node has a snapshot shows no pod. -/
theorem podsOn_snapshot_of_unknown {id : String} (h : ∀ node ∈ state.nodes, node.id ≠ id) :
    (state.snapshot rule).podsOn id = [] := by
  have hunknown : ¬ (state.snapshot rule).nodes.any (·.id == id) = true := by
    rw [any_nodes_snapshot]
    rintro ⟨node, hnode, hid⟩
    exact h node hnode hid
  refine List.filter_eq_nil_iff.mpr fun pod hpod hid => hunknown ?_
  have hlisted : pod ∈ state.pods.filterMap (Pod.ofRecord? rule (state.snapshot rule).nodes) :=
    hpod
  obtain ⟨record, -, hrecord⟩ := List.mem_filterMap.mp hlisted
  unfold Pod.ofRecord? at hrecord
  split at hrecord
  · split at hrecord
    · rename_i nodeId hnode hknown
      obtain rfl := Option.some.inj hrecord
      rwa [← show nodeId = id by simpa using hid]
    · exact absurd hrecord (Option.some_ne_none pod).symm
  · exact absurd hrecord (Option.some_ne_none pod).symm

/-- A node bears protection exactly while a protected pod is bound to it. -/
theorem protectedOn_snapshot_eq_zero_iff {id : String} (h : ∃ node ∈ state.nodes, node.id = id) :
    (state.snapshot rule).protectedOn id = 0 ↔
      ∀ pod ∈ state.pods, pod.nodeId = some id → rule.protects pod = false := by
  rw [Snapshot.protectedOn, podsOn_snapshot h, List.countP_map, List.countP_eq_zero]
  simp [podsOn, PodRecord.view]

end State

end Headroom.Cluster
