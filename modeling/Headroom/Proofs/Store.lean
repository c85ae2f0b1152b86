import Headroom.Proofs.Procedure
import Headroom.Proofs.Table
import Headroom.Scaling.Provision

/-! The store as a whole: nodes changed in place, nodes dropped with their pods, and what a list of
commands leaves behind. -/

namespace Headroom.Cluster

namespace NodeRecord

@[simp] theorem id_uncordon (node : NodeRecord) : node.uncordon.id = node.id := rfl

@[simp] theorem capacity_uncordon (node : NodeRecord) :
    node.uncordon.capacity = node.capacity := rfl

@[simp] theorem unschedulable_uncordon (node : NodeRecord) :
    node.uncordon.unschedulable = false := rfl

@[simp] theorem id_cordon (node : NodeRecord) (t : Instant) : (node.cordon t).id = node.id := by
  unfold cordon; split <;> rfl

@[simp] theorem capacity_cordon (node : NodeRecord) (t : Instant) :
    (node.cordon t).capacity = node.capacity := by
  unfold cordon; split <;> rfl

@[simp] theorem unschedulable_cordon (node : NodeRecord) (t : Instant) :
    (node.cordon t).unschedulable = true := by
  unfold cordon
  split
  · rename_i h
    exact (Bool.and_eq_true_iff.mp h).1
  · rfl

/-- A schedulable node that is cordoned takes the time of now, whatever time it carried. -/
theorem cordon_of_schedulable {node : NodeRecord} (h : node.unschedulable = false) (t : Instant) :
    node.cordon t = { node with
      unschedulable := true
      annotations := node.annotations.put cordonKey (Rfc3339.print .stamp t) } := by
  simp [cordon, h]

@[simp] theorem uncordon_uncordon (node : NodeRecord) : node.uncordon.uncordon = node.uncordon := by
  simp [uncordon, Table.erase, Table.filter_filter]

/-- A barred node keeps the time that it was barred at. -/
@[simp] theorem cordon_cordon (node : NodeRecord) (t u : Instant) :
    (node.cordon t).cordon u = node.cordon t := by
  by_cases h : node.unschedulable && node.annotations.contains cordonKey
  · have hkeep : ∀ at_, node.cordon at_ = node := fun at_ => by simp [cordon, h]
    rw [hkeep, hkeep]
  · have hstamp : (node.cordon t).annotations.contains cordonKey = true := by
      have hput : (cordonKey, Rfc3339.print .stamp t) ∈ (node.cordon t).annotations.rows := by
        simp [cordon, h, Dictionary.put]
      exact Table.contains_of_mem hput
    rw [cordon, unschedulable_cordon, hstamp]
    rfl

end NodeRecord

namespace Store

variable {store : Store} {ids : List String} {f : NodeRecord → NodeRecord}

/-! ### Changing nodes -/

/-- The store with the nodes of some ids replaced by their images under `f`, which keeps ids. -/
def updateNodes (store : Store) (ids : List String) (f : NodeRecord → NodeRecord)
    (hf : ∀ node, (f node).id = node.id) : Store :=
  { store with
    nodes := store.nodes.mapRows (fun node => if node.id ∈ ids then f node else node)
      (by intro node; split <;> simp [hf]) }

variable (hf : ∀ node, (f node).id = node.id)

@[simp] theorem pods_updateNodes : (store.updateNodes ids f hf).pods = store.pods := rfl

theorem rows_updateNodes : (store.updateNodes ids f hf).nodes.rows =
    store.nodes.rows.map fun node => if node.id ∈ ids then f node else node := rfl

@[simp] theorem size_updateNodes : (store.updateNodes ids f hf).nodes.size = store.nodes.size := by
  simp [Table.size, rows_updateNodes]

theorem ids_updateNodes :
    (store.updateNodes ids f hf).nodes.rows.map (·.id) = store.nodes.rows.map (·.id) := by
  rw [rows_updateNodes, List.map_map]
  refine List.map_congr_left fun node _ => ?_
  simp only [Function.comp_apply]
  split <;> simp [hf]

@[simp] theorem contains_updateNodes (id : String) :
    (store.updateNodes ids f hf).nodes.contains id = store.nodes.contains id := by
  rw [Bool.eq_iff_iff, Table.contains_iff_mem_keys, Table.contains_iff_mem_keys, ids_updateNodes]

theorem updateNodes_nil : store.updateNodes [] f hf = store := by
  cases store
  simp [updateNodes, Table.mapRows]

theorem updateNodes_cons (hidem : ∀ node, f (f node) = f node) (id : String) :
    (store.updateNodes [id] f hf).updateNodes ids f hf = store.updateNodes (id :: ids) f hf := by
  have hrows : ∀ node : NodeRecord,
      (if (if node.id ∈ [id] then f node else node).id ∈ ids
        then f (if node.id ∈ [id] then f node else node)
        else if node.id ∈ [id] then f node else node) =
      if node.id ∈ id :: ids then f node else node := by
    intro node
    by_cases hid : node.id = id <;> by_cases hids : node.id ∈ ids <;> simp_all
  simp only [updateNodes, Table.mapRows, List.map_map]
  congr 2
  exact List.map_congr_left fun node _ => hrows node

/-- An update succeeds on the nodes of the store, and only there. -/
theorem updateNode_eq_ok_iff {id : String} {store' : Store} :
    store.updateNode id f = .ok store' ↔
      store.nodes.contains id = true ∧ store' = store.updateNodes [id] f hf := by
  unfold updateNode node?
  rw [Table.contains]
  cases h : store.nodes.find? id with
  | none => simp
  | some node =>
    have hput : store.putNode (f node) = store.updateNodes [id] f hf := by
      simp only [putNode, updateNodes, List.mem_singleton]
      rw [Table.insert_eq_mapRows hf h]
    simp [hput, eq_comm]

/-! ### Dropping nodes -/

/-- The store without the nodes of some ids and without the pods bound to them. -/
def dropNodes (store : Store) (ids : List String) : Store where
  nodes := store.nodes.filter (·.id ∉ ids)
  pods := store.pods.filter fun pod => ∀ id ∈ ids, pod.nodeId ≠ some id

@[simp] theorem mem_nodes_dropNodes {node : NodeRecord} :
    node ∈ (store.dropNodes ids).nodes.rows ↔ node ∈ store.nodes.rows ∧ node.id ∉ ids := by
  simp [dropNodes]

@[simp] theorem mem_pods_dropNodes {pod : PodRecord} :
    pod ∈ (store.dropNodes ids).pods.rows ↔
      pod ∈ store.pods.rows ∧ ∀ id ∈ ids, pod.nodeId ≠ some id := by
  simp [dropNodes]

theorem ext_mem {s t : Store} (hnodes : ∀ node, node ∈ s.nodes.rows ↔ node ∈ t.nodes.rows)
    (hpods : ∀ pod, pod ∈ s.pods.rows ↔ pod ∈ t.pods.rows) : s = t := by
  cases s; cases t
  rw [mk.injEq]
  exact ⟨Table.ext_mem hnodes, Table.ext_mem hpods⟩

theorem dropNodes_nil : store.dropNodes [] = store :=
  ext_mem (by simp) (by simp)

theorem dropNode_eq (id : String) : store.dropNode id = store.dropNodes [id] :=
  ext_mem (by simp [dropNode]) (by simp [dropNode])

theorem dropNodes_dropNodes (more : List String) :
    (store.dropNodes ids).dropNodes more = store.dropNodes (ids ++ more) := by
  refine ext_mem (fun node => ?_) fun pod => ?_
  · simp only [mem_nodes_dropNodes, List.mem_append, not_or, and_assoc]
  · simp only [mem_pods_dropNodes, List.mem_append, or_imp, forall_and, and_assoc]

theorem foldl_dropNode (ids : List String) (store : Store) :
    ids.foldl dropNode store = store.dropNodes ids := by
  induction ids generalizing store with
  | nil => rw [List.foldl_nil, dropNodes_nil]
  | cons id rest ih =>
    rw [List.foldl_cons, ih, dropNode_eq, dropNodes_dropNodes, List.singleton_append]

end Store

end Headroom.Cluster

namespace Headroom.Scaling

open Cluster (NodeRecord Store)

namespace Procedure

variable {σ : Type} {backend : Backend σ} {world world' : σ} {calls : List (Command × σ)}

/-! ### Lists of commands -/

@[simp] theorem completes_issueAll_nil :
    (issueAll []).Completes backend world calls () world' ↔ calls = [] ∧ world' = world := by
  rw [show issueAll [] = (pure () : Procedure Unit) from rfl, completes_pure]
  simp

theorem completes_issueAll_cons {command : Command} {rest : List Command} :
    (issueAll (command :: rest)).Completes backend world calls () world' ↔
      ∃ middle later, backend.execute command world = (.ok (), middle) ∧
        (issueAll rest).Completes backend middle later () world' ∧
        calls = (command, world) :: later := by
  constructor
  · rintro ⟨hrun, hissued⟩
    simp only [issueAll, run, issued] at hrun hissued
    rcases hexec : backend.execute command world with ⟨cause | _, middle⟩
    · simp [hexec] at hrun
    · simp only [hexec] at hrun hissued
      exact ⟨middle, _, rfl, completes_of_run hrun, hissued.symm⟩
  · rintro ⟨middle, later, hexec, hrest, rfl⟩
    constructor
    · simp only [issueAll, run, hexec]
      exact hrest.run_eq
    · simp only [issueAll, issued, hexec]
      exact congrArg _ hrest.issued_eq

/-- A list of commands is issued from its front. -/
theorem issued_issueAll (backend : Backend σ) (commands : List Command) (world : σ) :
    ((issueAll commands).issued backend world).map Prod.fst <+: commands := by
  induction commands generalizing world with
  | nil => exact List.nil_prefix
  | cons command rest ih =>
    rw [issueAll, issued, List.map_cons, List.prefix_cons_inj]
    rcases backend.execute command world with ⟨cause | _, after⟩
    · exact List.nil_prefix
    · exact ih after

/-- A list of commands that comes to its end has been issued as it stands. -/
theorem Completes.commands {commands : List Command}
    (h : (issueAll commands).Completes backend world calls () world') :
    calls.map Prod.fst = commands := by
  induction commands generalizing world calls with
  | nil => simp [(completes_issueAll_nil.mp h).1]
  | cons command rest ih =>
    obtain ⟨middle, later, -, hrest, rfl⟩ := completes_issueAll_cons.mp h
    rw [List.map_cons, ih hrest]

end Procedure

open Procedure

variable {pool : Command → Store → Store} {store store' : Store} {calls : List (Command × Store)}
  {ids : List String}

theorem changed_eq_ok_iff {result : Except Cluster.Error Store} :
    changed store result = (.ok (), store') ↔ result = .ok store' := by
  cases result <;> simp [changed]

/-- Commands that update one node each, one after the other, update their nodes together. -/
theorem completes_updates {f : NodeRecord → NodeRecord} (hf : ∀ node, (f node).id = node.id)
    (hidem : ∀ node, f (f node) = f node) {command : String → Command}
    (hcommand : ∀ id store, (clusterBackend pool).execute (command id) store =
      changed store (store.updateNode id f))
    (h : (issueAll (ids.map command)).Completes (clusterBackend pool) store calls () store') :
    (∀ id ∈ ids, store.nodes.contains id = true) ∧ store' = store.updateNodes ids f hf := by
  induction ids generalizing store calls with
  | nil => simpa [Store.updateNodes_nil] using (completes_issueAll_nil.mp h).2
  | cons id rest ih =>
    obtain ⟨middle, later, hexec, hrest, -⟩ := completes_issueAll_cons.mp h
    rw [hcommand, changed_eq_ok_iff, Store.updateNode_eq_ok_iff hf] at hexec
    obtain ⟨hid, rfl⟩ := hexec
    obtain ⟨hids, rfl⟩ := ih hrest
    refine ⟨?_, Store.updateNodes_cons hf hidem id⟩
    simpa [hid] using hids

theorem completes_uncordons
    (h : (issueAll (ids.map .uncordon)).Completes (clusterBackend pool) store calls () store') :
    store' = store.updateNodes ids NodeRecord.uncordon NodeRecord.id_uncordon :=
  (completes_updates _ NodeRecord.uncordon_uncordon (fun _ _ => rfl) h).2

theorem completes_cordons {t : Instant}
    (h : (issueAll (ids.map (.cordon · t))).Completes (clusterBackend pool) store calls () store') :
    store' = store.updateNodes ids (·.cordon t) (NodeRecord.id_cordon · t) :=
  (completes_updates _ (NodeRecord.cordon_cordon · t t) (fun _ _ => rfl) h).2

/-- Striking nodes off the cluster never fails, and drops them all. -/
theorem run_deregisters (ids : List String) (store : Store) :
    (issueAll (ids.map .deregister)).run (clusterBackend pool) store =
      (.ok (), store.dropNodes ids) := by
  induction ids generalizing store with
  | nil => rw [Store.dropNodes_nil]; rfl
  | cons id rest ih =>
    simp only [List.map_cons, issueAll, run]
    show (issueAll (rest.map .deregister)).run _ (store.dropNode id) = _
    rw [ih, Store.dropNode_eq, Store.dropNodes_dropNodes, List.singleton_append]

/-- Deleting nodes in the pool and striking them off the cluster never fails, and drops them,
whether the pool removes all of them, some or none. -/
theorem run_deletions {gone : List String}
    (hpool : pool (.deleteNodes ids) store = store.dropNodes gone) (hgone : gone ⊆ ids) :
    (issueAll (.deleteNodes ids :: ids.map .deregister)).run (clusterBackend pool) store =
      (.ok (), store.dropNodes ids) := by
  have hagain : (store.dropNodes gone).dropNodes ids = store.dropNodes ids := by
    rw [Store.dropNodes_dropNodes]
    refine Store.ext_mem (fun node => ?_) fun pod => ?_
    · simp only [Store.mem_nodes_dropNodes, List.mem_append, not_or]
      exact and_congr_right fun _ => ⟨And.right, fun h => ⟨fun hid => h (hgone hid), h⟩⟩
    · simp only [Store.mem_pods_dropNodes, List.mem_append, or_imp, forall_and]
      exact and_congr_right fun _ => ⟨And.right, fun h => ⟨fun id hid => h id (hgone hid), h⟩⟩
  simp only [issueAll, run]
  show (issueAll (ids.map .deregister)).run _ (pool (.deleteNodes ids) store) = _
  rw [hpool, run_deregisters, hagain]

end Headroom.Scaling
