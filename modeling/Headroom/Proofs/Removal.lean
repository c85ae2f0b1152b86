import Headroom.Proofs.Reaping

/-! Nodes that are removed one after the other. What is left depends neither on the order nor on how
often a node is named. So a reaping does the same to a store whether the pool has removed the nodes
before they are struck off the cluster, or has left them there. -/

namespace Headroom

namespace Cluster.Store

/-- What removals answer, one after the other, and the store that they leave. -/
def removeAll : List String → Store → List Bool × Store
  | [], store => ([], store)
  | id :: rest, store =>
    let (found, store) := store.removeNode id
    let (answers, store) := removeAll rest store
    (found :: answers, store)

theorem removeAll_append (earlier later : List String) (store : Store) :
    removeAll (earlier ++ later) store =
      ((removeAll earlier store).1 ++ (removeAll later (removeAll earlier store).2).1,
        (removeAll later (removeAll earlier store).2).2) := by
  induction earlier generalizing store with
  | nil => rfl
  | cons id rest ih => simp only [List.cons_append, removeAll, ih]

@[simp] theorem length_removeAll (ids : List String) (store : Store) :
    (removeAll ids store).1.length = ids.length := by
  induction ids generalizing store with
  | nil => rfl
  | cons id rest ih => rw [removeAll, List.length_cons, ih, List.length_cons]

theorem store_removeAll (ids : List String) (store : Store) :
    (removeAll ids store).2 = store.dropNodes ids := by
  rw [← foldl_dropNode]
  induction ids generalizing store with
  | nil => rfl
  | cons id rest ih => exact ih (store.dropNode id)

theorem contains_dropNodes (store : Store) (ids : List String) (id : String) :
    (store.dropNodes ids).nodes.contains id = true ↔
      store.nodes.contains id = true ∧ id ∉ ids := by
  simp only [Table.contains_iff, mem_nodes_dropNodes]
  constructor
  · rintro ⟨node, ⟨hnode, hstays⟩, rfl⟩
    exact ⟨⟨node, hnode, rfl⟩, hstays⟩
  · rintro ⟨⟨node, hnode, rfl⟩, hstays⟩
    exact ⟨node, ⟨hnode, hstays⟩, rfl⟩

/-- A list that names the same nodes leaves the same store. -/
theorem dropNodes_congr {store : Store} {ids others : List String}
    (h : ∀ id, id ∈ others ↔ id ∈ ids) : store.dropNodes others = store.dropNodes ids :=
  ext_mem (fun node => by rw [mem_nodes_dropNodes, mem_nodes_dropNodes, h])
    (fun pod => by simp only [mem_pods_dropNodes, h])

/-- A removal finds what the removals before it have left. -/
theorem answer_removeAll (earlier later : List String) (id : String) (store : Store) :
    (removeAll (earlier ++ id :: later) store).1[earlier.length]? =
      some ((removeAll earlier store).2.nodes.contains id) := by
  rw [removeAll_append]
  dsimp only
  rw [List.getElem?_append_right (by rw [length_removeAll]), length_removeAll, Nat.sub_self]
  rfl

end Cluster.Store

namespace Scaling

open Cluster (Protection Store)

/-- Let nodes be removed one after the other; their ids may be in any order, repeated or unknown.
The nodes that are left are those whose ids are not in the list, and the pods those that are not
bound to one of these, all of them as they were. A removal answers whether its node was still there:
it was in the store, and no earlier removal named it. A list with the same ids leaves the same
store. So a reaping ends in the same way and leaves the same store whether the pool removes the
nodes that it is given, some of them or none: it is the store without the nodes that the reaping
returns. -/
theorem removals_in_any_order (store : Store) (ids : List String) :
    let answers := (store.removeAll ids).1
    let after := (store.removeAll ids).2
    (∀ node, node ∈ after.nodes.rows ↔ node ∈ store.nodes.rows ∧ node.id ∉ ids) ∧
    (∀ pod, pod ∈ after.pods.rows ↔ pod ∈ store.pods.rows ∧ ∀ id ∈ ids, pod.nodeId ≠ some id) ∧
    answers.length = ids.length ∧
    (∀ earlier id later, ids = earlier ++ id :: later →
      answers[earlier.length]? = some ((store.removeAll earlier).2.nodes.contains id) ∧
      ((store.removeAll earlier).2.nodes.contains id = true ↔
        store.nodes.contains id = true ∧ id ∉ earlier)) ∧
    (∀ others, (∀ id, id ∈ others ↔ id ∈ ids) → (store.removeAll others).2 = after) ∧
    ∀ (grace : Duration) (rule : Protection) (now : Instant),
      (∀ shape : NodeShape, (reap grace rule now).run shape.backend store =
        (reap grace rule now).run (clusterBackend idlePool) store) ∧
      (∀ pool : Command → Store → Store,
        (∀ batch, ∃ gone ⊆ batch, pool (.deleteNodes batch) store = (store.removeAll gone).2) →
        (reap grace rule now).run (clusterBackend pool) store =
          (reap grace rule now).run (clusterBackend idlePool) store) ∧
      ∀ batch final, (reap grace rule now).run (clusterBackend idlePool) store =
        (.ok batch, final) → final = (store.removeAll batch).2 := by
  intro answers after
  have hafter : after = store.dropNodes ids := store.store_removeAll ids
  refine ⟨fun node => ?_, fun pod => ?_, store.length_removeAll ids, ?_, fun others h => ?_,
    fun grace rule now => ?_⟩
  · rw [hafter, Store.mem_nodes_dropNodes]
  · rw [hafter, Store.mem_pods_dropNodes]
  · rintro earlier id later rfl
    refine ⟨Store.answer_removeAll earlier later id store, ?_⟩
    rw [Store.store_removeAll, Store.contains_dropNodes]
  · rw [hafter, Store.store_removeAll, Store.dropNodes_congr h]
  · have hidle : ∀ batch, ∃ gone ⊆ batch, idlePool (.deleteNodes batch) store =
        store.dropNodes gone := fun batch =>
      ⟨[], List.nil_subset batch, Store.dropNodes_nil.symm⟩
    refine ⟨fun shape => ?_, fun pool hpool => ?_, fun batch final h => ?_⟩
    · rw [run_reap_eq grace rule now store hidle]
      exact run_reap_eq grace rule now store (exists_gone_of_shape shape store)
    · simp only [Store.store_removeAll] at hpool
      rw [run_reap_eq grace rule now store hidle, run_reap_eq grace rule now store hpool]
    · rw [run_reap_eq grace rule now store hidle] at h
      rw [Store.store_removeAll]
      split at h
      · cases h
      · split at h
        · cases h
        · cases h
          rfl

/-- Two nodes that were cordoned long ago and one that is open; a pod of each kind: bound to one of
them, bound to a node that is not there, and waiting. -/
def leavingStore : Store := .ofState {
  nodes := [
    { id := "a", capacity := some 1000, unschedulable := true,
      annotations := .ofList [(Cluster.cordonKey, "2023-01-01T00:00:00Z")] },
    { id := "b", capacity := some 1000, unschedulable := true,
      annotations := .ofList [(Cluster.cordonKey, "2023-01-01T00:00:00Z")] },
    { id := "c", capacity := some 1000 }]
  pods := [
    { space := "games", name := "match", nodeId := some "b", request := 300 },
    { space := "games", name := "lobby", nodeId := some "c", request := 200 },
    { space := "games", name := "lost", nodeId := some "x" },
    { space := "games", name := "queue", nodeId := none }] }

/-- A pool that removes only the first of the nodes that it is given. -/
def slowPool : Command → Store → Store
  | .deleteNodes ids, store => (ids.take 1).foldl Store.dropNode store
  | _, store => store

set_option maxRecDepth 10000 in
theorem removals_in_any_order_leaving :
    let reaping := reap (.ofSeconds 600) {} smallNow
    (leavingStore.removeAll ["b", "x", "b"]).1[2]? = some false ∧
    (leavingStore.removeAll ["x", "b"]).2 = (leavingStore.removeAll ["b", "x", "b"]).2 ∧
    reaping.run (clusterBackend slowPool) leavingStore =
      reaping.run (clusterBackend idlePool) leavingStore ∧
    reaping.run (clusterBackend idlePool) leavingStore =
      (.ok ["a", "b"], (leavingStore.removeAll ["a", "b"]).2) := by
  intro reaping
  obtain ⟨-, -, -, hanswers, hothers, hreap⟩ := removals_in_any_order leavingStore ["b", "x", "b"]
  obtain ⟨-, hpool, hreaped⟩ := hreap (.ofSeconds 600) {} smallNow
  have hids : (reaping.run (clusterBackend idlePool) leavingStore).1 = .ok ["a", "b"] := by cbv
  refine ⟨(hanswers ["b", "x"] "b" [] rfl).1.trans (by decide), hothers ["x", "b"] (by simp),
    hpool slowPool fun batch => ⟨batch.take 1, List.take_subset 1 batch, ?_⟩,
    Prod.ext hids (hreaped _ _ (Prod.ext hids rfl))⟩
  rw [Store.store_removeAll]
  exact Store.foldl_dropNode (batch.take 1) leavingStore

end Scaling

end Headroom
