import Headroom.Proofs.Accounting
import Headroom.Proofs.Provision

/-! Pools of equal nodes. There the spare capacity is a sum over the ids of the schedulable nodes,
so opening, barring, adding and dropping nodes change it by what those ids contribute. -/

namespace Headroom.Cluster.Store

open Scaling (NodeShape)

variable {store store' : Store} {ids : List String} {shape : NodeShape}

/-- The ids of the nodes open to new work. -/
def openNodes (store : Store) : List String := store.state.schedulable.map (·.id)

theorem mem_openNodes {id : String} : id ∈ store.openNodes ↔
    ∃ node ∈ store.nodes.rows, node.unschedulable = false ∧ node.id = id := by
  simp only [openNodes, List.mem_map, State.mem_schedulable, and_assoc, state]

theorem nodup_openNodes (store : Store) : store.openNodes.Nodup :=
  (State.distinct_of_store store).schedulable

theorem mem_openNodes_of_mem {node : NodeRecord} (h : node ∈ store.nodes.rows) :
    node.id ∈ store.openNodes ↔ node.unschedulable = false := by
  rw [mem_openNodes]
  constructor
  · rintro ⟨other, hother, hopen, hid⟩
    rwa [store.nodes.eq_of_key_eq hother h hid] at hopen
  · exact fun hopen => ⟨node, h, hopen, rfl⟩

/-! ### Which nodes are open -/

/-- Uncordoning adds the nodes uncordoned. -/
theorem openNodes_uncordon (hids : ids.Nodup)
    (hcordoned : ∀ id ∈ ids, ∃ node ∈ store.state.cordoned, node.id = id) :
    (store.updateNodes ids NodeRecord.uncordon NodeRecord.id_uncordon).openNodes.Perm
      (ids ++ store.openNodes) := by
  have hdisjoint : ids.Disjoint store.openNodes := by
    intro id hid hopen
    obtain ⟨node, hnode, rfl⟩ := hcordoned id hid
    obtain ⟨hrow, hbarred⟩ := State.mem_cordoned.mp hnode
    simp [(mem_openNodes_of_mem hrow).mp hopen] at hbarred
  refine (List.perm_ext_iff_of_nodup (nodup_openNodes _)
    (List.nodup_append'.mpr ⟨hids, store.nodup_openNodes, hdisjoint⟩)).mpr fun id => ?_
  rw [List.mem_append, mem_openNodes, mem_openNodes, rows_updateNodes]
  constructor
  · rintro ⟨node, hnode, hopen, rfl⟩
    obtain ⟨old, hold, rfl⟩ := List.mem_map.mp hnode
    by_cases hid : old.id ∈ ids
    · rw [if_pos hid]
      exact .inl hid
    · rw [if_neg hid] at hopen ⊢
      exact .inr ⟨old, hold, hopen, rfl⟩
  · rintro (hid | ⟨node, hnode, hopen, rfl⟩)
    · obtain ⟨node, hnode, rfl⟩ := hcordoned id hid
      exact ⟨_, List.mem_map_of_mem (State.mem_cordoned.mp hnode).1, by simp [hid], by simp [hid]⟩
    · refine ⟨_, List.mem_map_of_mem hnode, ?_, ?_⟩
      · split
        · rfl
        · exact hopen
      · split <;> rfl

/-- Cordoning takes away the nodes cordoned. -/
theorem openNodes_cordon (now : Instant) (hids : ids.Nodup)
    (hopen : ∀ id ∈ ids, ∃ node ∈ store.state.schedulable, node.id = id) :
    (ids ++ (store.updateNodes ids (·.cordon now) (NodeRecord.id_cordon · now)).openNodes).Perm
      store.openNodes := by
  have hafter : ∀ id, id ∈ (store.updateNodes ids (·.cordon now)
      (NodeRecord.id_cordon · now)).openNodes ↔ id ∈ store.openNodes ∧ id ∉ ids := by
    intro id
    rw [mem_openNodes, mem_openNodes, rows_updateNodes]
    constructor
    · rintro ⟨node, hnode, hopen, rfl⟩
      obtain ⟨old, hold, rfl⟩ := List.mem_map.mp hnode
      by_cases hid : old.id ∈ ids
      · rw [if_pos hid] at hopen
        simp at hopen
      · rw [if_neg hid] at hopen ⊢
        exact ⟨⟨old, hold, hopen, rfl⟩, hid⟩
    · rintro ⟨⟨node, hnode, hopen, rfl⟩, hid⟩
      exact ⟨_, List.mem_map_of_mem hnode, by simp [hid, hopen], by simp [hid]⟩
  have hdisjoint : ids.Disjoint (store.updateNodes ids (·.cordon now)
      (NodeRecord.id_cordon · now)).openNodes := fun id hid h => ((hafter id).mp h).2 hid
  refine (List.perm_ext_iff_of_nodup (List.nodup_append'.mpr ⟨hids, nodup_openNodes _, hdisjoint⟩)
    store.nodup_openNodes).mpr fun id => ?_
  rw [List.mem_append, hafter]
  constructor
  · rintro (hid | ⟨h, -⟩)
    · obtain ⟨node, hnode, rfl⟩ := hopen id hid
      exact List.mem_map_of_mem hnode
    · exact h
  · intro h
    by_cases hid : id ∈ ids
    · exact .inl hid
    · exact .inr ⟨h, hid⟩

/-- Growing adds the new nodes. -/
theorem openNodes_growth {numbers : List Nat} {n : Nat} (h : shape.Growth n numbers store store') :
    store'.openNodes.Perm (numbers.map shape.name ++ store.openNodes) := by
  have hfilter := (h.rows_perm.filter (!·.unschedulable)).map (·.id)
  rw [List.filter_append, List.map_append] at hfilter
  have hnew : (numbers.map shape.node).filter (!·.unschedulable) = numbers.map shape.node :=
    List.filter_eq_self.mpr fun node hnode => by
      obtain ⟨k, -, rfl⟩ := List.mem_map.mp hnode
      rfl
  rw [hnew, List.map_map] at hfilter
  exact hfilter

/-- Dropping cordoned nodes leaves the open ones. -/
theorem openNodes_drop (h : ∀ id ∈ ids, ∃ node ∈ store.state.cordoned, node.id = id) :
    (store.dropNodes ids).openNodes = store.openNodes := by
  have hkeep : ∀ node ∈ store.state.schedulable, node.id ∉ ids := by
    intro node hnode hid
    obtain ⟨other, hother, heq⟩ := h node.id hid
    obtain ⟨hrow, hopen⟩ := State.mem_schedulable.mp hnode
    obtain ⟨hrow', hbarred⟩ := State.mem_cordoned.mp hother
    rw [store.nodes.eq_of_key_eq hrow' hrow heq, hopen] at hbarred
    exact absurd hbarred Bool.false_ne_true
  have hrows : (store.dropNodes ids).state.schedulable =
      store.state.schedulable.filter (·.id ∉ ids) := by
    simp only [State.schedulable, state, dropNodes, Table.filter, List.filter_filter, Bool.and_comm]
  rw [openNodes, hrows, List.filter_eq_self.mpr fun node hnode => by simpa using hkeep node hnode]
  rfl

/-! ### What open nodes contribute -/

/-- Every node offers what the nodes of the shape do. -/
def Uniform (shape : NodeShape) (store : Store) : Prop :=
  ∀ node ∈ store.nodes.rows, node.capacity = some shape.capacity

theorem Uniform.freeOn (h : Uniform shape store) {node : NodeRecord}
    (hnode : node ∈ store.nodes.rows) :
    store.state.freeOn node = shape.capacity.toNat - store.state.load node.id := by
  simp [State.freeOn, NodeRecord.offer, h node hnode]

/-- What nodes of the shape have free under some ids. -/
def freeUnder (shape : NodeShape) (store : Store) (ids : List String) : Int :=
  (ids.map fun id => (shape.capacity.toNat - store.state.load id : Int)).sum

theorem freeUnder_append (ids more : List String) :
    store.freeUnder shape (ids ++ more) =
      store.freeUnder shape ids + store.freeUnder shape more := by
  simp [freeUnder]

theorem freeUnder_perm {more : List String} (h : ids.Perm more) :
    store.freeUnder shape ids = store.freeUnder shape more :=
  (h.map _).sum_eq

theorem freeUnder_le (ids : List String) :
    store.freeUnder shape ids ≤ ids.length * shape.capacity.toNat := by
  induction ids with
  | nil => simp [freeUnder]
  | cons id rest ih =>
    simp only [freeUnder, List.map_cons, List.sum_cons, List.length_cons] at ih ⊢
    push_cast
    linarith [Int.natCast_nonneg (store.state.load id)]

theorem Uniform.spare_eq (h : Uniform shape store) :
    store.state.spare = store.freeUnder shape store.openNodes := by
  rw [State.spare, freeUnder, openNodes, List.map_map]
  exact congrArg List.sum
    (List.map_congr_left fun node hnode => h.freeOn (State.mem_schedulable.mp hnode).1)

/-- The first node of a snapshot offers what the nodes of the shape do. -/
theorem Uniform.capacityProxy (h : Uniform shape store) (rule : Protection) :
    (store.nodes.rows ≠ [] → (store.state.snapshot rule).capacityProxy? = some shape.capacity) ∧
      ∀ capacity, (store.state.snapshot rule).capacityProxy? = some capacity →
        capacity = shape.capacity := by
  have hperm := store.state.nodes_snapshot_perm rule
  unfold Snapshot.capacityProxy?
  generalize (store.state.snapshot rule).nodes = views at hperm ⊢
  cases views with
  | nil =>
    have hempty := List.map_eq_nil_iff.mp (List.nil_perm.mp hperm)
    exact ⟨fun hne => absurd hempty hne, by simp⟩
  | cons view rest =>
    obtain ⟨node, hnode, rfl⟩ := List.mem_map.mp (hperm.mem_iff.mp List.mem_cons_self)
    have hcapacity : node.view.capacity = shape.capacity := by
      simp [NodeRecord.view, h node hnode]
    simp [hcapacity]

theorem Uniform.totalCapacity (h : Uniform shape store) :
    store.state.totalCapacity = store.nodes.size * shape.capacity.toNat := by
  have hoffers : store.state.nodes.map NodeRecord.offer =
      List.replicate store.nodes.size shape.capacity.toNat := by
    refine List.eq_replicate_iff.mpr ⟨by simp [state, Table.size], fun offer hoffer => ?_⟩
    obtain ⟨node, hnode, rfl⟩ := List.mem_map.mp hoffer
    simp [NodeRecord.offer, h node hnode]
  rw [State.totalCapacity, hoffers, List.sum_replicate, smul_eq_mul]

theorem Uniform.updateNodes (h : Uniform shape store) {f : NodeRecord → NodeRecord}
    (hf : ∀ node, (f node).id = node.id) (hcapacity : ∀ node, (f node).capacity = node.capacity) :
    Uniform shape (store.updateNodes ids f hf) := by
  intro node hnode
  rw [rows_updateNodes] at hnode
  obtain ⟨old, hold, rfl⟩ := List.mem_map.mp hnode
  split
  · rw [hcapacity, h old hold]
  · exact h old hold

theorem Uniform.growth {numbers : List Nat} {n : Nat} (h : Uniform shape store)
    (hgrowth : shape.Growth n numbers store store') : Uniform shape store' := by
  intro node hnode
  rcases List.mem_append.mp (hgrowth.rows_perm.mem_iff.mp hnode) with hnew | hold
  · obtain ⟨k, -, rfl⟩ := List.mem_map.mp hnew
    rfl
  · exact h node hold

theorem Uniform.dropNodes (h : Uniform shape store) (ids : List String) :
    Uniform shape (store.dropNodes ids) :=
  fun node hnode => h node (mem_nodes_dropNodes.mp hnode).1

theorem Uniform.spare_uncordon (h : Uniform shape store) (hids : ids.Nodup)
    (hcordoned : ∀ id ∈ ids, ∃ node ∈ store.state.cordoned, node.id = id) :
    (store.updateNodes ids NodeRecord.uncordon NodeRecord.id_uncordon).state.spare =
      store.freeUnder shape ids + store.state.spare := by
  rw [h.spare_eq, (h.updateNodes _ NodeRecord.capacity_uncordon).spare_eq, ← freeUnder_append]
  exact freeUnder_perm (openNodes_uncordon hids hcordoned)

theorem Uniform.spare_cordon (h : Uniform shape store) (now : Instant) (hids : ids.Nodup)
    (hopen : ∀ id ∈ ids, ∃ node ∈ store.state.schedulable, node.id = id) :
    store.state.spare = store.freeUnder shape ids +
      (store.updateNodes ids (·.cordon now) (NodeRecord.id_cordon · now)).state.spare := by
  rw [h.spare_eq, (h.updateNodes _ (NodeRecord.capacity_cordon · now)).spare_eq,
    ← freeUnder_perm (openNodes_cordon now hids hopen), freeUnder_append]
  rfl

/-- A new node is wholly free where no pod is bound to a node that is not there. -/
theorem Uniform.spare_growth {numbers : List Nat} {n : Nat} (h : Uniform shape store)
    (hbound : ∀ pod ∈ store.pods.rows, ∀ id, pod.nodeId = some id → store.nodes.contains id = true)
    (hgrowth : shape.Growth n numbers store store') :
    store'.state.spare = numbers.length * shape.capacity.toNat + store.state.spare := by
  have hload : ∀ k ∈ numbers, store.state.load (shape.name k) = 0 := by
    intro k hk
    have hnone : store.state.podsOn (shape.name k) = [] := by
      refine List.filter_eq_nil_iff.mpr fun pod hpod hid => ?_
      have hthere := hbound pod hpod _ (by simpa using hid)
      rw [hgrowth.free k hk] at hthere
      exact absurd hthere Bool.false_ne_true
    rw [State.load, hnone]
    rfl
  have hnew : store.freeUnder shape (numbers.map shape.name) =
      numbers.length * shape.capacity.toNat := by
    rw [freeUnder, List.map_map, List.map_congr_left (g := fun _ => (shape.capacity.toNat : Int))
      fun k hk => by simp [hload k hk]]
    simp
  have hpods : store'.freeUnder shape = store.freeUnder shape := by
    unfold freeUnder State.load State.podsOn state
    rw [hgrowth.pods_eq]
  rw [(h.growth hgrowth).spare_eq, hpods, freeUnder_perm (openNodes_growth hgrowth),
    freeUnder_append, hnew, h.spare_eq]

/-- The pods that go with dropped nodes are on none of the nodes that stay. -/
theorem podsOn_dropNodes {id : String} (h : id ∉ ids) :
    (store.dropNodes ids).state.podsOn id = store.state.podsOn id := by
  simp only [State.podsOn, state, dropNodes, Table.filter, List.filter_filter]
  refine List.filter_congr fun pod _ => ?_
  by_cases hpod : pod.nodeId = some id
  · have hkept : ∀ other ∈ ids, ¬ id = other := fun other hother heq => h (heq ▸ hother)
    simpa [hpod] using hkept
  · simp [hpod]

theorem load_dropNodes {id : String} (h : id ∉ ids) :
    (store.dropNodes ids).state.load id = store.state.load id := by
  rw [State.load, podsOn_dropNodes h, State.load]

theorem Uniform.spare_drop (h : Uniform shape store)
    (hcordoned : ∀ id ∈ ids, ∃ node ∈ store.state.cordoned, node.id = id) :
    (store.dropNodes ids).state.spare = store.state.spare := by
  rw [(h.dropNodes ids).spare_eq, h.spare_eq, openNodes_drop hcordoned]
  refine congrArg List.sum (List.map_congr_left fun id hid => ?_)
  rw [load_dropNodes]
  intro hdropped
  obtain ⟨node, hnode, rfl⟩ := hcordoned id hdropped
  obtain ⟨hrow, hbarred⟩ := State.mem_cordoned.mp hnode
  rw [(mem_openNodes_of_mem hrow).mp hid] at hbarred
  exact absurd hbarred Bool.false_ne_true

end Headroom.Cluster.Store
