import Headroom.Proofs.Planning

/-! What scaling reads of a snapshot: its nodes without their times of cordoning, and what is
requested on each id. Snapshots that agree on this lead to the same counts and the same plans,
faults included. -/

namespace Headroom

namespace Cluster

/-- The node without its time of cordoning. -/
def Node.bare (node : Node) : Node := { node with stamp := none }

@[simp] theorem Node.id_bare (node : Node) : node.bare.id = node.id := rfl

@[simp] theorem Node.capacity_bare (node : Node) : node.bare.capacity = node.capacity := rfl

@[simp] theorem Node.cordoned_bare (node : Node) : node.bare.cordoned = node.cordoned := rfl

namespace Snapshot

/-- Two snapshots show the same nodes, their times of cordoning apart, and under each id the same
requests in some order. -/
structure Alike (x y : Snapshot) : Prop where
  nodes : x.nodes.map Node.bare = y.nodes.map Node.bare
  requests : ∀ id, ((x.podsOn id).map (·.request)).Perm ((y.podsOn id).map (·.request))

namespace Alike

variable {x y : Snapshot}

theorem length_podsOn (h : Alike x y) (id : String) :
    (x.podsOn id).length = (y.podsOn id).length := by
  simpa using (h.requests id).length_eq

theorem inUse (h : Alike x y) (id : String) : x.inUse id = y.inUse id :=
  Word.total_perm (h.requests id)

theorem free (h : Alike x y) (node : Node) : x.free node = y.free node := by
  rw [Snapshot.free, Snapshot.free, h.inUse]

theorem filter_nodes (h : Alike x y) {test : Node → Bool}
    (htest : ∀ node, test node.bare = test node) :
    (x.nodes.filter test).map Node.bare = (y.nodes.filter test).map Node.bare := by
  have hmap : ∀ nodes : List Node,
      (nodes.filter test).map Node.bare = (nodes.map Node.bare).filter test := by
    intro nodes
    rw [List.filter_map]
    exact congrArg _ (List.filter_congr fun node _ => (htest node).symm)
  rw [hmap, hmap, h.nodes]

theorem cordoned (h : Alike x y) : x.cordoned.map Node.bare = y.cordoned.map Node.bare :=
  h.filter_nodes fun _ => rfl

theorem schedulable (h : Alike x y) :
    x.schedulable.map Node.bare = y.schedulable.map Node.bare :=
  h.filter_nodes fun _ => rfl

theorem node? (h : Alike x y) (id : String) :
    (x.node? id).map Node.bare = (y.node? id).map Node.bare := by
  have hfind : ∀ s : Snapshot,
      (s.node? id).map Node.bare = (s.nodes.map Node.bare).find? (·.id == id) := by
    intro s
    rw [List.find?_map]
    rfl
  rw [hfind, hfind, h.nodes]

theorem capacityProxy? (h : Alike x y) : x.capacityProxy? = y.capacityProxy? := by
  have hhead : ∀ s : Snapshot,
      s.capacityProxy? = (s.nodes.map Node.bare).head?.map (·.capacity) := by
    intro s
    rw [List.head?_map, Option.map_map]
    rfl
  rw [hhead, hhead, h.nodes]

theorem availableCapacity (h : Alike x y) : x.availableCapacity = y.availableCapacity := by
  have hbare : ∀ s : Snapshot, s.availableCapacity = (s.schedulable.map Node.bare).foldlM
      (fun sum node => do Word.add sum (← s.free node)) 0 := by
    intro s
    rw [List.foldlM_map]
    rfl
  rw [hbare, hbare, h.schedulable]
  simp only [h.free]

theorem availableBlocks (h : Alike x y) (block : BlockSize) :
    x.availableBlocks block = y.availableBlocks block := by
  rw [Snapshot.availableBlocks, Snapshot.availableBlocks, h.availableCapacity]

end Alike

end Snapshot

end Cluster

namespace Scaling

open Cluster (Node Snapshot)

variable {x y : Snapshot}

/-! ### Orders and plans do not read times of cordoning -/

theorem byPodCount_bare (s : Snapshot) (nodes : List Node) :
    byPodCount s (nodes.map Node.bare) = (byPodCount s nodes).map Node.bare := by
  unfold byPodCount
  rw [List.map_mergeSort]
  exact fun _ _ _ _ => rfl

theorem byUse_bare (s : Snapshot) (nodes : List Node) :
    byUse s (nodes.map Node.bare) = (byUse s nodes).map (List.map Node.bare) := by
  unfold byUse
  rw [List.length_map]
  split
  · rfl
  · rw [mapM_image (f := fun node => do return ((← s.inUse node.id).toNat, node))
      (q := fun row => (row.1, row.2.bare))]
    · cases nodes.mapM fun node => do return ((← s.inUse node.id).toNat, node) with
      | error fault => rfl
      | ok rows =>
        refine congrArg Except.ok ?_
        rw [← List.map_mergeSort (f := fun row : Nat × Node => (row.1, row.2.bare))
          (fun _ _ _ _ => rfl), List.map_map, List.map_map]
        rfl
    · intro node
      rw [Node.id_bare]
      cases s.inUse node.id <;> rfl

theorem drawDown_bare (s : Snapshot) (nodes : List Node) (need : Int) :
    drawDown s (nodes.map Node.bare) need = drawDown s nodes need := by
  induction nodes generalizing need with
  | nil => rfl
  | cons node rest ih =>
    simp only [List.map_cons, drawDown, ih]
    rfl

/-! ### Plans for snapshots that are alike -/

theorem byUse_congr (h : x.Alike y) (nodes : List Node) : byUse x nodes = byUse y nodes := by
  simp only [byUse, h.inUse]

theorem byPodCount_congr (h : x.Alike y) (nodes : List Node) :
    byPodCount x nodes = byPodCount y nodes := by
  simp only [byPodCount, h.length_podsOn]

theorem drawDown_congr (h : x.Alike y) (nodes : List Node) (need : Int) :
    drawDown x nodes need = drawDown y nodes need := by
  induction nodes generalizing need with
  | nil => rfl
  | cons node rest ih => simp only [drawDown, h.free, ih]

theorem pickToUncordon_congr (h : x.Alike y) (block : BlockSize) (deficit : Int) :
    pickToUncordon block x deficit = pickToUncordon block y deficit := by
  -- The order of the cordoned nodes is computed without their times, and so is the draw.
  have hbare : ∀ s : Snapshot, ∀ need, (do drawDown s (← byUse s s.cordoned) need) =
      (do drawDown s (← byUse s (s.cordoned.map Node.bare)) need) := by
    intro s need
    rw [byUse_bare]
    cases byUse s s.cordoned with
    | error fault => rfl
    | ok sorted => exact (drawDown_bare s sorted need).symm
  unfold pickToUncordon
  rw [hbare, hbare, h.cordoned, byUse_congr h]
  simp only [drawDown_congr h]

theorem ids_byPodCount_congr (h : x.Alike y) :
    (byPodCount x x.nodes).map (·.id) = (byPodCount y y.nodes).map (·.id) := by
  have hbare : ∀ s : Snapshot, (byPodCount s s.nodes).map (·.id) =
      (byPodCount s (s.nodes.map Node.bare)).map (·.id) := by
    intro s
    rw [byPodCount_bare, List.map_map]
    rfl
  rw [hbare, hbare, h.nodes, byPodCount_congr h]

theorem pickToCordon_congr (h : x.Alike y) (block : BlockSize) (surplus : Int) :
    pickToCordon block x surplus = pickToCordon block y surplus := by
  simp only [pickToCordon, h.capacityProxy?, List.map_take, ids_byPodCount_congr h]

theorem growthPlan_congr (h : x.Alike y) (block : BlockSize) (deficit : Int) :
    growthPlan block x deficit = growthPlan block y deficit := by
  have hlength : x.schedulable.length = y.schedulable.length := by
    simpa using congrArg List.length h.schedulable
  simp only [growthPlan, h.capacityProxy?, hlength]

theorem openIds_congr (h : x.Alike y) (picked : List String) :
    openIds x picked = openIds y picked := by
  have hbare : ∀ (s : Snapshot) (id : String),
      (s.node? id).any (·.cordoned) = ((s.node? id).map Node.bare).any (·.cordoned) := by
    intro s id
    rw [Option.any_map]
    rfl
  simp only [openIds, hbare, h.node?]

end Scaling

end Headroom
