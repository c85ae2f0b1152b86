import Headroom.Block
import Headroom.Cluster.Error
import Headroom.Cluster.Record
import Headroom.Text.Quoted
import Headroom.Time.Rfc3339.Parser

/-!
The cluster as one listing showed it. Every node has a capacity, the nodes stand in the order of
their ids, and of the pods only those are kept that are bound to one of the nodes.
-/

namespace Headroom.Cluster

/-- A node of known capacity. Its time of cordoning is kept as it was written, and only while the
node is cordoned. -/
structure Node where
  id : String
  capacity : UInt64
  cordoned : Bool
  stamp : Option String
  deriving DecidableEq

/-- A pod bound to a node. -/
structure Pod where
  id : String
  nodeId : String
  request : UInt64
  isProtected : Bool
  deriving DecidableEq

/-- The nodes and their pods. -/
structure Snapshot where
  nodes : List Node
  pods : List Pod
  deriving DecidableEq

/-- The node of a record, which must state a capacity. -/
def Node.ofRecord (record : NodeRecord) : Except Error Node :=
  match record.capacity with
  | none => .error (.missingCapacity record.id)
  | some capacity => .ok {
      id := record.id
      capacity
      cordoned := record.unschedulable
      stamp := if record.unschedulable then record.annotations.get? cordonKey else none }

/-- The moment at which the node was cordoned. -/
def Node.cordonedAt (node : Node) : Except Error Instant :=
  if !node.cordoned then .error (.malformedNodeState node.id "node is not cordoned")
  else match node.stamp with
    | none => .error (.malformedNodeState node.id ("missing " ++ cordonKey ++ " annotation"))
    | some stamp =>
      match Rfc3339.parse stamp with
      | .ok t => .ok t
      | .error e => .error (.malformedNodeState node.id
          ("unparseable cordon timestamp " ++ Text.quoted stamp ++ ": " ++ e.message))

/-- The pod of a record, if it is bound to one of the nodes. -/
def Pod.ofRecord? (rule : Protection) (nodes : List Node) (record : PodRecord) : Option Pod :=
  match record.nodeId with
  | some nodeId =>
    if nodes.any (·.id == nodeId) then
      some ⟨record.key, nodeId, record.request, rule.protects record⟩
    else none
  | none => none

namespace Snapshot

/-- The snapshot of a listing. The first node without a capacity, in the order of the listing, is
an error. -/
def ofState (state : State) (rule : Protection) : Except Error Snapshot := do
  let nodes ← state.nodes.mapM Node.ofRecord
  let nodes := nodes.mergeSort fun a b => a.id ≤ b.id
  return ⟨nodes, state.pods.filterMap (Pod.ofRecord? rule nodes)⟩

/-- The first node of an id. -/
def node? (s : Snapshot) (id : String) : Option Node := s.nodes.find? (·.id == id)

/-- The nodes barred to new work. -/
def cordoned (s : Snapshot) : List Node := s.nodes.filter (·.cordoned)

/-- The nodes open to new work. -/
def schedulable (s : Snapshot) : List Node := s.nodes.filter (!·.cordoned)

/-- The pods bound to a node's id, in the order of the listing. -/
def podsOn (s : Snapshot) (id : String) : List Pod := s.pods.filter (·.nodeId == id)

/-- How many pods of a node the rule protects. -/
def protectedOn (s : Snapshot) (id : String) : Nat := (s.podsOn id).countP (·.isProtected)

/-- The capacity requested on a node. -/
def inUse (s : Snapshot) (id : String) : Except Fault UInt64 :=
  Word.total ((s.podsOn id).map (·.request))

/-- The capacity of a node less what is requested on it; negative when the node is
overcommitted. -/
def free (s : Snapshot) (node : Node) : Except Fault Int := do
  Word.sub (Word.signed node.capacity) (Word.signed (← s.inUse node.id))

/-- The free capacity of the schedulable nodes, added in their order. -/
def availableCapacity (s : Snapshot) : Except Fault Int :=
  s.schedulable.foldlM (fun sum node => do Word.add sum (← s.free node)) 0

/-- The whole blocks in the available capacity, rounded down. -/
def availableBlocks (s : Snapshot) (block : BlockSize) : Except Fault Int := do
  Word.div (← s.availableCapacity) block.signed

/-- The capacity of the first node, which stands for all of the pool. -/
def capacityProxy? (s : Snapshot) : Option UInt64 := s.nodes.head?.map (·.capacity)

end Snapshot

end Headroom.Cluster
