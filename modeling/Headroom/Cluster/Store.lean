import Headroom.Cluster.Error
import Headroom.Cluster.Record
import Headroom.Time.Rfc3339.Printer

/-!
A cluster kept in two tables: nodes under their ids and pods under their keys. A node that is
cordoned carries the time of the first cordoning; what a schedulable node carries there is stale.
-/

namespace Headroom.Cluster

/-- The nodes and pods of a cluster. -/
structure Store where
  nodes : Table NodeRecord.id := ∅
  pods : Table PodRecord.key := ∅
  deriving DecidableEq

/-- The node with its flag set, and with the given time unless it was cordoned before. -/
def NodeRecord.cordon (node : NodeRecord) (at_ : Instant) : NodeRecord :=
  if node.unschedulable && node.annotations.contains cordonKey then node
  else { node with
    unschedulable := true
    annotations := node.annotations.put cordonKey (Rfc3339.print .stamp at_) }

/-- The node with its flag and its time of cordoning cleared. -/
def NodeRecord.uncordon (node : NodeRecord) : NodeRecord :=
  { node with unschedulable := false, annotations := node.annotations.erase cordonKey }

namespace Store

/-- The store that holds exactly a state's records; of records with one key the last stays. -/
def ofState (state : State) : Store := ⟨.ofList state.nodes, .ofList state.pods⟩

/-- The records in the order of their keys. -/
def state (store : Store) : State := ⟨store.nodes.rows, store.pods.rows⟩

/-- The node of an id. -/
def node? (store : Store) (id : String) : Option NodeRecord := store.nodes.find? id

/-- The store with a node under its id. -/
def putNode (store : Store) (node : NodeRecord) : Store :=
  { store with nodes := store.nodes.insert node }

/-- The store with a pod under its key. -/
def putPod (store : Store) (pod : PodRecord) : Store :=
  { store with pods := store.pods.insert pod }

/-- The store without the node of an id and without the pods bound to that id. -/
def dropNode (store : Store) (id : String) : Store :=
  { nodes := store.nodes.erase id, pods := store.pods.filter (·.nodeId != some id) }

/-- Drops a node and tells whether it was there. -/
def removeNode (store : Store) (id : String) : Bool × Store :=
  (store.nodes.contains id, store.dropNode id)

/-- Drops the pod of a key and tells whether it was there. -/
def removePod (store : Store) (key : String) : Bool × Store :=
  (store.pods.contains key, { store with pods := store.pods.erase key })

/-- Replaces the node of an id by its image under `f`. -/
def updateNode (store : Store) (id : String) (f : NodeRecord → NodeRecord) : Except Error Store :=
  match store.node? id with
  | some node => .ok (store.putNode (f node))
  | none => .error (.nodeNotFound id)

/-- Cordons a node at a time. -/
def cordon (store : Store) (id : String) (at_ : Instant) : Except Error Store :=
  store.updateNode id (·.cordon at_)

/-- Makes a node schedulable again. -/
def uncordon (store : Store) (id : String) : Except Error Store :=
  store.updateNode id NodeRecord.uncordon

end Store

end Headroom.Cluster
