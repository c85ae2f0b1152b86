import Headroom.Table

/-!
The records of a cluster: nodes that offer capacity, pods that request it, and the rule that says
which pods keep their node from deletion. Capacity is counted in thousandths of a processor.
-/

namespace Headroom.Cluster

/-- The annotation that holds the time at which a node was cordoned. -/
def cordonKey : String := "nodescale.io/cordoned-at"

/-- A machine that runs pods. Its capacity may not be known yet. -/
structure NodeRecord where
  id : String
  capacity : Option UInt64
  unschedulable : Bool := false
  annotations : Dictionary := ∅
  labels : Dictionary := ∅
  deriving DecidableEq

/-- A unit of work, bound to a node or waiting for one. -/
structure PodRecord where
  space : String
  name : String
  nodeId : Option String
  request : UInt64 := 0
  labels : Dictionary := ∅
  deriving DecidableEq

/-- The name under which a pod is kept. -/
def PodRecord.key (pod : PodRecord) : String := pod.space ++ "/" ++ pod.name

/-- Every node and every pod, in the order of a listing. -/
structure State where
  nodes : List NodeRecord := []
  pods : List PodRecord := []
  deriving DecidableEq

/-- A label that pods carry, with one value, while their node must not be deleted. -/
structure Protection where
  label : String := "sessions"
  value : String := "game"
  deriving DecidableEq

/-- The pod carries the rule's label with the rule's value. -/
def Protection.protects (rule : Protection) (pod : PodRecord) : Bool :=
  pod.labels.get? rule.label == some rule.value

end Headroom.Cluster
