/-!
What can go wrong while a cluster is read or changed.
-/

namespace Headroom.Cluster

/-- A failed request to a cluster. -/
inductive Error where
  | opening (detail : String)
  | transaction (detail : String)
  | table (detail : String)
  | reading (detail : String)
  | writing (detail : String)
  | serializing (detail : String)
  | deserializing (detail : String)
  | nodeNotFound (node : String)
  | missingCapacity (node : String)
  | malformedNodeState (node reason : String)
  deriving DecidableEq

def Error.message : Error → String
  | .opening detail => "failed to open cluster store: " ++ detail
  | .transaction detail => "transaction error: " ++ detail
  | .table detail => "table error: " ++ detail
  | .reading detail => "read error: " ++ detail
  | .writing detail => "write error: " ++ detail
  | .serializing detail => "serialization error: " ++ detail
  | .deserializing detail => "deserialization error: " ++ detail
  | .nodeNotFound node => "node not found: " ++ node
  | .missingCapacity node => "node " ++ node ++ " has no capacity data"
  | .malformedNodeState node reason => "malformed state on node " ++ node ++ ": " ++ reason

end Headroom.Cluster
