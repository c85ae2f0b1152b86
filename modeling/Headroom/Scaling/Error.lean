import Headroom.Cluster.Error

/-!
What ends a reconciliation before it is complete.
-/

namespace Headroom.Scaling

/-- A kind of change that a reconciliation asks for. -/
inductive Operation where
  | cordon
  | uncordon
  | increasePool
  | deleteNodes
  | deregister
  deriving DecidableEq

def Operation.name : Operation → String
  | .cordon => "cordon"
  | .uncordon => "uncordon"
  | .increasePool => "increase pool"
  | .deleteNodes => "delete nodes"
  | .deregister => "deregister node"

/-- Why a change was refused: an error of the cluster, or reasons of the pool, the outermost
first. -/
inductive Refusal where
  | cluster (error : Cluster.Error)
  | pool (reason : String) (causes : List String)
  deriving DecidableEq

namespace Refusal

def reasons : Refusal → List String
  | .cluster error => [error.message]
  | .pool reason causes => reason :: causes

def message : Refusal → String
  | .cluster error => error.message
  | .pool reason _ => reason

end Refusal

/-- An error of a reconciliation or of its parameters. -/
inductive Error where
  | sourceUnavailable (cause : Cluster.Error)
  | backendRequestFailed (operation : Operation) (target : String) (cause : Refusal)
  | malformedNodeState (node reason : String)
  | invalidConfig (reason : String)
  deriving DecidableEq

namespace Error

def message : Error → String
  | .sourceUnavailable cause => "cluster state unavailable: " ++ cause.message
  | .backendRequestFailed operation target cause =>
    operation.name ++ " failed for " ++ target ++ ": " ++ cause.message
  | .malformedNodeState node reason => (Cluster.Error.malformedNodeState node reason).message
  | .invalidConfig reason => "invalid scaling config: " ++ reason

/-- The error of a reconciliation that met an error of the cluster. Only the malformed state of a
node keeps its kind. -/
def ofCluster : Cluster.Error → Error
  | .malformedNodeState node reason => .malformedNodeState node reason
  | cause => .sourceUnavailable cause

end Error

end Headroom.Scaling
