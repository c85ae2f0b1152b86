import Headroom.Scaling.Procedure

/-!
Deleting cordoned nodes. A cordoned node goes when its grace period is over and it runs no
protected pod; other pods go with it. The nodes are given to the pool as one batch and then struck
off the cluster one by one.
-/

namespace Headroom.Scaling

open Cluster (Node Protection Snapshot)

/-- The longest wait, in nanoseconds; a longer grace period counts as this. -/
def longestWait : Nat := Word.greatest.toNat * 1000000

/-- The moment at which the grace period of a node cordoned at `t` is over, at most the last
moment of the calendar. -/
def expiry (grace : Duration) (t : Instant) : Instant :=
  (t.add? (min grace.nanoseconds longestWait)).getD .latest

/-- The cordoned nodes that may be deleted at `now`. A cordoned node whose time of cordoning cannot
be read is an error, whatever runs on it. -/
def doomed (grace : Duration) (s : Snapshot) (now : Instant) : Except Cluster.Error (List Node) :=
  go s.cordoned
where
  /-- The nodes of a list that may be deleted. -/
  go : List Node → Except Cluster.Error (List Node)
    | [] => .ok []
    | node :: rest => do
      let t ← node.cordonedAt
      let later ← go rest
      return if s.protectedOn node.id = 0 ∧ expiry grace t ≤ now then node :: later else later

/-- Deletes the nodes that may go, and returns their ids. -/
def reap (grace : Duration) (rule : Protection) (now : Instant) : Procedure (List String) := do
  let s ← Procedure.capture rule
  match doomed grace s now with
  | .error e => .fail (.ofCluster e)
  | .ok nodes =>
    let ids := nodes.map (·.id)
    if ids.isEmpty then return []
    Procedure.issueAll (.deleteNodes ids :: ids.map .deregister)
    return ids

end Headroom.Scaling
