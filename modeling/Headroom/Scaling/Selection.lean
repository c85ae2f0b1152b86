import Headroom.Scaling.Planner

/-!
Which nodes to uncordon and which to cordon. The most heavily loaded node is uncordoned first, the
node with the fewest pods is cordoned first, and equals go by id, so the choice depends on nothing
but the snapshot.
-/

namespace Headroom.Scaling

open Cluster (Node Snapshot)

/-- The nodes by falling use, then by id. With fewer than two nodes nothing is compared, so no use
is computed. -/
def byUse (s : Snapshot) (nodes : List Node) : Except Fault (List Node) :=
  if nodes.length < 2 then .ok nodes
  else do
    let keyed ← nodes.mapM fun node => do return ((← s.inUse node.id).toNat, node)
    let sorted := keyed.mergeSort fun (u, a) (v, b) => v < u || (u == v && a.id ≤ b.id)
    return sorted.map (·.2)

/-- The nodes by rising number of pods, then by id. -/
def byPodCount (s : Snapshot) (nodes : List Node) : List Node :=
  nodes.mergeSort fun a b =>
    let m := (s.podsOn a.id).length
    let n := (s.podsOn b.id).length
    m < n || (m == n && a.id ≤ b.id)

/-- A node to uncordon, and the capacity that this frees. -/
structure Candidate where
  nodeId : String
  freed : Int
  deriving DecidableEq

/-- Nodes to uncordon in their order, and whether they cover the deficit. -/
structure UncordonPlan where
  candidates : List Candidate
  satisfied : Bool
  deriving DecidableEq

/-- Draws a need down node by node, up to the node that covers it. -/
def drawDown (s : Snapshot) : List Node → Int → Except Fault UncordonPlan
  | [], _ => .ok ⟨[], false⟩
  | node :: rest, need => do
    let freed ← s.free node
    let need := Word.clamp (need - freed)
    if need ≤ 0 then return ⟨[⟨node.id, freed⟩], true⟩
    let plan ← drawDown s rest need
    return ⟨⟨node.id, freed⟩ :: plan.candidates, plan.satisfied⟩

/-- The cordoned nodes to uncordon for a deficit of blocks. -/
def pickToUncordon (block : BlockSize) (s : Snapshot) (deficit : Int) :
    Except Fault UncordonPlan :=
  if deficit ≤ 0 then .ok ⟨[], true⟩
  else do drawDown s (← byUse s s.cordoned) (unitsOf block deficit)

/-- The nodes to cordon for a surplus of blocks, already cordoned ones among them. -/
def pickToCordon (block : BlockSize) (s : Snapshot) (surplus : Int) :
    Except Fault (List String) :=
  match s.capacityProxy? with
  | none => .ok []
  | some capacity => do
    let count := (← nodesToCordon block surplus capacity).getD 0
    return ((byPodCount s s.nodes).take count.toNat).map (·.id)

end Headroom.Scaling
