import Headroom.Cluster.Store
import Headroom.Scaling.Procedure

/-!
A node pool that is kept in the store itself: growing it writes new nodes, deleting drops them. New
nodes are numbered, and a number whose name is taken is passed over.
-/

namespace Headroom.Scaling

open Cluster (NodeRecord Store)

/-- What the nodes that the pool adds look like. -/
structure NodeShape where
  capacity : UInt64 := 1000
  stem : String := "node"
  deriving DecidableEq

/-- The name of the node of a number. -/
def NodeShape.name (shape : NodeShape) (n : Nat) : String := shape.stem ++ "-" ++ toString n

/-- A schedulable node of the shape, without annotations or labels. -/
def NodeShape.node (shape : NodeShape) (n : Nat) : NodeRecord :=
  { id := shape.name n, capacity := some shape.capacity }

/-- The first number from `n` on that is not taken, if it is found within so many steps. -/
def firstFree (taken : Nat → Bool) : Nat → Nat → Nat
  | 0, n => n
  | steps + 1, n => if taken n then firstFree taken steps (n + 1) else n

/-- The first number from `n` on whose name no node has. There are no more taken names than
nodes, so the search is over after as many steps. -/
def NodeShape.freeNumber (shape : NodeShape) (store : Store) (n : Nat) : Nat :=
  firstFree (fun n => store.nodes.contains (shape.name n)) store.nodes.size n

/-- Adds so many nodes, numbered from `n` on. -/
def NodeShape.addNodes (shape : NodeShape) : Nat → Nat → Store → Store
  | 0, _, store => store
  | count + 1, n, store =>
    let free := shape.freeNumber store n
    shape.addNodes count (free + 1) (store.putNode (shape.node free))

/-- Grows the pool to a number of nodes, numbered from the present number on. A size that is not
larger changes nothing. -/
def NodeShape.increaseToSize (shape : NodeShape) (size : Nat) (store : Store) : Store :=
  shape.addNodes (size - store.nodes.size) store.nodes.size store

/-- The outcome of a change of the store. -/
def changed (store : Store) : Except Cluster.Error Store → Except Refusal Unit × Store
  | .ok store => (.ok (), store)
  | .error e => (.error (.cluster e), store)

/-- The store answers for the cluster. Who answers for the pool decides what happens to the
commands that are the pool's. -/
def clusterBackend (pool : Command → Store → Store) : Backend Store where
  fetch store := (.ok store.state, store)
  execute
    | .uncordon id, store => changed store (store.uncordon id)
    | .cordon id t, store => changed store (store.cordon id t)
    | .deregister id, store => (.ok (), store.dropNode id)
    | command, store => (.ok (), pool command store)

/-- A pool of nodes kept in the store. -/
def NodeShape.pool (shape : NodeShape) : Command → Store → Store
  | .increaseToSize size, store => shape.increaseToSize size store
  | .deleteNodes ids, store => ids.foldl Store.dropNode store
  | _, store => store

/-- A pool that takes note of its commands and does nothing. -/
def idlePool : Command → Store → Store := fun _ store => store

/-- The store answers for the cluster and for its pool of nodes. -/
def NodeShape.backend (shape : NodeShape) : Backend Store := clusterBackend shape.pool

end Headroom.Scaling
