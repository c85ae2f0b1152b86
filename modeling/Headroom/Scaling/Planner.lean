import Headroom.Cluster.Snapshot

/-!
From blocks to nodes. Growing rounds up and shrinking rounds down, so the pool is never too small
and no more is cordoned than the surplus allows. One node's capacity stands for every node's.
-/

namespace Headroom.Scaling

open Cluster (Snapshot)

/-- Blocks as raw capacity, held to the signed word. -/
def unitsOf (block : BlockSize) (blocks : Int) : Int := Word.clamp (blocks * block.signed)

/-- The capacity of a node as a divisor: positive and a signed word. -/
def divisor? (capacity : UInt64) : Option Int :=
  if 0 < capacity.toNat ∧ (capacity.toNat : Int) ≤ Word.greatest then some capacity.toNat else none

/-- The nodes that hold a deficit, rounded up; none is known for a capacity that cannot divide. -/
def nodesToAdd (block : BlockSize) (deficit : Int) (capacity : UInt64) :
    Except Fault (Option Int) :=
  match divisor? capacity with
  | none => .ok none
  | some c =>
    let units := unitsOf block deficit
    if 0 < units then do
      return some (← Word.add (← Word.quot (← Word.sub units 1) c) 1)
    else do
      return some (← Word.quot units c)

/-- The nodes that a surplus holds, rounded down. -/
def nodesToCordon (block : BlockSize) (surplus : Int) (capacity : UInt64) :
    Except Fault (Option Int) :=
  match divisor? capacity with
  | none => .ok none
  | some c => do return some (← Word.div (unitsOf block surplus) c)

/-- A change of the pool's size: the schedulable nodes it starts from and how many to add. -/
structure GrowthPlan where
  current : Nat
  add : Int
  deriving DecidableEq

namespace GrowthPlan

/-- The size to ask for, held to the unsigned word. -/
def targetSize (plan : GrowthPlan) : Nat := min (plan.current + plan.add).toNat (UInt64.size - 1)

/-- There is nothing to add. -/
def isNoop (plan : GrowthPlan) : Bool := plan.add ≤ 0

end GrowthPlan

/-- The change of size that covers a deficit, if a node gives the capacity to plan with. -/
def growthPlan (block : BlockSize) (s : Snapshot) (deficit : Int) :
    Except Fault (Option GrowthPlan) :=
  match s.capacityProxy? with
  | none => .ok none
  | some capacity => do
    return (← nodesToAdd block deficit capacity).map fun add => ⟨s.schedulable.length, add⟩

end Headroom.Scaling
