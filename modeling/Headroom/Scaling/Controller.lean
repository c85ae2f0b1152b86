import Headroom.Scaling.Config
import Headroom.Scaling.Reaper
import Headroom.Scaling.Selection

/-!
One reconciliation of the pool. The spare blocks on schedulable nodes are compared with the target;
a deficit uncordons nodes and grows the pool by what is still missing, a surplus cordons nodes.
Every reconciliation ends by deleting the cordoned nodes whose grace period is over.
-/

namespace Headroom.Scaling

open Cluster (Snapshot)

/-- What the comparison led to. -/
inductive Outcome where
  | grown (uncordoned : List String) (added : Nat)
  | shrunk (cordoned : List String)
  | unchanged
  deriving DecidableEq

/-- The account of a complete reconciliation: the spare blocks at its start, the target, what was
done about the difference, and the nodes deleted. -/
structure Report where
  available : Int
  target : Nat
  outcome : Outcome
  deleted : List String
  deriving DecidableEq

/-- The blocks by which a number of spare blocks misses the target. -/
def Config.deficit (config : Config) (available : Int) : Int :=
  Word.clamp (config.target - available)

/-- Grows the pool by what a fresh snapshot still misses, and returns the nodes asked for. -/
def enlarge (config : Config) : Procedure Nat := do
  let s ← Procedure.capture config.protection
  let available ← Procedure.compute (s.availableBlocks config.block)
  match ← Procedure.compute (growthPlan config.block s (config.deficit available)) with
  | none => return 0
  | some plan =>
    if plan.isNoop then return 0
    Procedure.issueAll [.increaseToSize plan.targetSize]
    return plan.add.toNat

/-- Covers a deficit: uncordons, and enlarges the pool only if that was not enough. -/
def grow (config : Config) (s : Snapshot) (deficit : Int) : Procedure Outcome := do
  let plan ← Procedure.compute (pickToUncordon config.block s deficit)
  let ids := plan.candidates.map (·.nodeId)
  Procedure.issueAll (ids.map .uncordon)
  if plan.satisfied then return .grown ids 0
  let added ← enlarge config
  return if ids.isEmpty && added == 0 then .unchanged else .grown ids added

/-- Sheds a surplus: cordons the nodes picked that are not cordoned already. -/
def shrink (config : Config) (now : Instant) (s : Snapshot) (surplus : Int) :
    Procedure Outcome := do
  let picked ← Procedure.compute (pickToCordon config.block s surplus)
  let ids := picked.filter fun id => !(s.node? id).any (·.cordoned)
  Procedure.issueAll (ids.map (.cordon · now))
  return if ids.isEmpty then .unchanged else .shrunk ids

/-- Moves the spare blocks toward the target. -/
def scale (config : Config) (now : Instant) (s : Snapshot) (available : Int) :
    Procedure Outcome :=
  if available < config.target then grow config s (config.deficit available)
  else if config.target < available then do
    shrink config now s (← Procedure.compute (Word.sub available config.target))
  else return .unchanged

/-- The first part of a reconciliation: compares a snapshot's spare blocks with the target, and
moves them toward it. -/
def adjust (config : Config) (now : Instant) : Procedure (Int × Outcome) := do
  let s ← Procedure.capture config.protection
  let available ← Procedure.compute (s.availableBlocks config.block)
  return (available, ← scale config now s available)

/-- One reconciliation. The clock is read where nodes are cordoned, and once more where nodes are
deleted. -/
def tick (config : Config) (now : Instant) (later : Instant := now) : Procedure Report := do
  let (available, outcome) ← adjust config now
  let deleted ← reap config.grace config.protection later
  return ⟨available, config.target, outcome, deleted⟩

end Headroom.Scaling
