import Headroom.Cluster.Snapshot
import Headroom.Scaling.Config
import Headroom.Time.Rfc3339.Printer

/-!
The state of the pool as a table of text, one line for each node, and its spare blocks. Columns are
as wide as the number of their characters. A fault in computing a line ends the text before it.
-/

namespace Headroom.Daemon

open Cluster (Node Snapshot)
open Scaling (Config)

/-- A text with blanks after it, up to a width. -/
def padRight (width : Nat) (text : String) : String :=
  .ofList (text.toList.rightpad width ' ')

/-- A text with blanks before it, up to a width. -/
def padLeft (width : Nat) (text : String) : String :=
  .ofList (text.toList.leftpad width ' ')

def row (name capacity inUse pods isProtected state : String) : String :=
  " ".intercalate [padRight 24 name, padLeft 9 capacity, padLeft 9 inUse, padLeft 5 pods,
    padLeft 9 isProtected, " " ++ state]

def heading : String := row "NODE" "CAPACITY" "IN-USE" "PODS" "PROTECTED" "STATE"

/-- Whether a node takes new work, and since when it does not. -/
def stateText (node : Node) : String :=
  if !node.cordoned then "schedulable"
  else match node.cordonedAt with
    | .ok t => "cordoned since " ++ Rfc3339.print .full t
    | .error e => "cordoned (" ++ e.message ++ ")"

def nodeRow (s : Snapshot) (node : Node) : Except Fault String := do
  return row node.id (toString node.capacity.toNat) (toString (← s.inUse node.id).toNat)
    (toString (s.podsOn node.id).length) (toString (s.protectedOn node.id)) (stateText node)

def summary (config : Config) (s : Snapshot) : Except Fault String := do
  return "available: " ++ toString (← s.availableBlocks config.block) ++ " blocks of " ++
    toString config.block.raw.toNat ++ "m, target buffer: " ++ toString config.target

/-- Lines up to the first that a fault keeps from being computed. -/
def linesUntilFault : List (Except Fault String) → List String × Option Fault
  | [] => ([], none)
  | .error fault :: _ => ([], some fault)
  | .ok line :: rest =>
    let (lines, fault) := linesUntilFault rest
    (line :: lines, fault)

/-- The lines of the table, and the fault that cut them off. -/
def statusLines (config : Config) (s : Snapshot) : List String × Option Fault :=
  linesUntilFault (.ok heading :: s.nodes.map (nodeRow s) ++ [.ok "", summary config s])

end Headroom.Daemon
