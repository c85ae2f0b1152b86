import Headroom.Cluster.Snapshot
import Headroom.Scaling.Error

/-!
A reconciliation as a value: a tree that asks for the state of the cluster, issues commands, and
ends. A request that fails ends it on the spot, so whatever was done before stays done and nothing
more is asked for. A `Backend` answers the requests.
-/

namespace Headroom.Scaling

open Cluster (Protection Snapshot State)

/-- A change that a reconciliation asks for. -/
inductive Command where
  | uncordon (id : String)
  | cordon (id : String) (at_ : Instant)
  | increaseToSize (size : Nat)
  | deleteNodes (ids : List String)
  | deregister (id : String)
  deriving DecidableEq

namespace Command

/-- The kind of the change. -/
def operation : Command → Operation
  | .uncordon _ => .uncordon
  | .cordon _ _ => .cordon
  | .increaseToSize _ => .increasePool
  | .deleteNodes _ => .deleteNodes
  | .deregister _ => .deregister

/-- What the change is aimed at. -/
def target : Command → String
  | .uncordon id | .cordon id _ | .deregister id => id
  | .increaseToSize size => toString size
  | .deleteNodes ids => ",".intercalate ids

/-- The error of a reconciliation whose command was refused. -/
def refused (command : Command) (cause : Refusal) : Error :=
  .backendRequestFailed command.operation command.target cause

end Command

/-- What ends a reconciliation early: an error, or a fault of its arithmetic. -/
inductive Halt where
  | failed (error : Error)
  | fault (fault : Fault)
  deriving DecidableEq

/-- A course of requests with a result. -/
inductive Procedure (α : Type) where
  | finish (result : Except Halt α)
  | fetch (next : State → Procedure α)
  | issue (command : Command) (next : Procedure α)

namespace Procedure

variable {α β σ : Type}

/-- Goes on with `f` where the procedure ends with a result. -/
def bind (f : α → Procedure β) : Procedure α → Procedure β
  | .finish (.ok a) => f a
  | .finish (.error halt) => .finish (.error halt)
  | .fetch next => .fetch fun state => bind f (next state)
  | .issue command next => .issue command (bind f next)

instance : Monad Procedure where
  pure a := .finish (.ok a)
  bind p f := bind f p

/-- Ends with an error. -/
def fail (error : Error) : Procedure α := .finish (.error (.failed error))

/-- A computed value; a fault ends the procedure. -/
def compute (value : Except Fault α) : Procedure α := .finish (value.mapError .fault)

/-- Issues commands in their order. -/
def issueAll : List Command → Procedure Unit
  | [] => .finish (.ok ())
  | command :: rest => .issue command (issueAll rest)

/-- A snapshot of the cluster as it is now. -/
def capture (rule : Protection) : Procedure Snapshot :=
  .fetch fun state =>
    match Snapshot.ofState state rule with
    | .ok s => .finish (.ok s)
    | .error e => fail (.sourceUnavailable e)

end Procedure

/-- Answers to the requests of a procedure, each with the state it leaves behind. -/
structure Backend (σ : Type) where
  fetch : σ → Except Cluster.Error State × σ
  execute : Command → σ → Except Refusal Unit × σ

/-- Follows a procedure with the answers of a backend. -/
def Procedure.run {α σ : Type} (backend : Backend σ) : Procedure α → σ → Except Halt α × σ
  | .finish result, world => (result, world)
  | .fetch next, world =>
    match backend.fetch world with
    | (.ok state, world) => (next state).run backend world
    | (.error e, world) => (.error (.failed (.sourceUnavailable e)), world)
  | .issue command next, world =>
    match backend.execute command world with
    | (.ok (), world) => next.run backend world
    | (.error cause, world) => (.error (.failed (command.refused cause)), world)

end Headroom.Scaling
