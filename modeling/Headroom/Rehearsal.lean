import Headroom.Scaling.Controller
import Headroom.Scaling.Provision

/-!
Rehearsing the scaling of a cluster. A rehearsal holds a store, a clock that moves only when told
to, and faults to be met; it goes step by step, and notes each request before it is answered.
-/

namespace Headroom.Rehearsal

open Cluster (NodeRecord PodRecord Snapshot State Store)
open Scaling (Backend Command Config Halt Procedure Refusal Report)

/-- A request that was made. -/
inductive Call where
  | fetch
  | command (command : Command)
  deriving DecidableEq

/-- A fault that requests to the cluster meet: the error, the nodes it is confined to, and how many
matching requests still pass. -/
structure Trap where
  error : Cluster.Error
  ids : Option (List String) := none
  skip : Nat := 0
  deriving DecidableEq

/-- The faults to be met, and the nodes that vanish after the next successful fetch. -/
structure Traps where
  fetch : Option Trap := none
  cordon : Option Trap := none
  uncordon : Option Trap := none
  deregister : Option Trap := none
  increase : Option Refusal := none
  deleteNodes : Option Refusal := none
  vanish : List String := []
  deriving DecidableEq

/-- The state of a rehearsal. The log holds the latest call first. -/
structure World where
  store : Store
  now : Instant
  traps : Traps := {}
  log : List Call := []

/-- Whether a request is caught, and what is left of the trap. -/
def Trap.meet (trap : Trap) (id : Option String) : Option Cluster.Error × Trap :=
  if trap.ids.all fun ids => id.any (ids.contains ·) then
    if trap.skip = 0 then (some trap.error, trap) else (none, { trap with skip := trap.skip - 1 })
  else (none, trap)

/-- What a request meets where there may be no trap. -/
def meet (trap : Option Trap) (id : Option String) : Option Cluster.Error × Option Trap :=
  match trap with
  | none => (none, none)
  | some trap => let (error, trap) := trap.meet id; (error, some trap)

/-- What a command meets, and the traps that are left. -/
def Traps.meetCommand (traps : Traps) : Command → Option Refusal × Traps
  | .uncordon id =>
    let (error, trap) := meet traps.uncordon id
    (error.map .cluster, { traps with uncordon := trap })
  | .cordon id _ =>
    let (error, trap) := meet traps.cordon id
    (error.map .cluster, { traps with cordon := trap })
  | .deregister id =>
    let (error, trap) := meet traps.deregister id
    (error.map .cluster, { traps with deregister := trap })
  | .increaseToSize _ => (traps.increase, traps)
  | .deleteNodes _ => (traps.deleteNodes, traps)

/-- A backend whose requests are noted and may be trapped before they reach the store. -/
def backend (inner : Backend Store) : Backend World where
  fetch world :=
    let world := { world with log := .fetch :: world.log }
    let (error, trap) := meet world.traps.fetch none
    let world := { world with traps := { world.traps with fetch := trap } }
    match error with
    | some error => (.error error, world)
    | none =>
      let (state, store) := inner.fetch world.store
      let store := world.traps.vanish.foldl Store.dropNode store
      (state, { world with store, traps := { world.traps with vanish := [] } })
  execute command world :=
    let world := { world with log := .command command :: world.log }
    let (refusal, traps) := world.traps.meetCommand command
    let world := { world with traps }
    match refusal with
    | some refusal => (.error refusal, world)
    | none =>
      let (result, store) := inner.execute command world.store
      (result, { world with store })

/-- A step of a rehearsal. -/
inductive Step where
  | tick
  | run (interval stop : Nat)
  | reap
  | available
  | advance (milliseconds : Int)
  | setClock (time : Instant)
  | setTraps (traps : Traps)
  | increaseToSize (size : Nat)
  | loadState (state : State)
  | putNode (node : NodeRecord)
  | putPod (pod : PodRecord)
  | getNode (id : String)
  | listNodes
  | removeNode (id : String)
  | removePod (key : String)
  | cordon (id : String) (at_ : Instant)
  | uncordon (id : String)

/-- What a step answers. -/
inductive Answer where
  | done
  | stopped
  | report (report : Report)
  | ids (ids : List String)
  | number (n : Int)
  | time (t : Instant)
  | node (node : Option NodeRecord)
  | found (yes : Bool)
  | halted (halt : Halt)
  | clusterError (error : Cluster.Error)
  | refused (refusal : Refusal)

def Answer.ofResult {α : Type} (answer : α → Answer) : Except Halt α → Answer
  | .ok a => answer a
  | .error halt => .halted halt

/-- How many whole multiples of an interval lie before the end of a run. -/
def ticksBefore (interval stop : Nat) : Nat := (stop - 1) / interval

/-- So many ticks at one reading of the clock. An error of a tick is passed over; a fault ends the
run. -/
def runTicks (backend : Backend World) (config : Config) : Nat → World → Answer × World
  | 0, world => (.stopped, world)
  | ticks + 1, world =>
    match (Scaling.tick config world.now).run backend world with
    | (.error (.fault fault), world) => (.halted (.fault fault), world)
    | (_, world) => runTicks backend config ticks world

/-- The spare blocks of the cluster as one fetch shows it. -/
def available (backend : Backend World) (config : Config) (world : World) : Answer × World :=
  let (state, world) := backend.fetch world
  let answer : Answer :=
    match state.bind (Snapshot.ofState · config.protection) with
    | .error e => .clusterError e
    | .ok s =>
      match s.availableBlocks config.block with
      | .ok blocks => .number blocks
      | .error fault => .halted (.fault fault)
  (answer, world)

def change (world : World) : Except Cluster.Error Store → Answer × World
  | .ok store => (.done, { world with store })
  | .error e => (.clusterError e, world)

def perform (backend : Backend World) (config : Config) : Step → World → Answer × World
  | .tick, world =>
    let (result, world) := (Scaling.tick config world.now).run backend world
    (.ofResult .report result, world)
  | .run interval stop, world => runTicks backend config (ticksBefore interval stop) world
  | .reap, world =>
    let (result, world) :=
      (Scaling.reap config.grace config.protection world.now).run backend world
    (.ofResult .ids result, world)
  | .available, world => available backend config world
  | .advance milliseconds, world =>
    match world.now.add? (milliseconds * 1000000) with
    | some now => (.time now, { world with now })
    | none => (.halted (.fault .calendar), world)
  | .setClock now, world => (.time now, { world with now })
  | .setTraps traps, world => (.done, { world with traps })
  | .increaseToSize size, world =>
    match backend.execute (.increaseToSize size) world with
    | (.ok (), world) => (.done, world)
    | (.error refusal, world) => (.refused refusal, world)
  | .loadState state, world => (.done, { world with store := .ofState state })
  | .putNode node, world => (.done, { world with store := world.store.putNode node })
  | .putPod pod, world => (.done, { world with store := world.store.putPod pod })
  | .getNode id, world => (.node (world.store.node? id), world)
  | .listNodes, world => (.ids (world.store.nodes.rows.map (·.id)), world)
  | .removeNode id, world =>
    let (found, store) := world.store.removeNode id
    (.found found, { world with store })
  | .removePod key, world =>
    let (found, store) := world.store.removePod key
    (.found found, { world with store })
  | .cordon id t, world => change world (world.store.cordon id t)
  | .uncordon id, world => change world (world.store.uncordon id)

/-- What a step showed: its answer, the requests it made in their order, and the records of the
store if they are not those shown last. -/
structure Scene where
  answer : Answer
  calls : List Call
  state : Option State

def performAll (backend : Backend World) (config : Config) : List Step → World → List Scene
  | [], _ => []
  | step :: rest, world =>
    let (answer, after) := perform backend config step { world with log := [] }
    let state := if after.store = world.store then none else some after.store.state
    ⟨answer, after.log.reverse, state⟩ :: performAll backend config rest after

end Headroom.Rehearsal
