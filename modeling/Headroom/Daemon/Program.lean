import Headroom.Cluster.Fixture
import Headroom.Daemon.Account
import Headroom.Daemon.Arguments
import Headroom.Daemon.Error
import Headroom.Daemon.Status

/-!
The commands of the daemon, over whatever keeps its files and its store. A command that works on
the store makes it first, if its directory can be made.
-/

namespace Headroom.Daemon

open Cluster (Snapshot State Store)
open Scaling (Config Halt Report)

/-- The name of the file that holds the store of a directory. -/
def storeName : String := "cluster.redb"

/-- The path of the file that holds the store of a directory. -/
def storePath (dataDir : String) : String :=
  (if dataDir.toList.getLast? = some '/' then dataDir else dataDir ++ "/") ++ storeName

/-- What the commands need from their surroundings. -/
class Host (m : Type → Type) where
  /-- The content of a file, if it can be read. -/
  read : String → m (Option ByteArray)
  /-- The store in a directory; a new one is empty. -/
  openStore : String → m (Except Error Store)
  /-- Keeps a store in a directory. -/
  saveStore : String → Store → m Unit
  /-- The reading of the clock. -/
  now : m Instant

/-- How a command ends. -/
inductive Ending where
  | done
  | failed (error : Error)
  | fault (fault : Fault)

/-- What a command leaves behind: lines of output and its ending. -/
structure Answer where
  lines : List String
  ending : Ending

/-- The answer of a command that ended early, without output. -/
def Answer.failed (error : Error) : Answer := ⟨[], .failed error⟩

/-- What is needed to scale the cluster in a directory. -/
structure Setup where
  config : Config
  pool : Scaling.NodeShape
  store : Store

section

variable {m : Type → Type} [Monad m] [Host m]

/-- The settings in a file, or the defaults without one. -/
def loadSettings : Option String → ExceptT Error m Settings
  | none => return {}
  | some path => do ExceptT.mk (return Settings.ofFile path (← Host.read path))

def loadFixture (path : String) : ExceptT Error m State := do
  match (← Host.read (m := m) path).bind String.fromUTF8? with
  | none => throw (.readingFixture path)
  | some text =>
    match State.parse text with
    | .error _ => throw (.parsingFixture path)
    | .ok state => return state

def openStore (dataDir : String) : ExceptT Error m Store := ExceptT.mk (Host.openStore dataDir)

def configOf (settings : Settings) : ExceptT Error m Config :=
  ExceptT.mk (pure (settings.config.mapError .settings))

/-- Opens the store before it looks at the parameters. -/
def setUp (dataDir : String) (settings : Settings) : ExceptT Error m Setup := do
  let store ← openStore dataDir
  let config ← configOf settings
  return ⟨config, settings.pool, store⟩

/-- Replaces the state of the store in a directory by a fixture. -/
def replaceState (dataDir fixture : String) : ExceptT Error m Unit := do
  let state ← loadFixture fixture
  let _ ← openStore dataDir
  Host.saveStore (m := m) dataDir (.ofState state)

/-- The snapshot of the store in a directory, and the parameters it is judged by. The parameters
are looked at before the store. -/
def inspect (dataDir : String) (config : Option String) : ExceptT Error m (Config × Snapshot) := do
  let config ← configOf (← loadSettings config)
  let store ← openStore dataDir
  match Snapshot.ofState store.state config.protection with
  | .error e => throw (.cluster e)
  | .ok s => return (config, s)

/-- One reconciliation of the store in a directory. What it has done stays done when it fails. -/
def reconcile (dataDir : String) (setup : Setup) : m (Except Halt Report × Setup) := do
  let now ← Host.now
  let (result, store) := (Scaling.tick setup.config now).run setup.pool.backend setup.store
  Host.saveStore dataDir store
  return (result, { setup with store })

/-- What is needed to reconcile again and again, and the time between two reconciliations. -/
def start (dataDir : String) (config : Option String) : ExceptT Error m (Duration × Setup) := do
  let settings ← loadSettings config
  let period ← ExceptT.mk (pure (settings.period.mapError .settings))
  return (period, ← setUp dataDir settings)

def answerOf {α : Type} (answer : α → Answer) (command : ExceptT Error m α) : m Answer := do
  match ← command.run with
  | .ok a => return answer a
  | .error e => return .failed e

/-- Executes a command. Of the command that goes on forever this is its start. -/
def Command.execute : Command → m Answer
  | .seed dataDir fixture => answerOf (fun () => ⟨[], .done⟩) (replaceState dataDir fixture)
  | .status dataDir config =>
    answerOf (fun (config, s) =>
      let (lines, fault) := statusLines config s
      ⟨lines, match fault with
        | none => .done
        | some fault => .fault fault⟩) (inspect dataDir config)
  | .tick dataDir config =>
    answerOf (fun (result : Except Halt Report) =>
      match result with
      | .ok report => ⟨[report.toValue.pretty], .done⟩
      | .error (.failed e) => .failed (.scaling e)
      | .error (.fault fault) => ⟨[], .fault fault⟩) do
        let setup ← setUp dataDir (← loadSettings config)
        return (← reconcile (m := m) dataDir setup).1
  | .run dataDir config => answerOf (fun _ => ⟨[], .done⟩) (start dataDir config)

end

def Ending.code : Ending → Nat
  | .done => 0
  | .failed _ => 1
  | .fault _ => 101

/-- The exit code when the arguments are not used as they should be. -/
def usageCode : Nat := 2

end Headroom.Daemon
