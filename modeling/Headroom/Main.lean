import Headroom.Daemon.Program
import Std.Time.DateTime.Timestamp

/-!
The daemon on the command line. The store of a directory is kept in a file, as the JSON of its
state.
-/

namespace Headroom.Daemon

def attempt {α : Type} (action : IO α) : IO (Option α) := do
  match ← action.toBaseIO with
  | .ok a => return some a
  | .error _ => return none

/-- Reads the store in a file; without a file, or in an empty one, it is empty. -/
def readStore (path : String) : IO (Except Error Cluster.Store) := do
  match ← (IO.FS.readFile path).toBaseIO with
  | .error (.noFileOrDirectory _ _ _) => return .ok {}
  | .error e => return .error (.cluster (.opening (toString e)))
  | .ok text =>
    if text.isEmpty then return .ok {}
    match Cluster.State.parse text with
    | .ok state => return .ok (.ofState state)
    | .error _ => return .error (.cluster (.opening path))

instance : Host IO where
  read path := attempt (IO.FS.readBinFile path)
  openStore dataDir := do
    match ← attempt (IO.FS.createDirAll dataDir) with
    | none => return .error (.creatingDataDir dataDir)
    | some () => readStore (storePath dataDir)
  saveStore dataDir store := IO.FS.writeFile (storePath dataDir) store.state.toValue.compact
  now := do
    let t ← Std.Time.Timestamp.now
    let nanos : Int := t.toNanosecondsSinceUnixEpoch.toInt
    return (Instant.ofUnix? (nanos / 1000000000) (nanos % 1000000000).toNat).getD .latest

def longestSleep : Nat := 86400000

partial def wait (milliseconds : Nat) : IO Unit := do
  IO.sleep (UInt32.ofNat (min milliseconds longestSleep))
  if longestSleep < milliseconds then wait (milliseconds - longestSleep)

/-- Reconciles again and again. A failed reconciliation is passed over; a fault ends the program. -/
partial def reconcileForever (dataDir : String) (period : Duration) (setup : Setup) :
    IO Fault := do
  wait (period.nanoseconds / 1000000)
  match ← reconcile dataDir setup with
  | (.error (.fault fault), _) => return fault
  | (_, setup) => reconcileForever dataDir period setup

def deliver (answer : Answer) : IO UInt32 := do
  answer.lines.forM IO.println
  match answer.ending with
  | .done => pure ()
  | .failed error => IO.eprintln error.line
  | .fault fault => IO.eprintln fault.message
  return UInt32.ofNat answer.ending.code

/-- Executes what the arguments of the command line ask for. -/
def executeArguments (arguments : List String) : IO UInt32 := do
  match Command.ofArguments? arguments with
  | none =>
    IO.eprintln "usage: headroom [--log-json] seed|status|tick|run [OPTIONS]"
    return UInt32.ofNat usageCode
  | some (.run dataDir config) =>
    match ← ExceptT.run (m := IO) (start dataDir config) with
    | .error error => deliver (.failed error)
    | .ok (period, setup) => deliver ⟨[], .fault (← reconcileForever dataDir period setup)⟩
  | some command => deliver (← command.execute)

end Headroom.Daemon

def main (arguments : List String) : IO UInt32 := Headroom.Daemon.executeArguments arguments
