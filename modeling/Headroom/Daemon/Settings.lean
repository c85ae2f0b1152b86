import Headroom.Scaling.Config
import Headroom.Scaling.Provision
import Headroom.Time.DurationText
import Headroom.Toml.Document

/-!
The settings of the daemon. What a settings file does not mention keeps its default. A section is a
table, or the array of its values in order.
-/

namespace Headroom.Daemon

open Cluster (Protection)
open Scaling (Config NodeShape)
open Toml (Members Node)

/-- The settings; durations are kept as they were written. -/
structure Settings where
  blockSize : UInt64 := 100
  targetBuffer : Int64 := 5
  gracePeriod : String := "10m"
  protection : Protection := {}
  interval : String := "30s"
  pool : NodeShape := {}
  deriving DecidableEq

/-- Why settings cannot be used. -/
inductive SettingsError where
  | gracePeriod (cause : Duration.ParseError)
  | interval (cause : Duration.ParseError)
  | zeroInterval
  | scaling (cause : Scaling.Error)
  deriving DecidableEq

namespace SettingsError

def message : SettingsError → String
  | .gracePeriod _ => "scaling.grace_period"
  | .interval _ => "daemon.interval"
  | .zeroInterval => "daemon.interval must be positive"
  | .scaling cause => cause.message

def reasons (error : SettingsError) : List String :=
  error.message :: match error with
    | .gracePeriod cause | .interval cause => cause.reasons
    | .zeroInterval | .scaling _ => []

end SettingsError

namespace Settings

def config (settings : Settings) : Except SettingsError Config := do
  let grace ← (Duration.parse settings.gracePeriod).mapError .gracePeriod
  (Config.make settings.blockSize settings.targetBuffer grace settings.protection).mapError .scaling

def period (settings : Settings) : Except SettingsError Duration := do
  let period ← (Duration.parse settings.interval).mapError .interval
  if period.nanoseconds = 0 then throw .zeroInterval
  return period

def string? : Node → Option String
  | .string s => some s
  | _ => none

def word? : Node → Option UInt64
  | .integer n => if 0 ≤ n then some (.ofNat n.toNat) else none
  | _ => none

def signedWord? : Node → Option Int64
  | .integer n => some (.ofInt n)
  | _ => none

/-- The value of a section that is found by a name, or by a place. -/
abbrev Section := String → Nat → Option Node

/-- The values of a section. A date or a time has none. -/
def section? : Node → Option Section
  | .table _ members => some fun name _ => members.lookup name
  | .array items => some fun _ place => items[place]?
  | .tables latest earlier =>
    some fun _ place => ((latest :: earlier).reverse[place]?).map (.table .header)
  | .moment => some fun _ _ => none
  | _ => none

/-- A value that is read if it is there. -/
def orDefault {α : Type} (read : Node → Option α) (default : α) : Option Node → Option α
  | some node => read node
  | none => some default

def sectionOf? (members : Members) (name : String) : Option Section :=
  match members.lookup name with
  | some node => section? node
  | none => some fun _ _ => none

def ofMembers? (members : Members) : Option Settings := do
  let scaling ← sectionOf? members "scaling"
  let protection ← sectionOf? members "protection"
  let daemon ← sectionOf? members "daemon"
  let pool ← sectionOf? members "pool"
  let default : Settings := {}
  return {
    blockSize := ← orDefault word? default.blockSize (scaling "block_size" 0)
    targetBuffer := ← orDefault signedWord? default.targetBuffer (scaling "target_buffer" 1)
    gracePeriod := ← orDefault string? default.gracePeriod (scaling "grace_period" 2)
    protection := {
      label := ← orDefault string? default.protection.label (protection "label" 0)
      value := ← orDefault string? default.protection.value (protection "value" 1) }
    interval := ← orDefault string? default.interval (daemon "interval" 0)
    pool := {
      capacity := ← orDefault word? default.pool.capacity (pool "node_capacity" 0)
      stem := ← orDefault string? default.pool.stem (pool "name_prefix" 1) } }

def parse? (text : String) : Option Settings := do ofMembers? (← Toml.parse? text)

end Settings

end Headroom.Daemon
