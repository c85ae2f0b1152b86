/-!
The arguments of the command line: a command and its options. An option has its value after an
equals sign or in the next argument; it comes at most once. The flag for logs in JSON may also
stand before the command.
-/

namespace Headroom.Daemon

/-- Where the store is kept unless another directory is named. -/
def defaultDataDir : String := "/var/lib/nodescale"

/-- A command with its options. -/
inductive Command where
  | seed (dataDir fixture : String)
  | status (dataDir : String) (config : Option String)
  | tick (dataDir : String) (config : Option String)
  | run (dataDir : String) (config : Option String)
  deriving DecidableEq

/-- The options of a command that have been read. -/
structure Options where
  logJson : Bool := false
  values : List (String × String) := []

namespace Options

/-- Adds the value of an option. It must not be empty, and the option must not be there yet. -/
def add? (options : Options) (name value : String) : Option Options :=
  if value.isEmpty ∨ (options.values.lookup name).isSome then none
  else some { options with values := (name, value) :: options.values }

/-- Adds the flag, which must not be there yet. -/
def addFlag? (options : Options) : Option Options :=
  if options.logJson then none else some { options with logJson := true }

/-- The name and value of an argument with an equals sign. -/
def split (argument : List Char) : List Char × Option (List Char) :=
  match argument.dropWhile (· != '=') with
  | [] => (argument, none)
  | _ :: value => (argument.takeWhile (· != '='), some value)

/-- The argument can be the value of the option before it: it is no option itself. -/
def isValue (argument : String) : Bool := argument == "-" || argument.toList.head? != some '-'

def read (names : List String) : List String → Options → Option Options
  | [], options => some options
  | ["--"], options => some options
  | "--log-json" :: rest, options => do read names rest (← options.addFlag?)
  | argument :: rest, options =>
    match split argument.toList with
    | (name, some value) => do
      if .ofList name ∉ names then failure
      read names rest (← options.add? (.ofList name) (.ofList value))
    | (_, none) =>
      match rest with
      | value :: rest => do
        if argument ∉ names ∨ !isValue value then failure
        read names rest (← options.add? argument value)
      | [] => none

end Options

namespace Command

/-- The command of a name with the options in arguments. -/
def ofName? (name : String) (arguments : List String) : Option Command := do
  match name with
  | "seed" => do
    let options ← Options.read ["--data-dir", "--fixture"] arguments {}
    return .seed ((options.values.lookup "--data-dir").getD defaultDataDir)
      (← options.values.lookup "--fixture")
  | "status" => common .status
  | "tick" => common .tick
  | "run" => common .run
  | _ => none
where
  /-- A command whose options are the directory and the settings file. -/
  common (make : String → Option String → Command) : Option Command := do
    let options ← Options.read ["--data-dir", "--config"] arguments {}
    return make ((options.values.lookup "--data-dir").getD defaultDataDir)
      (options.values.lookup "--config")

/-- The command that arguments spell; none if they are not used as they should be. -/
def ofArguments? : List String → Option Command
  | "--log-json" :: name :: rest | name :: rest => ofName? name rest
  | [] => none

end Command

end Headroom.Daemon
