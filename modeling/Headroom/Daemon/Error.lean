import Headroom.Daemon.Settings

/-!
What ends a command of the daemon.
-/

namespace Headroom.Daemon

/-- A failed command. Paths are as they were given. -/
inductive Error where
  | readingConfig (path : String)
  | parsingConfig (path : String)
  | readingFixture (path : String)
  | parsingFixture (path : String)
  | creatingDataDir (path : String)
  | settings (cause : SettingsError)
  | cluster (cause : Cluster.Error)
  | scaling (cause : Scaling.Error)
  deriving DecidableEq

namespace Error

def message : Error → String
  | .readingConfig path => "reading config " ++ path
  | .parsingConfig path => "parsing config " ++ path
  | .readingFixture path => "reading fixture " ++ path
  | .parsingFixture path => "parsing fixture " ++ path
  | .creatingDataDir path => "creating data dir " ++ path
  | .settings cause => cause.message
  | .cluster cause => cause.message
  | .scaling cause => cause.message

/-- The first line of a text. A line ends before a line feed, and before a carriage return that
precedes one; the text itself counts as ended by a line feed. -/
def firstLine (text : List Char) : List Char :=
  let line := text.takeWhile (· != '\n')
  if line.getLast? = some '\r' then line.dropLast else line

/-- The line that a failed command leaves behind. -/
def line (error : Error) : String := .ofList (firstLine ("Error: " ++ error.message).toList)

end Error

/-- The settings in the file of a path, given its content; no content if it cannot be read. -/
def Settings.ofFile (path : String) (content : Option ByteArray) : Except Error Settings :=
  match content.bind String.fromUTF8? with
  | none => .error (.readingConfig path)
  | some text =>
    match Settings.parse? text with
    | none => .error (.parsingConfig path)
    | some settings => .ok settings

end Headroom.Daemon
