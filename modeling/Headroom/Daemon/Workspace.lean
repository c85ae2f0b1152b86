import Headroom.Daemon.Program

/-!
Files, directories and stores held in memory, as surroundings for the commands. A path is walked
name by name from the directory it starts in; two points lead back.
-/

namespace Headroom.Daemon

open Cluster (Store)

/-- The names on the way to a file or directory. The way from the root begins with a name of its
own. -/
abbrev Path := List String

/-- What a path leads to. -/
inductive Entry where
  | directory
  | file (content : ByteArray)
  | store (store : Store)

/-- The entries by their paths, the latest first. The directory that relative paths start in is
always there. -/
structure Workspace where
  entries : List (Path × Entry) := []
  now : Instant

namespace Workspace

/-- What a path leads to. The way up from the first directory and the root are directories. -/
def find? (w : Workspace) (path : Path) : Option Entry :=
  if path.all (· == "..") ∨ path = ["/"] then some .directory else w.entries.lookup path

def put (w : Workspace) (path : Path) (entry : Entry) : Workspace :=
  { w with entries := (path, entry) :: w.entries }

def isDirectory (w : Workspace) (path : Path) : Bool :=
  match w.find? path with
  | some .directory => true
  | _ => false

def names (path : String) : List String := (path.splitToList (· == '/')).filter (· ≠ "")

/-- Where a text starts: in the root or in the present directory. -/
def origin (path : String) : Path := if path.toList.head? = some '/' then ["/"] else []

/-- One step from a directory. A point stays there, two points go up. -/
def step (path : Path) (name : String) : Path :=
  if name = "." then path
  else if name = ".." then
    if path = ["/"] then path
    else if path.all (· == "..") then path ++ [name]
    else path.dropLast
  else path ++ [name]

def longestName : Nat := 255

def longestPath : Nat := 4095

/-- The place that a text names, if all before its last name are directories; with a slash at its
end the last has to be one as well. -/
def resolve? (w : Workspace) (path : String) : Option Path :=
  let walk := (names path).foldlM (fun at_ name =>
    if w.isDirectory at_ then some (step at_ name) else none) (origin path)
  walk.filter fun place => path.utf8ByteSize ≤ longestPath ∧
    (path.toList.getLast? = some '/' → w.isDirectory place)

/-- The content of a file. The file of a store holds no text. -/
def read (w : Workspace) (path : String) : Option ByteArray := do
  match w.find? (← w.resolve? path) with
  | some (.file content) => some content
  | some (.store _) => some ⟨#[0xFF]⟩
  | _ => none

/-- Makes the directories that are missing on a way, and tells where it ends. It ends nowhere if a
file stands in the way or a name is too long; the directories before that are made nevertheless. -/
def makeWay : List String → Path → Workspace → Option Path × Workspace
  | [], place, w => (some place, w)
  | name :: rest, place, w =>
    let next := step place name
    match w.find? next with
    | some .directory => makeWay rest next w
    | some _ => (none, w)
    | none =>
      if longestName < name.utf8ByteSize then (none, w)
      else makeWay rest next (w.put next .directory)

/-- The place of a directory that a text names. -/
def directory? (w : Workspace) (path : String) : Option Path :=
  (w.resolve? path).filter w.isDirectory

/-- Makes the directory that a text names, and those before it. A point at the end looks for the
name before it, so that name is not made for it. -/
def makeDirectories (w : Workspace) (path : String) : Option Path × Workspace :=
  if longestPath < path.utf8ByteSize then (none, w)
  else match w.directory? path with
    | some place => (some place, w)
    | none =>
      if (names path).getLast? = some "." then
        let (_, w) := makeWay ((names path).filter (· ≠ ".")).dropLast (origin path) w
        (w.directory? path, w)
      else makeWay (names path) (origin path) w

/-- Opens the store in a directory and makes both if need be. An empty file is a new store. -/
def openStore (w : Workspace) (dataDir : String) : Except Error Store × Workspace :=
  match w.makeDirectories dataDir with
  | (none, w) => (.error (.creatingDataDir dataDir), w)
  | (some directory, w) =>
    let place := directory ++ [storeName]
    let refused (reason : String) : Except Error Store × Workspace :=
      (.error (.cluster (.opening ("I/O error: " ++ reason))), w)
    if longestPath < (storePath dataDir).utf8ByteSize then
      refused "File name too long (os error 36)"
    else match w.find? place with
    | some (.store store) => (.ok store, w)
    | some .directory => refused "Is a directory (os error 21)"
    | some (.file content) =>
      if content.isEmpty then (.ok {}, w.put place (.store {})) else refused "invalid data"
    | none => (.ok {}, w.put place (.store {}))

def saveStore (w : Workspace) (dataDir : String) (store : Store) : Workspace :=
  match w.resolve? dataDir with
  | some directory => w.put (directory ++ [storeName]) (.store store)
  | none => w

/-- A workspace with files and the directories they lie in. -/
def ofFiles (now : Instant) (files : List (String × ByteArray)) : Workspace :=
  files.foldl (fun w (path, content) =>
    let way := names path
    ((makeWay way.dropLast [] w).2).put way (.file content)) { now }

instance : Host (StateM Workspace) where
  read path := return (← get).read path
  openStore dataDir := modifyGet (·.openStore dataDir)
  saveStore dataDir store := modify (·.saveStore dataDir store)
  now := return (← get).now

end Workspace

end Headroom.Daemon
