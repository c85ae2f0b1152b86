import Headroom.Toml.Line

/-!
The table of a document. A header opens a table, which it may do once; tables on the way to it that
are not there yet are implied, and may still be opened by a header of their own. A path in a key
makes tables that only such paths may add to. A header that ends in an array of tables adds a table
to the array, and paths through the array lead to its latest table.
-/

namespace Headroom.Toml

/-- How a table came to be. -/
inductive Origin where
  | header
  | implied
  | path
  | inline
  deriving DecidableEq

/-- A value of a document. Of the tables of an array the latest stands apart. -/
inductive Node where
  | string (s : String)
  | integer (n : Int)
  | float
  | bool (b : Bool)
  | moment
  | array (items : List Node)
  | table (origin : Origin) (members : List (String × Node))
  | tables (latest : List (String × Node)) (earlier : List (List (String × Node)))

abbrev Members := List (String × Node)

namespace Members

/-- The members with another value under a name that they have. -/
def replace (members : Members) (name : String) (node : Node) : Members :=
  members.map fun (n, v) => if n = name then (n, node) else (n, v)

/-- Changes the table at a path. A path in a key makes tables of its own kind and passes through no
table that a header has opened; nothing passes through an inline table or another value. -/
def editAt (inKey : Bool) (edit : Origin → Members → Option Members) :
    List String → Origin → Members → Option Members
  | [], origin, members => edit origin members
  | name :: path, _, members =>
    match members.lookup name with
    | none => do
      let origin := if inKey then Origin.path else Origin.implied
      return members ++ [(name, .table origin (← editAt inKey edit path origin []))]
    | some (.table origin inner) => do
      if origin = .inline ∨ (inKey ∧ origin = .header) then failure
      return members.replace name (.table origin (← editAt inKey edit path origin inner))
    | some (.tables latest earlier) => do
      return members.replace name (.tables (← editAt inKey edit path .header latest) earlier)
    | some _ => failure

/-- Puts a value under a key. A path must lead to a table that paths have made. -/
def put (key : Key) (node : Node) : Origin → Members → Option Members :=
  editAt true (fun origin members =>
    if (members.lookup key.name).isSome ∨ (key.path ≠ [] ∧ origin ≠ .path) then none
    else some (members ++ [(key.name, node)])) key.path

def openTable (key : Key) : Members → Option Members :=
  editAt false (fun _ members =>
    match members.lookup key.name with
    | none => some (members ++ [(key.name, .table .header [])])
    | some (.table .implied inner) => some (members.replace key.name (.table .header inner))
    | some _ => none) key.path .header

def addTable (key : Key) : Members → Option Members :=
  editAt false (fun _ members =>
    match members.lookup key.name with
    | none => some (members ++ [(key.name, .tables [] [])])
    | some (.tables latest earlier) =>
      some (members.replace key.name (.tables [] (latest :: earlier)))
    | some _ => none) key.path .header

end Members

mutual

def Literal.node? : Literal → Option Node
  | .string s => some (.string s)
  | .integer n => some (.integer n)
  | .float => some .float
  | .bool b => some (.bool b)
  | .moment => some .moment
  | .array items => do return .array (← itemNodes? items)
  | .inlineTable members => do return .table .inline (← memberNodes? members [])

def itemNodes? : List Literal → Option (List Node)
  | [] => some []
  | item :: rest => do return (← item.node?) :: (← itemNodes? rest)

/-- The members of an inline table, added to those before them. -/
def memberNodes? : List (Key × Literal) → Members → Option Members
  | [], members => some members
  | (key, value) :: rest, members => do
    memberNodes? rest (← members.put key (← value.node?) .header)

end

/-- A document that has been read in part: its table, and the path of the table whose members come
next. -/
structure Document where
  members : Members := []
  path : List String := []

def Document.add (document : Document) : Line → Option Document
  | .table key => do
    return ⟨← document.members.openTable key, key.path ++ [key.name]⟩
  | .tableOfArray key => do
    return ⟨← document.members.addTable key, key.path ++ [key.name]⟩
  | .member key value => do
    let node ← value.node?
    let members ← Members.editAt false (Members.put key node) document.path .header
      document.members
    return { document with members }

/-- The members of the table that a text spells, if it spells one. A byte order mark at its start
is passed over. -/
def parse? (text : String) : Option Members := do
  let text := match text.toList with
    | '\ufeff' :: rest => rest
    | text => text
  let said ← lines.run' text
  return (← said.foldlM Document.add {}).members

end Headroom.Toml
