import Headroom.Toml.Moment
import Headroom.Toml.Number

/-!
The lines of a document that say something: headers of tables and of arrays of tables, and keys
with their values. A key is a path of names.
-/

namespace Headroom.Toml

/-- A path of names: the last, and those before it. -/
structure Key where
  path : List String
  name : String
  deriving DecidableEq

/-- A value as it is written. -/
inductive Literal where
  | string (s : String)
  | integer (n : Int)
  | float
  | bool (b : Bool)
  | moment
  | array (items : List Literal)
  | inlineTable (members : List (Key × Literal))

/-- A line that says something. -/
inductive Line where
  | table (key : Key)
  | tableOfArray (key : Key)
  | member (key : Key) (value : Literal)

/-- Paths, arrays and inline tables go less than so deep. -/
def depthLimit : Nat := 80

def isBare (c : Char) : Bool := c.isAlphanum || c == '-' || c == '_'

def simpleKey : Reader String := do
  let cs ← basicString <|> literalString <|> plain isBare
  return .ofList cs

def key : Reader Key := do
  let names ← separated (char '.') do
    blanks
    let name ← simpleKey
    blanks
    return name
  match names.reverse with
  | name :: before =>
    check (names.length < depthLimit)
    return ⟨before.reverse, name⟩
  | [] => failure

def arrayItems (value : Reader Literal) : Reader (List Literal) := do
  char '['
  let items ← separated (char ',') do
    space
    let item ← value
    space
    return item
  if !items.isEmpty then discard (optional? (char ','))
  space
  char ']'
  return items

def pair (value : Reader Literal) : Reader (Key × Literal) := do
  let k ← key
  char '='
  blanks
  return (k, ← value)

def inlineMembers (value : Reader Literal) : Reader (List (Key × Literal)) := do
  char '\x7b'
  let members ← separated (char ',') do
    let member ← pair value
    blanks
    return member
  blanks
  char '\x7d'
  return members

def scalar : Reader Literal :=
  (Literal.string <$> text) <|>
  (do exactly "true".toList; return .bool true) <|>
  (do exactly "false".toList; return .bool false) <|>
  (do moment; return .moment) <|>
  (do float; return .float) <|>
  (Literal.integer <$> integer)

/-- A value whose parts go less than so deep. -/
def value : Nat → Reader Literal
  | 0 => scalar
  | depth + 1 =>
    scalar <|> (Literal.array <$> arrayItems (value depth)) <|>
      (Literal.inlineTable <$> inlineMembers (value depth))

/-- The header of an array of tables, or of a table. -/
def header : Reader Line :=
  (do
    exactly ['[', '[']
    let k ← key
    exactly [']', ']']
    return .tableOfArray k) <|>
  (do
    char '['
    let k ← key
    char ']'
    return .table k)

/-- A line; none if it says nothing. -/
def line : Reader (Option Line) := do
  blanks
  check !(← get).isEmpty
  let said ← optional? (header <|> (do
    let (k, v) ← pair (value (depthLimit - 1))
    return .member k v))
  lineEnd
  return said

def lines : Reader (List Line) := do
  let said ← many line (← get).length
  blanks
  atEnd
  return said.filterMap id

end Headroom.Toml
