import Headroom.Json.Tree
import Headroom.Table
import Headroom.Text.Quoted

/-!
Typed values from the tree of a JSON text. A decoder goes through the tree from left to right and
stops at the first problem, be it a flaw of the text or a value of the wrong kind. A value of the
wrong kind counts as met when it is read, an array or an object already where it opens.
-/

namespace Headroom.Json

/-- A value that does not have the form that is wanted. -/
inductive Mismatch where
  | missingField (name : String)
  | duplicateField (name : String)
  | invalidType (found wanted : String)
  | invalidValue (found : Int) (wanted : String)
  | invalidLength (length : Nat) (wanted : String)
  deriving DecidableEq

def Mismatch.message : Mismatch → String
  | .missingField name => "missing field `" ++ name ++ "`"
  | .duplicateField name => "duplicate field `" ++ name ++ "`"
  | .invalidType found wanted => "invalid type: " ++ found ++ ", expected " ++ wanted
  | .invalidValue found wanted =>
    "invalid value: integer `" ++ toString found ++ "`, expected " ++ wanted
  | .invalidLength length wanted =>
    "invalid length " ++ toString length ++ ", expected " ++ wanted

/-- The first problem of a text. -/
inductive ReadError where
  | flaw (flaw : Flaw)
  | mismatch (mismatch : Mismatch)
  deriving DecidableEq

abbrev Decoder (α : Type) := Tree → Except ReadError α

/-- The name of a value in the message that it has the wrong type. -/
def Tree.describe : Tree → Except ReadError String
  | .null => .ok "null"
  | .bool b => .ok (if b then "boolean `true`" else "boolean `false`")
  | .number none | .string none => .error (.flaw .malformed)
  | .number (some (.natural n)) => .ok ("integer `" ++ toString n.toNat ++ "`")
  | .number (some (.negative n)) => .ok ("integer `" ++ toString n ++ "`")
  | .number (some .floating) => .ok "floating point"
  | .string (some s) => .ok ("string " ++ Text.quoted s)
  | .array _ _ => .ok "sequence"
  | .object _ _ => .ok "map"
  | .broken whenRead _ => .error (.flaw whenRead)

/-- The error of a value that is not of the wanted type. -/
def wrongType {α : Type} (wanted : String) : Decoder α := fun tree => do
  throw (.mismatch (.invalidType (← tree.describe) wanted))

def Ending.reach : Ending → Except ReadError Unit
  | .closed => .ok ()
  | .cut whenRead _ => .error (.flaw whenRead)

def skip : Decoder Unit := fun tree =>
  match tree.skipFlaw? with
  | some flaw => .error (.flaw flaw)
  | none => .ok ()

namespace Decode

def string : Decoder String
  | .string (some s) => .ok s
  | tree => wrongType "a string" tree

def bool : Decoder Bool
  | .bool b => .ok b
  | tree => wrongType "a boolean" tree

def word : Decoder UInt64
  | .number (some (.natural n)) => .ok n
  | .number (some (.negative n)) => .error (.mismatch (.invalidValue n "u64"))
  | tree => wrongType "u64" tree

def optional {α : Type} (decode : Decoder α) : Decoder (Option α)
  | .null => .ok none
  | tree => return some (← decode tree)

def list {α : Type} (decode : Decoder α) : Decoder (List α)
  | .array items ending => do
    let values ← items.mapM decode
    ending.reach
    return values
  | tree => wrongType "a sequence" tree

def entry : Option String × Tree → Except ReadError (String × String)
  | (none, _) => .error (.flaw .malformed)
  | (some name, value) => return (name, ← string value)

/-- The members of an object whose values are strings; of members with one name the last stays. -/
def dictionary : Decoder Dictionary
  | .object members ending => do
    let entries ← members.mapM entry
    ending.reach
    return .ofList entries
  | tree => wrongType "a map" tree

end Decode

/-- The items of an array that are still to be read, and its ending. -/
structure Items where
  items : List Tree
  ending : Ending

abbrev ItemsDecoder (α : Type) := StateT Items (Except ReadError) α

namespace Items

/-- The next item, if the array does not end before it. -/
def next? {α : Type} (decode : Decoder α) : ItemsDecoder (Option α) := fun rest =>
  match rest.items with
  | item :: items => do return (some (← decode item), { rest with items })
  | [] => do
    rest.ending.reach
    return (none, rest)

/-- The item of an index, which must be there. -/
def require {α : Type} (wanted : String) (index : Nat) (decode : Decoder α) : ItemsDecoder α := do
  match ← next? decode with
  | some a => return a
  | none => throw (.mismatch (.invalidLength index wanted))

/-- The close of an array whose wanted items have been read. -/
def close (rest : Items) : Except ReadError Unit :=
  if rest.items.isEmpty then rest.ending.reach else .error (.flaw .malformed)

end Items

/-- The form of a record that is written as an object of named fields or as an array of its fields
in order. A `σ` holds the fields that have been read from an object. -/
structure RecordForm (σ α : Type) where
  wanted : String
  start : σ
  put : String → Tree → σ → Except ReadError σ
  complete : σ → Except ReadError α
  ofItems : ItemsDecoder α

/-- The place of a field, filled from a value. A field that comes twice is met before its second
value. -/
def fill {α : Type} (name : String) (decode : Decoder α) (value : Tree) :
    Option α → Except ReadError (Option α)
  | some _ => .error (.mismatch (.duplicateField name))
  | none => return some (← decode value)

namespace RecordForm

variable {σ α : Type} (form : RecordForm σ α)

def putAll : List (Option String × Tree) → σ → Except ReadError σ
  | [], fields => .ok fields
  | (none, _) :: _, _ => .error (.flaw .malformed)
  | (some name, value) :: rest, fields => do putAll rest (← form.put name value fields)

/-- A record. What an object lacks is found at its close. -/
def decode : Decoder α
  | .object members ending => do
    let fields ← form.putAll members form.start
    ending.reach
    form.complete fields
  | .array items ending => do
    let (a, rest) ← form.ofItems.run ⟨items, ending⟩
    rest.close
    return a
  | tree => wrongType form.wanted tree

end RecordForm

/-- The value of a whole text; nothing may follow it. -/
def decodeText {α : Type} (decode : Decoder α) (text : String) : Except ReadError α := do
  let (tree, rest) := Tree.ofText text.toList
  let a ← decode tree
  if rest.isEmpty then return a else throw (.flaw .malformed)

end Headroom.Json
