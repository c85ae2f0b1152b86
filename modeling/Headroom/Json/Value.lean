/-!
Values of JSON and their text: in one line without blanks, or over several lines with two blanks
for each level. A text escapes the quote, the backslash and the control characters and nothing
else.
-/

namespace Headroom.Json

/-- A value whose numbers are whole. The members of an object keep their order. -/
inductive Value where
  | null
  | bool (b : Bool)
  | number (n : Int)
  | string (s : String)
  | array (items : List Value)
  | object (members : List (String × Value))

def escape (c : Char) : List Char :=
  match c with
  | '"' => ['\\', '"']
  | '\\' => ['\\', '\\']
  | '\n' => ['\\', 'n']
  | '\r' => ['\\', 'r']
  | '\t' => ['\\', 't']
  | '\x08' => ['\\', 'b']
  | '\x0c' => ['\\', 'f']
  | c =>
    if c.toNat < 0x20 then
      ['\\', 'u', '0', '0', Nat.digitChar (c.toNat / 16), Nat.digitChar (c.toNat % 16)]
    else [c]

def quote (s : String) : List Char := '"' :: s.toList.flatMap escape ++ ['"']

/-- The line break before a part at a level; none in a text of one line. -/
def lineBreak : Option Nat → List Char
  | none => []
  | some level => '\n' :: List.replicate (2 * level) ' '

/-- What stands between the name and the value of a member. -/
def memberColon (level : Option Nat) : List Char := if level.isSome then [':', ' '] else [':']

mutual

/-- The text of a value at a level, or in one line. What has no parts stays in its line. -/
def Value.render (level : Option Nat) : Value → List Char
  | .null => "null".toList
  | .bool true => "true".toList
  | .bool false => "false".toList
  | .number n => (toString n).toList
  | .string s => quote s
  | .array [] => ['[', ']']
  | .array items => '[' :: renderItems (level.map (· + 1)) items ++ lineBreak level ++ [']']
  | .object [] => ['\x7b', '\x7d']
  | .object members =>
    '\x7b' :: renderMembers (level.map (· + 1)) members ++ lineBreak level ++ ['\x7d']

def renderItems (level : Option Nat) : List Value → List Char
  | [] => []
  | [item] => lineBreak level ++ item.render level
  | item :: rest => lineBreak level ++ item.render level ++ ',' :: renderItems level rest

def renderMembers (level : Option Nat) : List (String × Value) → List Char
  | [] => []
  | [(name, value)] => lineBreak level ++ quote name ++ memberColon level ++ value.render level
  | (name, value) :: rest =>
    lineBreak level ++ quote name ++ memberColon level ++ value.render level ++
      ',' :: renderMembers level rest

end

def Value.compact (value : Value) : String := .ofList (value.render none)

def Value.pretty (value : Value) : String := .ofList (value.render (some 0))

end Headroom.Json
