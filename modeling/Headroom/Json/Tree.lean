import Headroom.Json.Token

/-!
The tree of a JSON text, as far as the text is well formed. Where it is not, the tree says what a
reader of values finds there and what a reader that skips finds, so a decoder can go through the
tree from left to right and report the first thing that is wrong, of whatever kind.
-/

namespace Headroom.Json

/-- How an array or an object ends: closed, or cut off by a flaw after its last part. -/
inductive Ending where
  | closed
  | cut (whenRead whenSkipped : Flaw)
  deriving DecidableEq

/-- A value as far as it is well formed. -/
inductive Tree where
  | null
  | bool (b : Bool)
  | number (n : Option Number)
  | string (s : Option String)
  | array (items : List Tree) (ending : Ending)
  | object (members : List (Option String × Tree)) (ending : Ending)
  | broken (whenRead whenSkipped : Flaw)

/-- An ending at a token that should be something else, or at the end of the text. -/
def Ending.unexpected : List Token → Ending
  | [] => .cut .endsEarly .endsEarly
  | _ :: _ => .cut .malformed .malformed

/-- The tree of a token that should begin a value, or of the end of the text. -/
def Tree.unexpected : List Token → Tree
  | [] => .broken .endsEarly .endsEarly
  | _ :: _ => .broken .malformed .malformed

mutual

/-- The value at the front of some tokens, read in at most so many steps, and what follows it. -/
def Tree.take : Nat → List Token → Tree × List Token
  | _, .null :: rest => (.null, rest)
  | _, .bool b :: rest => (.bool b, rest)
  | _, .number n :: rest => (.number n, rest)
  | _, .string s :: rest => (.string s, rest)
  | _, .brokenString r s :: _ | _, .broken r s :: _ => (.broken r s, [])
  | _, .beginArray :: .endArray :: rest => (.array [] .closed, rest)
  | _, .beginObject :: .endObject :: rest => (.object [] .closed, rest)
  | size + 1, .beginArray :: rest =>
    let (items, ending, rest) := takeItems size rest
    (.array items ending, rest)
  | size + 1, .beginObject :: rest =>
    let (members, ending, rest) := takeMembers size rest
    (.object members ending, rest)
  | _, rest => (.unexpected rest, [])

/-- The items of an array from the next one on, its ending, and what follows it. -/
def takeItems : Nat → List Token → List Tree × Ending × List Token
  | 0, rest => ([], .unexpected rest, [])
  | size + 1, rest =>
    let (item, rest) := Tree.take size rest
    match rest with
    | .endArray :: rest => ([item], .closed, rest)
    | .comma :: rest =>
      let (items, ending, rest) := takeItems size rest
      (item :: items, ending, rest)
    | rest => ([item], .unexpected rest, [])

/-- The members of an object from the next one on, its ending, and what follows it. -/
def takeMembers : Nat → List Token → List (Option String × Tree) × Ending × List Token
  | size + 1, .string name :: .colon :: rest =>
    let (value, rest) := Tree.take size rest
    match rest with
    | .endObject :: rest => ([(name, value)], .closed, rest)
    | .comma :: rest =>
      let (members, ending, rest) := takeMembers size rest
      ((name, value) :: members, ending, rest)
    | rest => ([(name, value)], .unexpected rest, [])
  | _, .string name :: rest => ([(name, .unexpected rest)], .unexpected rest, [])
  | _, .brokenString r s :: _ => ([], .cut r s, [])
  | _, rest => ([], .unexpected rest, [])

end

/-- The tree of a text, and the tokens after it. A level of nesting takes two steps, and so does a
part of an array. -/
def Tree.ofText (text : List Char) : Tree × List Token :=
  let ts := tokens text
  Tree.take (2 * ts.length + 1) ts

mutual

/-- What a reader that skips over the value finds wrong with it. -/
def Tree.skipFlaw? : Tree → Option Flaw
  | .broken _ whenSkipped => some whenSkipped
  | .array items ending => (skipItems items).or ending.skipFlaw?
  | .object members ending => (skipMembers members).or ending.skipFlaw?
  | _ => none

/-- What a reader that skips finds wrong with a list of items. -/
def skipItems : List Tree → Option Flaw
  | [] => none
  | item :: rest => item.skipFlaw?.or (skipItems rest)

/-- What a reader that skips finds wrong with a list of members. -/
def skipMembers : List (Option String × Tree) → Option Flaw
  | [] => none
  | (_, value) :: rest => value.skipFlaw?.or (skipMembers rest)

/-- What a reader that skips finds wrong with an ending. -/
def Ending.skipFlaw? : Ending → Option Flaw
  | .closed => none
  | .cut _ whenSkipped => some whenSkipped

end

end Headroom.Json
