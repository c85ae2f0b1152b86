import Headroom.Text.Blank
import Headroom.Text.Decimal
import Headroom.Text.Quoted
import Headroom.Time.Instant

/-!
Durations as text: digits and a unit, seconds without one. The number has to fit an unsigned word;
a product that does not is cut to the greatest one.
-/

namespace Headroom.Duration

/-- Why a text is no duration. The text is given without the white space at its ends. -/
inductive ParseError where
  | noNumber (text : String)
  | numberTooLarge (text : String)
  | unknownUnit (unit text : String)
  deriving DecidableEq

def ParseError.reasons : ParseError → List String
  | .noNumber text =>
    ["invalid duration " ++ Text.quoted text, "cannot parse integer from empty string"]
  | .numberTooLarge text =>
    ["invalid duration " ++ Text.quoted text, "number too large to fit in target type"]
  | .unknownUnit unit text =>
    ["unknown duration unit " ++ Text.quoted unit ++ " in " ++ Text.quoted text]

def unitSeconds? : List Char → Option Nat
  | [] | ['s'] => some 1
  | ['m'] => some 60
  | ['h'] => some 3600
  | _ => none

/-- The duration that a text spells. A number that is missing or too large is met before the unit
is looked at. -/
def parse (text : String) : Except ParseError Duration :=
  let trimmed := Text.trim text.toList
  let number := trimmed.takeWhile Char.isDigit
  let unit := trimmed.dropWhile Char.isDigit
  if number = [] then .error (.noNumber (.ofList trimmed))
  else if UInt64.size ≤ Decimal.value number then .error (.numberTooLarge (.ofList trimmed))
  else match unitSeconds? unit with
    | some factor => .ok (.ofSeconds (min (Decimal.value number * factor) (UInt64.size - 1)))
    | none => .error (.unknownUnit (.ofList unit) (.ofList trimmed))

end Headroom.Duration
