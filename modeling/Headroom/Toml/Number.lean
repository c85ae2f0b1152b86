import Headroom.Double
import Headroom.Text.Decimal
import Headroom.Toml.Text
import Headroom.Word

/-!
Whole numbers, in four bases, and floating numbers. An underscore may stand between two digits. A
whole number has to fit the signed word. A floating number must not be so large that it would read
as infinite, unless it is negative.
-/

namespace Headroom.Toml

/-- Each underscore stands between two digits, and a digit comes last. The flag tells whether a
digit stands before. -/
def isGrouped : Bool → List Char → Bool
  | afterDigit, [] => afterDigit
  | afterDigit, c :: rest =>
    if c = '_' then afterDigit && isGrouped false rest else isGrouped true rest

/-- Digits that pass a test, with underscores between them, which are left out. -/
def digits (p : Char → Bool) : Reader (List Char) := do
  let run ← run fun c => p c || c == '_'
  check (isGrouped false run)
  return run.filter (· != '_')

def isNegative : Reader Bool := do
  match ← optional? (oneOf ['+', '-']) with
  | some c => return c == '-'
  | none => return false

/-- The digits of a decimal number, without a leading zero. -/
def decimalDigits : Reader (List Char) := do
  let ds ← digits Char.isDigit
  check (ds.length = 1 || ds.head? != some '0')
  return ds

/-- A whole number in a base that its first two characters name. -/
def basedInteger (mark : Char) (base : Nat) : Reader Int := do
  exactly ['0', mark]
  let ds ← digits fun c => (hexDigit? c).any (· < base)
  return ((ds.filterMap hexDigit?).foldl (fun n d => base * n + d) 0 : Nat)

def decimalInteger : Reader Int := do
  let negative ← isNegative
  let n : Int := Decimal.value (← decimalDigits)
  return if negative then -n else n

def integer : Reader Int := do
  let n ← basedInteger 'x' 16 <|> basedInteger 'o' 8 <|> basedInteger 'b' 2 <|> decimalInteger
  check (decide (Word.Fits n))
  return n

def fraction : Reader (List Char) := do
  char '.'
  digits Char.isDigit

def exponent : Reader Int := do
  discard (oneOf ['e', 'E'])
  let negative ← isNegative
  let n : Int := Decimal.value (← digits Char.isDigit)
  return if negative then -n else n

/-- The number `significand · 10 ^ power`, whose significand has `length` digits, rounds to a
double that is not infinite. -/
def isFinite (significand length : Nat) (power : Int) : Bool :=
  if significand = 0 ∨ length + power < 300 then true
  else if 400 < power then false
  else if 0 ≤ power then significand * Nat.pow 10 power.toNat < Double.limit
  else significand < Double.limit * Nat.pow 10 power.natAbs

def decimalFloat : Reader Unit := do
  let negative ← isNegative
  let whole ← decimalDigits
  let after ← optional? fraction
  let power ← optional? exponent
  check (after.isSome || power.isSome)
  let ds := whole ++ after.getD []
  check (negative ||
    isFinite (Decimal.value ds) ds.length (power.getD 0 - (after.getD []).length))

def specialFloat : Reader Unit := do
  discard isNegative
  exactly "inf".toList <|> exactly "nan".toList

def float : Reader Unit := decimalFloat <|> specialFloat

end Headroom.Toml
