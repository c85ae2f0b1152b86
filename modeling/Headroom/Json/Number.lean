import Headroom.Double
import Headroom.Text.Decimal
import Headroom.Word

/-!
Numbers of JSON. A number without fraction and exponent that fits a word is whole; any other is
floating, and it has a value only inside the range of doubles.
-/

namespace Headroom.Json

/-- How a text fails to be JSON: it ends too early, or it goes wrong before that. -/
inductive Flaw where
  | endsEarly
  | malformed
  deriving DecidableEq

/-- The value of a number, as far as it matters. -/
inductive Number where
  | natural (n : UInt64)
  | negative (n : Int)
  | floating
  deriving DecidableEq

/-- A number as it is written: its sign, the digits before and after the point, and its power of
ten. A whole number has neither point nor power. -/
structure Literal where
  isNegative : Bool
  whole : List Char
  fraction : Option (List Char)
  exponent : Option Int
  deriving DecidableEq

namespace Literal

/-- What a reader finds, and what a reader that skips finds. -/
abbrev Flaws := Flaw × Flaw

/-- The flaw of a number that lacks a digit: only a reader of values tells the end of the text
apart. -/
def digitMissing (rest : List Char) : Flaws :=
  (if rest.isEmpty then .endsEarly else .malformed, .malformed)

def scanExponent : List Char → Except Flaws (Option Int × List Char)
  | c :: text =>
    if c = 'e' ∨ c = 'E' then
      let (down, text) := match text with
        | '+' :: rest => (false, rest)
        | '-' :: rest => (true, rest)
        | _ => (false, text)
      let digits := text.takeWhile Char.isDigit
      let value : Int := Decimal.value digits
      if digits.isEmpty then .error (digitMissing text)
      else .ok (some (if down then -value else value), text.dropWhile Char.isDigit)
    else .ok (none, c :: text)
  | [] => .ok (none, [])

def scanFraction : List Char → Except Flaws (Option (List Char) × List Char)
  | '.' :: text =>
    let digits := text.takeWhile Char.isDigit
    if digits.isEmpty then .error (digitMissing text)
    else .ok (some digits, text.dropWhile Char.isDigit)
  | text => .ok (none, text)

/-- The digits before the point: a zero stands alone. -/
def scanWhole (text : List Char) : Except Flaws (List Char × List Char) :=
  let digits := text.takeWhile Char.isDigit
  if digits.isEmpty then .error (digitMissing text)
  else if digits.head? = some '0' ∧ digits.length ≠ 1 then .error (.malformed, .malformed)
  else .ok (digits, text.dropWhile Char.isDigit)

/-- The number at the front of a text, and what follows it. -/
def scan (text : List Char) : Except Flaws (Literal × List Char) := do
  let (isNegative, text) := match text with
    | '-' :: rest => (true, rest)
    | _ => (false, text)
  let (whole, text) ← scanWhole text
  let (fraction, text) ← scanFraction text
  let (exponent, text) ← scanExponent text
  return (⟨isNegative, whole, fraction, exponent⟩, text)

/-- Takes digits into a number while it stays below 2^64, and counts them. -/
def takeDigits : Nat → List Char → Nat × Nat
  | n, [] => (n, 0)
  | n, c :: rest =>
    let m := 10 * n + (c.toNat - '0'.toNat)
    if m < UInt64.size then
      let (significand, count) := takeDigits m rest
      (significand, count + 1)
    else (n, 0)

/-- The significand times a power of ten, each rounded to a double first, rounds to a double. -/
def inRange (significand : Nat) (power : Int) : Bool :=
  significand == 0 || power < 0 ||
    (power ≤ 308 &&
      Double.round significand * Double.round (Nat.pow 10 power.toNat) < Double.limit)

/-- The literal is in the range of doubles. Digits past the first 19 or 20 count only by their
places. -/
def isFinite (literal : Literal) : Bool :=
  let (n, count) := takeDigits 0 literal.whole
  let (significand, places) := takeDigits n (literal.fraction.getD [])
  inRange significand ((literal.whole.length - count : Int) - places + literal.exponent.getD 0)

/-- The value of a literal; none if it is too large. Zero with a sign is floating. -/
def number? (literal : Literal) : Option Number :=
  let n := Decimal.value literal.whole
  let isWhole := literal.fraction.isNone && literal.exponent.isNone
  if isWhole && !literal.isNegative && n < UInt64.size then some (.natural (.ofNat n))
  else if isWhole && literal.isNegative && 0 < n && decide (Word.least ≤ -n) then
    some (.negative (-n))
  else if literal.isFinite then some .floating
  else none

end Literal

end Headroom.Json
