import Headroom.Text.Bytes
import Headroom.Text.Decimal
import Headroom.Time.Date
import Headroom.Time.Instant

/-!
Reading a moment from the text form of RFC 3339. The parts are read from left to right and the
first that is wrong decides the error; a date is checked as soon as it is read, a time of day only
after its fraction, an offset of a day or more only at the end. Lengths are those of the encoded
text.
-/

namespace Headroom.Rfc3339

/-- Why a text is no moment. -/
inductive ParseError where
  | tooShort
  | invalid
  | outOfRange
  | tooLong
  deriving DecidableEq

def ParseError.message : ParseError → String
  | .tooShort => "premature end of input"
  | .invalid => "input contains invalid characters"
  | .outOfRange => "input is out of range"
  | .tooLong => "trailing input"

/-- A step that reads from the front of a text and leaves the rest. -/
abbrev Reader := StateT (List Char) (Except ParseError)

def require (condition : Bool) (error : ParseError) : Reader Unit :=
  if condition then pure () else throw error

def mark (accepted : List Char) : Reader Unit
  | c :: rest => if c ∈ accepted then .ok ((), rest) else .error .invalid
  | [] => .error .invalid

/-- One of the accepted characters, in a place where the text may end too early. -/
def markWithin (accepted : List Char) : Reader Unit
  | [] => .error .tooShort
  | text => mark accepted text

def number (count : Nat) : Reader Nat := fun text =>
  let digits := text.take count
  if digits.length = count ∧ digits.all Char.isDigit then
    .ok (Decimal.value digits, text.drop count)
  else .error .invalid

/-- A number of two digits, in a place where the text may end too early. -/
def pairWithin : Reader Nat := fun text =>
  if Text.byteLength text < 2 then .error .tooShort else number 2 text

def date : Reader Int := do
  let year ← number 4
  mark ['-']
  let month ← number 2
  mark ['-']
  let date : Date := ⟨year, month, ← number 2⟩
  require (decide date.Exists) .outOfRange
  return date.number

/-- The nanoseconds of a fraction of a second, cut after the ninth digit; none without a point. -/
def fraction : Reader Nat
  | '.' :: rest =>
    let digits := rest.takeWhile Char.isDigit
    if rest = [] then .error .tooShort
    else if digits = [] then .error .invalid
    else .ok (Decimal.value ((digits ++ List.replicate 9 '0').take 9), rest.dropWhile Char.isDigit)
  | text => .ok (0, text)

/-- A second of the day and its nanoseconds. The second 60 is the leap second of any minute. -/
def timeOfDay : Reader (Nat × Nat) := do
  let hour ← number 2
  mark [':']
  let minute ← number 2
  mark [':']
  let second ← number 2
  let nano ← fraction
  let (second, nano) := if second = 60 then (59, 1000000000 + nano) else (second, nano)
  require (hour ≤ 23 && minute ≤ 59 && second ≤ 59) .outOfRange
  return (hour * 3600 + minute * 60 + second, nano)

/-- The minutes by which local time is ahead of universal time. -/
def offset : Reader Int
  | 'Z' :: rest | 'z' :: rest => .ok (0, rest)
  | text => (do
      let back := text.head? != some '+'
      markWithin ['+', '-', '\u2212']
      let hours ← pairWithin
      markWithin [':']
      let minutes ← pairWithin
      require (minutes ≤ 59) .outOfRange
      let total : Int := hours * 60 + minutes
      return if back then -total else total : Reader Int) text

def moment : Reader Instant := do
  require (19 ≤ Text.byteLength (← get)) .tooShort
  let day ← date
  mark ['T', 't', ' ']
  let (second, nano) ← timeOfDay
  let offset ← offset
  require (← get).isEmpty .tooLong
  require (offset.natAbs < 24 * 60) .outOfRange
  let second := (second : Int) - offset * 60
  match Instant.ofParts? (day + second / 86400) (second % 86400).toNat nano with
  | some t => return t
  | none => throw .outOfRange

def parse (text : String) : Except ParseError Instant := moment.run' text.toList

end Headroom.Rfc3339
