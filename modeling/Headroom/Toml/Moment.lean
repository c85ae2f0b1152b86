import Headroom.Text.Decimal
import Headroom.Time.Date
import Headroom.Toml.Reader

/-!
Dates and times. A date may stand alone, or be followed by a time of day, which in turn may have an
offset; a time of day may stand alone.
-/

namespace Headroom.Toml

def fixedDigits (count : Nat) : Reader Nat := fun text =>
  let ds := text.take count
  if ds.length = count ∧ ds.all Char.isDigit then some (Decimal.value ds, text.drop count)
  else none

def date : Reader Unit := do
  let year ← fixedDigits 4
  char '-'
  let month ← fixedDigits 2
  char '-'
  let day ← fixedDigits 2
  check (decide (Date.Exists ⟨year, month, day⟩))

def hourMinute : Reader Unit := do
  let hour ← fixedDigits 2
  char ':'
  let minute ← fixedDigits 2
  check (hour ≤ 23 && minute ≤ 59)

/-- A time of day; a minute may have a leap second. -/
def timeOfDay : Reader Unit := do
  hourMinute
  char ':'
  check ((← fixedDigits 2) ≤ 60)
  discard (optional? do
    char '.'
    check !(← run Char.isDigit).isEmpty)

def offset : Reader Unit :=
  (do discard (oneOf ['Z', 'z'])) <|> (do discard (oneOf ['+', '-']); hourMinute)

def moment : Reader Unit :=
  (do
    date
    discard (optional? do
      discard (oneOf ['T', 't', ' '])
      timeOfDay
      discard (optional? offset))) <|>
  timeOfDay

end Headroom.Toml
