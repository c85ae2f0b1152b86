import Headroom.Text.Decimal
import Headroom.Time.Date
import Headroom.Time.Instant

/-!
Moments in the text form of RFC 3339, always in universal time. A moment inside a leap second has
the second 60. A `Form` fixes what the format leaves open.
-/

namespace Headroom.Rfc3339

/-- The choices in writing a moment: whether a fraction of a second is kept, and how universal time
is named. -/
structure Form where
  fraction : Bool
  zone : List Char

/-- A moment in full, with the offset of universal time. -/
def Form.full : Form := ⟨true, "+00:00".toList⟩

/-- A moment to the second, with the letter of universal time. -/
def Form.stamp : Form := ⟨false, ['Z']⟩

/-- A year: four digits from 0 to 9999, else a sign and at least four digits. -/
def yearText (year : Int) : List Char :=
  if 0 ≤ year ∧ year ≤ 9999 then Decimal.padded 4 year.toNat
  else (if year < 0 then '-' else '+') :: Decimal.padded 4 year.natAbs

/-- A fraction of a second: none if it is zero, else the fewest of 3, 6 or 9 digits that are
exact. -/
def fractionText (nano : Nat) : List Char :=
  if nano = 0 then []
  else if nano % 1000000 = 0 then '.' :: Decimal.padded 3 (nano / 1000000)
  else if nano % 1000 = 0 then '.' :: Decimal.padded 6 (nano / 1000)
  else '.' :: Decimal.padded 9 nano

/-- The date and the time of day between which the letter T stands. -/
def characters (form : Form) (t : Instant) : List Char :=
  let date := Date.ofNumber t.day
  let leap := t.nano / 1000000000
  yearText date.year ++ '-' :: Decimal.padded 2 date.month ++ '-' :: Decimal.padded 2 date.day ++
    'T' :: Decimal.padded 2 (t.second / 3600) ++ ':' :: Decimal.padded 2 (t.second / 60 % 60) ++
    ':' :: Decimal.padded 2 (t.second % 60 + leap) ++
    (if form.fraction then fractionText (t.nano % 1000000000) else []) ++ form.zone

def print (form : Form) (t : Instant) : String := .ofList (characters form t)

end Headroom.Rfc3339
