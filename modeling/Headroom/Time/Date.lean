/-!
Days of the Gregorian calendar, extended over all years. The year 0 precedes the year 1. A day has
a number, 0 for the first of January 1970; `Date.ofNumber` finds the date of a number.
-/

namespace Headroom

/-- A day of a year and month. -/
structure Date where
  year : Int
  month : Nat
  day : Nat
  deriving DecidableEq

namespace Date

def IsLeap (year : Int) : Prop := year % 4 = 0 ∧ (year % 100 ≠ 0 ∨ year % 400 = 0)

instance (year : Int) : Decidable (IsLeap year) := inferInstanceAs (Decidable (_ ∧ _))

def monthLengths (year : Int) : List Nat :=
  [31, if IsLeap year then 29 else 28, 31, 30, 31, 30, 31, 31, 30, 31, 30, 31]

def Exists (d : Date) : Prop :=
  1 ≤ d.month ∧ d.month ≤ 12 ∧ 1 ≤ d.day ∧ d.day ≤ (monthLengths d.year).getD (d.month - 1) 0

instance (d : Date) : Decidable d.Exists := inferInstanceAs (Decidable (_ ∧ _))

/-- The days from the first day of the year 1 to the first day of `year`. -/
def daysBeforeYear (year : Int) : Int :=
  365 * (year - 1) + (year - 1) / 4 - (year - 1) / 100 + (year - 1) / 400

/-- The number of the first of January 1970, counted from the first day of the year 1. -/
def epoch : Int := 719162

/-- The days of a year before the first day of `month`. -/
def daysBeforeMonth (year : Int) (month : Nat) : Nat :=
  ((monthLengths year).take (month - 1)).foldr (· + ·) 0

/-- The number of a day. -/
def number (d : Date) : Int :=
  daysBeforeYear d.year + daysBeforeMonth d.year d.month + d.day - 1 - epoch

/-- The month and day of a day counted from 0 within its year. -/
def ofDayOfYear (year : Int) : List Nat → Nat → Nat → Date
  | [], month, n => ⟨year, month, n + 1⟩
  | length :: rest, month, n =>
    if n < length then ⟨year, month, n + 1⟩ else ofDayOfYear year rest (month + 1) (n - length)

/-- The date of a day's number. Four centuries have 146097 days, a century at most 36525, four
years at most 1461; the last century and the last year of their groups may be a day longer. -/
def ofNumber (n : Int) : Date :=
  let days := n + epoch
  let inEra := days % 146097
  let century := min (inEra / 36524) 3
  let inCentury := inEra - century * 36524
  let inGroup := inCentury % 1461
  let yearOfGroup := min (inGroup / 365) 3
  let year := 400 * (days / 146097) + 100 * century + 4 * (inCentury / 1461) + yearOfGroup + 1
  ofDayOfYear year (monthLengths year) 1 (inGroup - yearOfGroup * 365).toNat

end Date

end Headroom
