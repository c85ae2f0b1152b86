/-!
Moments in time to the nanosecond. A moment inside a leap second lies in the second before it and
counts nanoseconds from 10^9 on. Moments are bounded by the first and the last day of the calendar.
-/

namespace Headroom

/-- A stretch of time that does not run backwards, in nanoseconds. -/
structure Duration where
  nanoseconds : Nat
  deriving DecidableEq

namespace Duration

/-- A number of seconds. -/
def ofSeconds (seconds : Nat) : Duration := ⟨seconds * 1000000000⟩

/-- The whole seconds of a duration. -/
def seconds (d : Duration) : Nat := d.nanoseconds / 1000000000

/-- The nanoseconds past the whole seconds of a duration. -/
def subsecond (d : Duration) : Nat := d.nanoseconds % 1000000000

end Duration

/-- The first day that has a moment, -262143-01-01. -/
def firstDay : Int := -96465292

/-- The last day that has a moment, +262142-12-31. -/
def lastDay : Int := 95026236

/-- A moment: a day, a second of the day, and nanoseconds. -/
structure Instant where
  day : Int
  second : Nat
  nano : Nat
  firstDay_le : firstDay ≤ day
  le_lastDay : day ≤ lastDay
  second_lt : second < 86400
  nano_lt : nano < 2000000000
  leap : 1000000000 ≤ nano → second % 60 = 59
  deriving DecidableEq

namespace Instant

/-- The moment of the given day, second and nanoseconds, if there is one. -/
def ofParts? (day : Int) (second nano : Nat) : Option Instant :=
  if h : firstDay ≤ day ∧ day ≤ lastDay ∧ second < 86400 ∧ nano < 2000000000 ∧
      (1000000000 ≤ nano → second % 60 = 59) then
    some ⟨day, second, nano, h.1, h.2.1, h.2.2.1, h.2.2.2.1, h.2.2.2.2⟩
  else none

/-- The moment so many seconds and nanoseconds after the start of 1970, if there is one. -/
def ofUnix? (seconds : Int) (nano : Nat) : Option Instant :=
  ofParts? (seconds / 86400) (seconds % 86400).toNat nano

/-- The last moment of the calendar. -/
def latest : Instant :=
  ⟨lastDay, 86399, 999999999, by decide, by decide, by decide, by decide, by decide⟩

/-- A number that orders moments by day, then second, then nanoseconds. -/
def rank (t : Instant) : Int := (t.day * 86400 + t.second) * 2000000000 + t.nano

instance : LE Instant := ⟨fun s t => s.rank ≤ t.rank⟩

instance : LT Instant := ⟨fun s t => s.rank < t.rank⟩

instance (s t : Instant) : Decidable (s ≤ t) := inferInstanceAs (Decidable (s.rank ≤ t.rank))

instance (s t : Instant) : Decidable (s < t) := inferInstanceAs (Decidable (s.rank < t.rank))

/-- The second and nanoseconds of the day from which a move by `seconds` and `nanos` starts. A move
that stays inside a leap second starts from it; any other starts from the second that the leap
second is counted in, or from the next one when it goes back. -/
def moveFrom (t : Instant) (seconds nanos : Int) : Int × Int :=
  if t.nano < 1000000000 then (t.second, t.nano)
  else if 0 < seconds ∨ (0 < nanos ∧ 2000000000 ≤ t.nano + nanos) then
    (t.second, t.nano - 1000000000)
  else (t.second + 1, t.nano - 1000000000)

/-- The moment `span` nanoseconds later, or earlier when `span` is negative, if there is one. -/
def add? (t : Instant) (span : Int) : Option Instant :=
  let seconds := span.tdiv 1000000000
  let nanos := span.tmod 1000000000
  if 1000000000 ≤ t.nano ∧ seconds = 0 ∧ t.nano + nanos < 2000000000 then
    ofParts? t.day t.second (t.nano + nanos).toNat
  else
    let (second, nano) := t.moveFrom seconds nanos
    let carried := nano + nanos
    let total := second + seconds + carried / 1000000000
    ofParts? (t.day + total / 86400) (total % 86400).toNat (carried % 1000000000).toNat

end Instant

end Headroom
