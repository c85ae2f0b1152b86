import Mathlib
import Headroom.Time.Date

/-! The date of a day's number is a date of the calendar, and it has that number. -/

namespace Headroom.Date

theorem sum_monthLengths (year : Int) :
    (monthLengths year).sum = if IsLeap year then 366 else 365 := by
  unfold monthLengths
  split <;> rfl

/-- Going through the months from one on finds the month in which a day lies. -/
theorem ofDayOfYear_spec {year : Int} {earlier lengths : List Nat} {n : Nat}
    (hlengths : monthLengths year = earlier ++ lengths) (hn : n < lengths.sum) :
    (ofDayOfYear year lengths (earlier.length + 1) n).Exists ∧
      (ofDayOfYear year lengths (earlier.length + 1) n).number =
        daysBeforeYear year + earlier.sum + n - epoch := by
  induction lengths generalizing earlier n with
  | nil => exact absurd hn (Nat.not_lt_zero n)
  | cons length rest ih =>
    rw [ofDayOfYear]
    split
    · rename_i hhere
      have htwelve : (earlier ++ length :: rest).length = 12 := by
        rw [← hlengths]
        rfl
      rw [List.length_append, List.length_cons] at htwelve
      have hlength : (monthLengths year).getD earlier.length 0 = length := by simp [hlengths]
      have hbefore : daysBeforeMonth year (earlier.length + 1) = earlier.sum := by
        rw [daysBeforeMonth, hlengths, Nat.add_sub_cancel, List.take_left]
        rfl
      constructor
      · refine ⟨by simp, by dsimp only; omega, by simp, ?_⟩
        show n + 1 ≤ (monthLengths year).getD earlier.length 0
        rw [hlength]
        exact hhere
      · simp only [number, hbefore]
        push_cast
        ring
    · rename_i hlater
      rw [List.sum_cons] at hn
      have hnext := @ih (earlier ++ [length]) (n - length)
        (by rw [hlengths, List.append_assoc, List.singleton_append]) (by omega)
      rw [List.length_append, List.length_singleton] at hnext
      refine ⟨hnext.1, hnext.2.trans ?_⟩
      rw [List.sum_append, List.sum_singleton]
      omega

/-- The groups of years add up. In a year of an era, a century and a group of four, the days before
it are those of the whole groups; and only the last year of a group may be leap, unless its century
ends with it, save the last century of an era. -/
theorem daysBeforeYear_groups {era century group year : Int} (hc : 0 ≤ century ∧ century ≤ 3)
    (hg : 0 ≤ group ∧ group ≤ 24) (hy : 0 ≤ year ∧ year ≤ 3) :
    daysBeforeYear (400 * era + 100 * century + 4 * group + year + 1) =
      146097 * era + 36524 * century + 1461 * group + 365 * year ∧
    (IsLeap (400 * era + 100 * century + 4 * group + year + 1) ↔
      year = 3 ∧ (group < 24 ∨ century = 3)) := by
  unfold daysBeforeYear IsLeap
  constructor
  · omega
  · omega

theorem ofNumber_spec (n : Int) : (ofNumber n).Exists ∧ (ofNumber n).number = n := by
  simp only [ofNumber]
  generalize hdays : n + epoch = days
  generalize hcentury : min (days % 146097 / 36524) 3 = century
  generalize hcenturyDays : days % 146097 - century * 36524 = inCentury
  generalize hyear : min (inCentury % 1461 / 365) 3 = year
  have hc : 0 ≤ century ∧ century ≤ 3 := by omega
  have hg : 0 ≤ inCentury / 1461 ∧ inCentury / 1461 ≤ 24 := by omega
  have hy : 0 ≤ year ∧ year ≤ 3 := by omega
  obtain ⟨hbefore, hleap⟩ := @daysBeforeYear_groups (days / 146097) _ _ _ hc hg hy
  generalize 400 * (days / 146097) + 100 * century + 4 * (inCentury / 1461) + year + 1 = whole at *
  -- Only the last year of a group has a day 365, and then it is leap.
  have hlast : (inCentury % 1461 - year * 365).toNat < (monthLengths whole).sum := by
    rw [sum_monthLengths]
    split
    · omega
    · rename_i hcommon
      rw [hleap] at hcommon
      omega
  have hday := @ofDayOfYear_spec _ [] _ _ (List.nil_append _).symm hlast
  refine ⟨hday.1, hday.2.trans ?_⟩
  rw [hbefore, List.sum_nil]
  omega

/-! ### Later dates have greater numbers -/

theorem daysBeforeYear_mono {year later : Int} (h : year ≤ later) :
    daysBeforeYear year ≤ daysBeforeYear later := by
  unfold daysBeforeYear
  omega

theorem daysBeforeYear_add_one (year : Int) :
    daysBeforeYear (year + 1) = daysBeforeYear year + (monthLengths year).sum := by
  by_cases hleap : IsLeap year
  · rw [sum_monthLengths, if_pos hleap]
    unfold daysBeforeYear IsLeap at *
    omega
  · rw [sum_monthLengths, if_neg hleap]
    unfold daysBeforeYear IsLeap at *
    omega

/-- The days of a month all come before a later month, or before the end of the year. -/
theorem daysBeforeMonth_add_le {year : Int} {month later : Nat} (hfirst : 1 ≤ month)
    (hlast : month ≤ 12) (h : month < later) :
    daysBeforeMonth year month + (monthLengths year).getD (month - 1) 0 ≤
      daysBeforeMonth year later := by
  have hlength : month - 1 < (monthLengths year).length := by
    show month - 1 < 12
    omega
  have hthis := List.sum_take_succ (monthLengths year) (month - 1) hlength
  have hfront : (monthLengths year).take (month - 1 + 1) <+: (monthLengths year).take (later - 1) :=
    List.take_prefix_take_left (by omega)
  have hsum := hfront.sublist.sum_le_sum fun _ _ => Nat.zero_le _
  rw [List.getD_eq_getElem _ _ hlength]
  exact hthis ▸ hsum

variable {d e : Date}

theorem Exists.dayOfYear_lt (h : d.Exists) :
    daysBeforeMonth d.year d.month + d.day ≤ (monthLengths d.year).sum := by
  obtain ⟨hfirst, hlast, -, hday⟩ := h
  exact (Nat.add_le_add_left hday _).trans
    (daysBeforeMonth_add_le hfirst hlast (Nat.lt_succ_of_le hlast))

theorem Exists.number_lt_of_year_lt (hd : d.Exists) (he : e.Exists) (h : d.year < e.year) :
    d.number < e.number := by
  have hend := hd.dayOfYear_lt
  have hnext := daysBeforeYear_add_one d.year
  have hyears := daysBeforeYear_mono h
  have hday := he.2.2.1
  unfold number
  omega

theorem Exists.number_lt_of_month_lt (hd : d.Exists) (he : e.Exists) (hyear : d.year = e.year)
    (h : d.month < e.month) : d.number < e.number := by
  have hend := hd.2.2.2
  have hmonths := @daysBeforeMonth_add_le d.year _ _ hd.1 hd.2.1 h
  have hday := he.2.2.1
  rw [hyear] at hend hmonths
  unfold number
  rw [hyear]
  omega

/-- No two dates have one number. -/
theorem Exists.eq_of_number_eq (hd : d.Exists) (he : e.Exists) (h : d.number = e.number) :
    d = e := by
  have hyear : d.year = e.year := by
    rcases lt_trichotomy d.year e.year with hlt | heq | hgt
    · exact absurd h (hd.number_lt_of_year_lt he hlt).ne
    · exact heq
    · exact absurd h (he.number_lt_of_year_lt hd hgt).ne'
  have hmonth : d.month = e.month := by
    rcases lt_trichotomy d.month e.month with hlt | heq | hgt
    · exact absurd h (hd.number_lt_of_month_lt he hyear hlt).ne
    · exact heq
    · exact absurd h (he.number_lt_of_month_lt hd hyear.symm hgt).ne'
  rw [number, number, hyear, hmonth] at h
  have hday : d.day = e.day := by omega
  cases d
  cases e
  rw [mk.injEq]
  exact ⟨hyear, hmonth, hday⟩

/-- A date of the calendar is the one that is found for its number. -/
theorem Exists.ofNumber_number (h : d.Exists) : ofNumber d.number = d :=
  (ofNumber_spec d.number).1.eq_of_number_eq h (ofNumber_spec d.number).2

/-- The third of March 2000 is the day 11019, and the last day of the year 0 is far before. -/
example : ofNumber 11019 = ⟨2000, 3, 3⟩ ∧ ofNumber (-719163) = ⟨0, 12, 31⟩ := by decide

end Headroom.Date
