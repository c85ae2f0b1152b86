import Headroom.Proofs.Runs
import Headroom.Time.DurationText

/-! The texts that spell a duration, and what each of the others is refused for. -/

namespace Headroom

namespace Text

/-- What is left of a text when the white space at its two ends is taken away. -/
structure Trims (text trimmed : List Char) : Prop where
  around : ∃ before after, text = before ++ trimmed ++ after ∧
    (∀ c ∈ before, isBlank c = true) ∧ ∀ c ∈ after, isBlank c = true
  head : ∀ c ∈ trimmed.head?, isBlank c = false
  last : ∀ c ∈ trimmed.getLast?, isBlank c = false

theorem trims_trim (text : List Char) : Trims text (trim text) := by
  obtain ⟨hfront, hbefore, hstart⟩ := splits isBlank text
  obtain ⟨hback, hafter, hend⟩ := splits isBlank (text.dropWhile isBlank).reverse
  have hrest : text.dropWhile isBlank =
      trim text ++ ((text.dropWhile isBlank).reverse.takeWhile isBlank).reverse := by
    rw [trim, ← List.reverse_append, ← hback, List.reverse_reverse]
  refine ⟨⟨_, _, ?_, hbefore, fun c hc => hafter c (List.mem_reverse.mp hc)⟩, fun c hc => ?_,
    fun c hc => ?_⟩
  · rw [List.append_assoc, ← hrest]
    exact hfront
  · refine hstart c ?_
    rw [hrest, List.head?_append, show (trim text).head? = some c from hc]
    rfl
  · rw [trim, List.getLast?_reverse] at hc
    exact hend c hc

/-- There is one way to trim a text. -/
theorem trims_iff {text trimmed : List Char} : Trims text trimmed ↔ trimmed = trim text := by
  constructor
  · rintro ⟨⟨before, after, rfl, hbefore, hafter⟩, hhead, hlast⟩
    have hafter : ∀ c ∈ after.reverse, isBlank c = true := fun c hc =>
      hafter c (List.mem_reverse.mp hc)
    rw [trim, List.append_assoc]
    cases trimmed with
    | nil =>
      -- The whole text is white space, so it is all dropped from the front.
      have hall : ∀ c ∈ before ++ after, isBlank c = true := fun c hc =>
        (List.mem_append.mp hc).elim (hbefore c) fun hc => hafter c (List.mem_reverse.mpr hc)
      have hfront : Splits isBlank (before ++ after) (before ++ after) [] :=
        ⟨(List.append_nil _).symm, hall, by simp⟩
      rw [List.nil_append, hfront.dropWhile_eq]
      rfl
    | cons c trimmed =>
      have hfront : Splits isBlank (before ++ (c :: trimmed ++ after)) before
          (c :: trimmed ++ after) := ⟨rfl, hbefore, by simpa using hhead⟩
      have hback : Splits isBlank (after.reverse ++ (c :: trimmed).reverse) after.reverse
          (c :: trimmed).reverse := ⟨rfl, hafter, by rwa [List.head?_reverse]⟩
      rw [hfront.dropWhile_eq, List.reverse_append, hback.dropWhile_eq, List.reverse_reverse]
  · rintro rfl
    exact trims_trim text

end Text

namespace Duration

open Text (Splits Trims)

/-- The units, each with the seconds in it. A number without one counts seconds. -/
def units : List (List Char × Nat) := [([], 1), (['s'], 1), (['m'], 60), (['h'], 3600)]

theorem unitSeconds?_eq_some_iff {unit : List Char} {factor : Nat} :
    unitSeconds? unit = some factor ↔ (unit, factor) ∈ units := by
  unfold unitSeconds? units
  split <;> simp_all [eq_comm]

theorem unitSeconds?_eq_none_iff {unit : List Char} :
    unitSeconds? unit = none ↔ unit ∉ units.map Prod.fst := by
  unfold unitSeconds? units
  split <;> simp_all

/-- No unit begins with a digit. -/
theorem isDigit_of_mem_units {unit : List Char} {factor : Nat} (h : (unit, factor) ∈ units) :
    ∀ c ∈ unit.head?, c.isDigit = false := by
  simp only [units, List.mem_cons, Prod.mk.injEq, List.not_mem_nil, or_false] at h
  rcases h with ⟨rfl, -⟩ | ⟨rfl, -⟩ | ⟨rfl, -⟩ | ⟨rfl, -⟩
  all_goals simp

/-- A text is read by the digits at the front of what is trimmed, and by what follows them. -/
theorem parse_eq {text : String} {trimmed digits rest : List Char}
    (htrim : Trims text.toList trimmed) (hsplit : Splits Char.isDigit trimmed digits rest) :
    parse text =
      if digits = [] then .error (.noNumber (.ofList trimmed))
      else if 2 ^ 64 ≤ Decimal.value digits then .error (.numberTooLarge (.ofList trimmed))
      else match unitSeconds? rest with
        | some factor => .ok (.ofSeconds (min (Decimal.value digits * factor) (2 ^ 64 - 1)))
        | none => .error (.unknownUnit (.ofList rest) (.ofList trimmed)) := by
  obtain rfl := Text.trims_iff.mp htrim
  obtain ⟨rfl, rfl⟩ := Text.splits_iff.mp hsplit
  rfl

/-- The grammar of durations, read by the digits at the front of a text and what follows them. -/
theorem spelled_iff {trimmed digits rest : List Char}
    (hsplit : Splits Char.isDigit trimmed digits rest) (d : Duration) :
    (∃ number unit factor, trimmed = number ++ unit ∧ number ≠ [] ∧
      (∀ c ∈ number, c.isDigit = true) ∧ Decimal.value number < 2 ^ 64 ∧ (unit, factor) ∈ units ∧
      d = .ofSeconds (min (Decimal.value number * factor) (2 ^ 64 - 1))) ↔
    digits ≠ [] ∧ Decimal.value digits < 2 ^ 64 ∧ ∃ factor, unitSeconds? rest = some factor ∧
      d = .ofSeconds (min (Decimal.value digits * factor) (2 ^ 64 - 1)) := by
  constructor
  · rintro ⟨number, unit, factor, heq, hne, hdigits, hlt, hunit, rfl⟩
    have hother : Splits Char.isDigit trimmed number unit :=
      ⟨heq, hdigits, isDigit_of_mem_units hunit⟩
    obtain rfl := hother.takeWhile_eq.symm.trans hsplit.takeWhile_eq
    obtain rfl := hother.dropWhile_eq.symm.trans hsplit.dropWhile_eq
    exact ⟨hne, hlt, factor, unitSeconds?_eq_some_iff.mpr hunit, rfl⟩
  · rintro ⟨hne, hlt, factor, hunit, rfl⟩
    exact ⟨digits, rest, factor, hsplit.eq, hne, hsplit.run, hlt,
      unitSeconds?_eq_some_iff.mp hunit, rfl⟩

section Outcomes

variable {text : String} {trimmed digits rest : List Char} (htrim : Trims text.toList trimmed)
  (hsplit : Splits Char.isDigit trimmed digits rest)

include htrim hsplit

theorem parse_eq_ok_iff (d : Duration) : parse text = .ok d ↔
    digits ≠ [] ∧ Decimal.value digits < 2 ^ 64 ∧ ∃ factor, unitSeconds? rest = some factor ∧
      d = .ofSeconds (min (Decimal.value digits * factor) (2 ^ 64 - 1)) := by
  rw [parse_eq htrim hsplit, ← Nat.not_le]
  split
  · simp_all
  · split
    · simp_all
    · cases unitSeconds? rest <;> simp_all [eq_comm]

/-- What a text is refused for. -/
theorem reasons_parse (reasons : List String) :
    (parse text).mapError ParseError.reasons = .error reasons ↔
      digits = [] ∧ reasons = ["invalid duration " ++ Text.quoted (.ofList trimmed),
        "cannot parse integer from empty string"] ∨
      2 ^ 64 ≤ Decimal.value digits ∧
        reasons = ["invalid duration " ++ Text.quoted (.ofList trimmed),
          "number too large to fit in target type"] ∨
      digits ≠ [] ∧ Decimal.value digits < 2 ^ 64 ∧ unitSeconds? rest = none ∧
        reasons = ["unknown duration unit " ++ Text.quoted (.ofList rest) ++ " in " ++
          Text.quoted (.ofList trimmed)] := by
  have hempty : ¬ 2 ^ 64 ≤ Decimal.value [] := by decide
  rw [parse_eq htrim hsplit, ← Nat.not_le]
  split
  · simp_all [Except.mapError, ParseError.reasons, eq_comm]
  · split
    · simp_all [Except.mapError, ParseError.reasons, eq_comm]
    · cases unitSeconds? rest <;> simp_all [Except.mapError, ParseError.reasons, eq_comm]

end Outcomes

/-- Let `trimmed` be a text without the white space at its ends. It spells a duration exactly when
it is a number below 2^64, of one digit or more, and then nothing or one of the letters s, m and h;
it stands for so many seconds, minutes or hours, cut to the greatest word of seconds. It is no
duration if it does not begin with a digit or if its digits amount to 2^64, whatever follows them.
In every other case it is refused for its unit, which is all that follows the digits. -/
theorem durations_spelled (text : String) :
    ∃ trimmed digits rest,
      (∀ other, Trims text.toList other ↔ other = trimmed) ∧
      (∀ run more, Splits Char.isDigit trimmed run more ↔ run = digits ∧ more = rest) ∧
      (∀ d, parse text = .ok d ↔ ∃ number unit factor, trimmed = number ++ unit ∧ number ≠ [] ∧
        (∀ c ∈ number, c.isDigit = true) ∧ Decimal.value number < 2 ^ 64 ∧
        (unit, factor) ∈ [([], 1), (['s'], 1), (['m'], 60), (['h'], 3600)] ∧
        d = .ofSeconds (min (Decimal.value number * factor) (2 ^ 64 - 1))) ∧
      ((parse text).mapError ParseError.reasons = .error
        ["invalid duration " ++ Text.quoted (.ofList trimmed),
          "cannot parse integer from empty string"] ↔
        ∀ c ∈ trimmed.head?, c.isDigit = false) ∧
      ((parse text).mapError ParseError.reasons = .error
        ["invalid duration " ++ Text.quoted (.ofList trimmed),
          "number too large to fit in target type"] ↔
        2 ^ 64 ≤ Decimal.value digits) ∧
      ((parse text).mapError ParseError.reasons = .error
        ["unknown duration unit " ++ Text.quoted (.ofList rest) ++ " in " ++
          Text.quoted (.ofList trimmed)] ↔
        digits ≠ [] ∧ Decimal.value digits < 2 ^ 64 ∧ rest ∉ [[], ['s'], ['m'], ['h']]) := by
  have htrim := Text.trims_trim text.toList
  have hsplit := Text.splits Char.isDigit (Text.trim text.toList)
  refine ⟨_, _, _, fun _ => Text.trims_iff, fun _ _ => Text.splits_iff,
    fun d => (parse_eq_ok_iff htrim hsplit d).trans (spelled_iff hsplit d).symm, ?_, ?_, ?_⟩
  · rw [reasons_parse htrim hsplit, ← Text.takeWhile_eq_nil_iff]
    simp
  · rw [reasons_parse htrim hsplit]
    simp
  · rw [reasons_parse htrim hsplit]
    simp [unitSeconds?_eq_none_iff, units]

end Duration

end Headroom
