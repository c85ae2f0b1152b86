import Headroom.Json.Number
import Headroom.Proofs.Checked
import Headroom.Proofs.Runs

/-! How numbers are written: a sign, the digits before the point, the digits after it, and a power
of ten. A scan takes a number off the front of a text exactly where one is written. -/

namespace Headroom.Json

/-- No number goes on into the text. -/
def Stops (rest : List Char) : Prop :=
  ∀ c ∈ rest.head?, c.isDigit = false ∧ c ∉ ['.', 'e', 'E']

theorem Stops.nil : Stops [] := by
  simp [Stops]

theorem Stops.cons {c : Char} (h : c.isDigit = false ∧ c ∉ ['.', 'e', 'E']) (rest : List Char) :
    Stops (c :: rest) := by
  simpa [Stops] using h

namespace Literal

open Text (Splits)

/-- A run of at least one digit. -/
structure IsDigits (digits : List Char) : Prop where
  ne_nil : digits ≠ []
  isDigit : ∀ c ∈ digits, c.isDigit = true

/-- The digits before the point. A zero does not lead others. -/
structure IsWhole (digits : List Char) : Prop extends IsDigits digits where
  zero : digits.head? = some '0' → digits.length = 1

/-- The point and the digits after it. -/
inductive FractionText : Option (List Char) → List Char → Prop
  | absent : FractionText none []
  | present {digits : List Char} (h : IsDigits digits) : FractionText (some digits) ('.' :: digits)

/-- A power of ten, after a small or a large letter and perhaps a sign. -/
inductive PowerText : Option Int → List Char → Prop
  | absent : PowerText none []
  | bare {e : Char} {digits : List Char} (he : e = 'e' ∨ e = 'E') (h : IsDigits digits) :
    PowerText (some (Decimal.value digits)) (e :: digits)
  | plus {e : Char} {digits : List Char} (he : e = 'e' ∨ e = 'E') (h : IsDigits digits) :
    PowerText (some (Decimal.value digits)) (e :: '+' :: digits)
  | minus {e : Char} {digits : List Char} (he : e = 'e' ∨ e = 'E') (h : IsDigits digits) :
    PowerText (some (-(Decimal.value digits : Int))) (e :: '-' :: digits)

/-- The text of a literal. -/
inductive Spelled : Literal → List Char → Prop
  | intro (isNegative : Bool) {whole point power : List Char} {fraction : Option (List Char)}
      {exponent : Option Int} (hwhole : IsWhole whole) (hpoint : FractionText fraction point)
      (hpower : PowerText exponent power) :
    Spelled ⟨isNegative, whole, fraction, exponent⟩
      ((if isNegative then ['-'] else []) ++ whole ++ point ++ power)

variable {text digits rest : List Char}

theorem Spelled.eq_cons {literal : Literal} (h : literal.Spelled text) :
    ∃ c more, text = c :: more ∧ (c = '-' ∨ c.isDigit) := by
  obtain ⟨isNegative, hwhole, -, -⟩ := h
  cases isNegative with
  | true => exact ⟨'-', _, rfl, .inl rfl⟩
  | false =>
    obtain ⟨c, more, rfl⟩ := List.exists_cons_of_ne_nil hwhole.ne_nil
    exact ⟨c, _, rfl, .inr (hwhole.isDigit c List.mem_cons_self)⟩

/-! ### From the parts to the scan -/

theorem IsDigits.splits (h : IsDigits digits) (hrest : ∀ c ∈ rest.head?, c.isDigit = false) :
    Splits Char.isDigit (digits ++ rest) digits rest :=
  ⟨rfl, h.isDigit, hrest⟩

theorem IsDigits.not_isEmpty (h : IsDigits digits) : ¬ digits.isEmpty = true := by
  simpa using h.ne_nil

theorem scanWhole_append (h : IsWhole digits) (hrest : ∀ c ∈ rest.head?, c.isDigit = false) :
    scanWhole (digits ++ rest) = .ok (digits, rest) := by
  have hsplit := h.splits hrest
  unfold scanWhole
  rw [hsplit.takeWhile_eq, hsplit.dropWhile_eq, if_neg h.not_isEmpty]
  exact if_neg fun hzero => hzero.2 (h.zero hzero.1)

theorem scanFraction_append {fraction : Option (List Char)} (h : FractionText fraction text)
    (hrest : ∀ c ∈ rest.head?, c.isDigit = false ∧ c ≠ '.') :
    scanFraction (text ++ rest) = .ok (fraction, rest) := by
  cases h with
  | absent =>
    rw [List.nil_append]
    unfold scanFraction
    split
    · exact absurd rfl (hrest '.' rfl).2
    · rfl
  | present h =>
    have hsplit := h.splits fun c hc => (hrest c hc).1
    rw [List.cons_append, scanFraction, hsplit.takeWhile_eq, hsplit.dropWhile_eq,
      if_neg h.not_isEmpty]

/-- What a power of ten is scanned as after its letter and its sign. -/
def scanPower (down : Bool) (text : List Char) : Except Flaws (Option Int × List Char) :=
  let digits := text.takeWhile Char.isDigit
  let value : Int := Decimal.value digits
  if digits.isEmpty then .error (digitMissing text)
  else .ok (some (if down then -value else value), text.dropWhile Char.isDigit)

theorem scanPower_append (h : IsDigits digits) (hrest : ∀ c ∈ rest.head?, c.isDigit = false)
    (down : Bool) : scanPower down (digits ++ rest) =
      .ok (some (if down then -(Decimal.value digits : Int) else Decimal.value digits), rest) := by
  have hsplit := h.splits hrest
  rw [scanPower, hsplit.takeWhile_eq, hsplit.dropWhile_eq, if_neg h.not_isEmpty]

theorem scanExponent_letter {e : Char} (he : e = 'e' ∨ e = 'E') (text : List Char) :
    scanExponent (e :: text) = match text with
      | '+' :: rest => scanPower false rest
      | '-' :: rest => scanPower true rest
      | _ => scanPower false text := by
  unfold scanExponent
  dsimp only
  rw [if_pos he]
  rcases text with - | ⟨c, rest⟩
  · rfl
  · by_cases hplus : c = '+'
    · subst hplus
      rfl
    · by_cases hminus : c = '-'
      · subst hminus
        rfl
      · simp [hplus, hminus, scanPower]

theorem scanExponent_other {e : Char} (he : ¬ (e = 'e' ∨ e = 'E')) (text : List Char) :
    scanExponent (e :: text) = .ok (none, e :: text) := by
  unfold scanExponent
  exact if_neg he

theorem scanExponent_append {exponent : Option Int} (h : PowerText exponent text)
    (hrest : Stops rest) : scanExponent (text ++ rest) = .ok (exponent, rest) := by
  have hdigit : ∀ c ∈ rest.head?, c.isDigit = false := fun c hc => (hrest c hc).1
  cases h with
  | absent =>
    cases rest with
    | nil => rfl
    | cons e rest =>
      refine scanExponent_other ?_ rest
      rintro (rfl | rfl)
      all_goals exact absurd (hrest _ rfl).2 (by decide)
  | @bare e digits he h =>
    obtain ⟨c, more, rfl⟩ := List.exists_cons_of_ne_nil h.ne_nil
    have hc : c.isDigit = true := h.isDigit c List.mem_cons_self
    rw [List.cons_append, scanExponent_letter he]
    split
    -- a digit is not a sign
    · rename_i heq
      rw [(List.cons.inj heq).1] at hc
      exact absurd hc (by decide)
    · rename_i heq
      rw [(List.cons.inj heq).1] at hc
      exact absurd hc (by decide)
    · exact scanPower_append h hdigit false
  | plus he h => exact (scanExponent_letter he _).trans (scanPower_append h hdigit false)
  | minus he h => exact (scanExponent_letter he _).trans (scanPower_append h hdigit true)

/-- Neither a power nor what follows it goes on with the digits before it. -/
theorem PowerText.head {exponent : Option Int} (h : PowerText exponent text) (hrest : Stops rest) :
    ∀ c ∈ (text ++ rest).head?, c.isDigit = false ∧ c ≠ '.' := by
  cases h with
  | absent => exact fun c hc => ⟨(hrest c hc).1, by rintro rfl; exact (hrest _ hc).2 (by simp)⟩
  | bare he | plus he | minus he =>
    rintro c ⟨⟩
    rcases he with rfl | rfl <;> decide

theorem FractionText.head {fraction : Option (List Char)} (h : FractionText fraction text)
    (hrest : ∀ c ∈ rest.head?, c.isDigit = false) :
    ∀ c ∈ (text ++ rest).head?, c.isDigit = false := by
  cases h with
  | absent => exact hrest
  | present =>
    rintro c ⟨⟩
    rfl

/-- What a number is scanned as after its sign. -/
def scanUnsigned (isNegative : Bool) (text : List Char) : Except Flaws (Literal × List Char) := do
  let (whole, text) ← scanWhole text
  let (fraction, text) ← scanFraction text
  let (exponent, text) ← scanExponent text
  return (⟨isNegative, whole, fraction, exponent⟩, text)

theorem scan_minus (text : List Char) : scan ('-' :: text) = scanUnsigned true text := rfl

theorem scan_of_head?_ne (h : text.head? ≠ some '-') : scan text = scanUnsigned false text := by
  rw [scan]
  · rfl
  · rintro rest rfl
    exact h rfl

/-- A written number is scanned, up to a text that no number goes on into. -/
theorem Spelled.scan {literal : Literal} (h : literal.Spelled text) (hrest : Stops rest) :
    scan (text ++ rest) = .ok (literal, rest) := by
  obtain ⟨isNegative, hwhole, hpoint, hpower⟩ := h
  rename_i whole point power fraction exponent
  have hdigits := scanWhole_append hwhole (hpoint.head fun c hc => (hpower.head hrest c hc).1)
  have hfraction := scanFraction_append hpoint (hpower.head hrest)
  have hexponent := scanExponent_append hpower hrest
  have hunsigned : scanUnsigned isNegative (whole ++ (point ++ (power ++ rest))) =
      .ok (⟨isNegative, whole, fraction, exponent⟩, rest) := by
    simp only [scanUnsigned, hdigits, hfraction, hexponent, bind, Except.bind, pure, Except.pure]
  rw [List.append_assoc, List.append_assoc, List.append_assoc]
  cases isNegative with
  | true => exact hunsigned
  | false =>
    have hhead : (whole ++ (point ++ (power ++ rest))).head? ≠ some '-' := by
      rw [List.head?_append_of_ne_nil _ hwhole.ne_nil]
      exact fun h => absurd (hwhole.isDigit _ (List.mem_of_head? h)) (by decide)
    exact (scan_of_head?_ne hhead).trans hunsigned

/-! ### From the scan to the parts -/

theorem isDigits_takeWhile (h : ¬ (text.takeWhile Char.isDigit).isEmpty = true) :
    IsDigits (text.takeWhile Char.isDigit) :=
  ⟨by simpa using h, (Text.splits Char.isDigit text).run⟩

theorem of_scanWhole (h : scanWhole text = .ok (digits, rest)) :
    IsWhole digits ∧ text = digits ++ rest := by
  unfold scanWhole at h
  dsimp only at h
  split at h
  · cases h
  · rename_i hdigits
    split at h
    · cases h
    · rename_i hzero
      cases h
      exact ⟨⟨isDigits_takeWhile hdigits, fun hhead => by_contra fun hlength =>
        hzero ⟨hhead, hlength⟩⟩, (Text.splits Char.isDigit text).eq⟩

theorem of_scanFraction {fraction : Option (List Char)}
    (h : scanFraction text = .ok (fraction, rest)) :
    ∃ point, FractionText fraction point ∧ text = point ++ rest := by
  unfold scanFraction at h
  split at h
  · rename_i text
    dsimp only at h
    split at h
    · cases h
    · rename_i hdigits
      cases h
      exact ⟨_, .present (isDigits_takeWhile hdigits),
        congrArg ('.' :: ·) (Text.splits Char.isDigit text).eq⟩
  · cases h
    exact ⟨[], .absent, rfl⟩

theorem of_scanPower {down : Bool} {exponent : Option Int}
    (h : scanPower down text = .ok (exponent, rest)) :
    ∃ digits, IsDigits digits ∧ text = digits ++ rest ∧
      exponent = some (if down then -(Decimal.value digits : Int) else Decimal.value digits) := by
  unfold scanPower at h
  dsimp only at h
  split at h
  · cases h
  · rename_i hdigits
    cases h
    exact ⟨_, isDigits_takeWhile hdigits, (Text.splits Char.isDigit text).eq, rfl⟩

theorem of_scanExponent {exponent : Option Int} (h : scanExponent text = .ok (exponent, rest)) :
    ∃ power, PowerText exponent power ∧ text = power ++ rest := by
  cases text with
  | nil =>
    cases h
    exact ⟨[], .absent, rfl⟩
  | cons e text =>
    by_cases he : e = 'e' ∨ e = 'E'
    · rw [scanExponent_letter he] at h
      split at h
      all_goals obtain ⟨digits, hdigits, htext, rfl⟩ := of_scanPower h
      · exact ⟨_, .plus he hdigits, by rw [htext]; rfl⟩
      · exact ⟨_, .minus he hdigits, by rw [htext]; rfl⟩
      · exact ⟨_, .bare he hdigits, by rw [htext]; rfl⟩
    · rw [scanExponent_other he] at h
      cases h
      exact ⟨[], .absent, rfl⟩

theorem of_scanUnsigned {isNegative : Bool} {literal : Literal}
    (h : scanUnsigned isNegative text = .ok (literal, rest)) :
    ∃ front, literal.Spelled ((if isNegative then ['-'] else []) ++ front) ∧
      text = front ++ rest := by
  obtain ⟨⟨whole, _⟩, hwhole, hmore⟩ := bind_eq_ok_iff.mp h
  obtain ⟨⟨fraction, _⟩, hfraction, hlast⟩ := bind_eq_ok_iff.mp hmore
  obtain ⟨⟨exponent, _⟩, hexponent, hpair⟩ := bind_eq_ok_iff.mp hlast
  obtain ⟨hdigits, rfl⟩ := of_scanWhole hwhole
  obtain ⟨point, hpoint, rfl⟩ := of_scanFraction hfraction
  obtain ⟨power, hpower, rfl⟩ := of_scanExponent hexponent
  cases hpair
  have hspelled := Spelled.intro isNegative hdigits hpoint hpower
  rw [List.append_assoc, List.append_assoc, ← List.append_assoc whole] at hspelled
  exact ⟨_, hspelled, by simp only [List.append_assoc]⟩

/-- What is scanned is the text of the literal. -/
theorem spelled_of_scan {literal : Literal} (h : scan text = .ok (literal, rest)) :
    ∃ front, literal.Spelled front ∧ text = front ++ rest := by
  by_cases hsign : text.head? = some '-'
  · obtain ⟨text, rfl⟩ := List.head?_eq_some_iff.mp hsign
    obtain ⟨front, hfront, rfl⟩ := of_scanUnsigned ((scan_minus text).symm.trans h)
    exact ⟨_, hfront, rfl⟩
  · exact of_scanUnsigned ((scan_of_head?_ne hsign).symm.trans h)

end Literal

/-! ### Whole numbers as they are written out -/

/-- The literal that a whole number is written as. -/
def Literal.ofInt (n : Int) : Literal := ⟨n < 0, Nat.toDigits 10 n.natAbs, none, none⟩

theorem toDigits_head? {n : Nat} (h : 0 < n) : (Nat.toDigits 10 n).head? ≠ some '0' := by
  induction n using Nat.strongRecOn with
  | ind n ih =>
    rw [Nat.toDigits_eq_if (by decide)]
    split
    · simp [Nat.digitChar_eq_zero, h.ne']
    · rename_i hlarge
      rw [List.head?_append_of_ne_nil _ Nat.toDigits_ne_nil]
      exact ih (n / 10) (by omega) (by omega)

theorem toList_toString (n : Int) :
    (toString n).toList = (if n < 0 then ['-'] else []) ++ Nat.toDigits 10 n.natAbs := by
  cases n with
  | ofNat m =>
    have hsign : ¬ Int.ofNat m < 0 := by simp
    rw [if_neg hsign]
    exact Nat.toList_repr
  | negSucc m =>
    rw [if_pos (Int.negSucc_lt_zero m)]
    show ("-" ++ (m + 1).repr).toList = _
    rw [String.toList_append, Nat.toList_repr]
    rfl

namespace Literal

theorem isWhole_toDigits (n : Nat) : IsWhole (Nat.toDigits 10 n) where
  ne_nil := Nat.toDigits_ne_nil
  isDigit _ hc := Nat.isDigit_of_mem_toDigits (by decide) (by decide) hc
  zero hhead := by
    rcases Nat.eq_zero_or_pos n with rfl | hn
    · rfl
    · exact absurd hhead (toDigits_head? hn)

theorem spelled_ofInt (n : Int) : (ofInt n).Spelled (toString n).toList := by
  have hspelled := Spelled.intro (n < 0) (isWhole_toDigits n.natAbs) .absent .absent
  simp only [List.append_nil, decide_eq_true_eq] at hspelled
  rw [toList_toString]
  exact hspelled

theorem number?_ofNat (n : UInt64) : (ofInt n.toNat).number? = some (.natural n) := by
  have hvalue : Decimal.value (ofInt n.toNat).whole = n.toNat := by
    simp [ofInt, Decimal.value_toDigits]
  have hsize : n.toNat < UInt64.size := n.toNat_lt
  unfold number?
  simp only [hvalue]
  simp [ofInt, hsize]

end Literal

end Headroom.Json
