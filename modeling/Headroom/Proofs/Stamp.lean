import Headroom.Proofs.Calendar
import Headroom.Proofs.Checked
import Headroom.Time.Rfc3339.Parser
import Headroom.Time.Rfc3339.Printer

/-! Stamps. A moment of a year of four digits that is written to the second is read back as its
whole second: the fraction is lost, a leap second is kept. -/

namespace Headroom

namespace Decimal

variable {width n : Nat}

theorem length_padded (hwidth : 0 < width) (hn : n < 10 ^ width) :
    (padded width n).length = width := by
  rw [padded, List.length_leftpad]
  exact max_eq_left ((Nat.length_toDigits_le_iff (by decide) hwidth).mpr hn)

theorem le_length_padded (width n : Nat) : width ≤ (padded width n).length := by
  rw [padded, List.length_leftpad]
  exact le_max_left _ _

theorem isDigit_padded : (padded width n).all Char.isDigit = true := by
  refine List.all_eq_true.mpr fun c hc => ?_
  rcases List.mem_append.mp hc with hzero | hdigit
  · rw [List.eq_of_mem_replicate hzero]
    rfl
  · exact Nat.isDigit_of_mem_toDigits (by decide) (by decide) hdigit

@[simp] theorem value_padded : value (padded width n) = n := by
  rw [value, padded, List.leftpad, Nat.ofDigitChars_append, Nat.ofDigitChars_replicate_zero,
    Nat.mul_zero]
  exact value_toDigits n

theorem value_lt {digits : List Char} (h : digits.all Char.isDigit = true) :
    value digits < 10 ^ digits.length := by
  unfold value
  induction digits with
  | nil => decide
  | cons c rest ih =>
    rw [List.all_cons, Bool.and_eq_true] at h
    have hrest := ih h.2
    have hdigit : c.toNat - '0'.toNat ≤ 9 := Nat.sub_le_of_le_add (Char.isDigit_iff_toNat.mp h.1).2
    have hfront := Nat.mul_le_mul_left (10 ^ rest.length) hdigit
    rw [Nat.ofDigitChars_cons, Nat.ofDigitChars_eq_ofDigitChars_zero, List.length_cons, pow_succ,
      Nat.mul_zero, Nat.zero_add]
    omega

end Decimal

theorem Text.length_le_byteLength (text : List Char) : text.length ≤ byteLength text := by
  induction text with
  | nil => exact Nat.le_refl _
  | cons c text ih =>
    have hpos := c.utf8Size_pos
    rw [List.length_cons, byteLength_cons]
    omega

namespace Instant

/-- The moment at the start of the second of a moment; a leap second is a second of its own. -/
def wholeSecond (t : Instant) : Instant :=
  { t with
    nano := t.nano / 1000000000 * 1000000000
    nano_lt := by have := t.nano_lt; omega
    leap := fun h => t.leap (by omega) }

theorem wholeSecond_of_no_fraction {t : Instant} (h : t.nano % 1000000000 = 0) :
    t.wholeSecond = t := by
  rw [wholeSecond, Instant.mk.injEq]
  exact ⟨rfl, rfl, by omega⟩

theorem ofParts?_parts (t : Instant) : ofParts? t.day t.second t.nano = some t :=
  dif_pos ⟨t.firstDay_le, t.le_lastDay, t.second_lt, t.nano_lt, t.leap⟩

/-- The year of a moment in universal time. -/
def year (t : Instant) : Int := (Date.ofNumber t.day).year

/-- The year of the moment has at most four digits. -/
def FourDigitYear (t : Instant) : Prop := 0 ≤ t.year ∧ t.year ≤ 9999

instance (t : Instant) : Decidable t.FourDigitYear := inferInstanceAs (Decidable (_ ∧ _))

end Instant

namespace Rfc3339

variable {α β : Type} {text rest : List Char}

/-- A reader goes on from what the reader before it has left. -/
theorem bind_of_ok {x : Reader α} {f : α → Reader β} {a : α} (h : x text = .ok (a, rest)) :
    (x >>= f) text = f a rest := by
  show (x text >>= fun read => f read.1 read.2) = f a rest
  rw [h]
  rfl

/-- Nothing is read after a fault. -/
theorem bind_of_error {x : Reader α} {f : α → Reader β} {e : ParseError}
    (h : x text = .error e) : (x >>= f) text = .error e := by
  show (x text >>= fun read => f read.1 read.2) = .error e
  rw [h]
  rfl

theorem require_bind {condition : Bool} {error : ParseError} {f : Unit → Reader β}
    (h : condition = true) : (require condition error >>= f) text = f () text := by
  subst h
  rfl

theorem mark_cons {accepted : List Char} {c : Char} (h : c ∈ accepted) :
    mark accepted (c :: rest) = .ok ((), rest) :=
  if_pos h

theorem number_padded {count n : Nat} (hcount : 0 < count) (hn : n < 10 ^ count) :
    number count (Decimal.padded count n ++ rest) = .ok (n, rest) := by
  have htake := @List.take_left' _ _ rest _ (Decimal.length_padded hcount hn)
  have hdrop := @List.drop_left' _ _ rest _ (Decimal.length_padded hcount hn)
  simp only [number, htake, hdrop]
  rw [if_pos ⟨Decimal.length_padded hcount hn, Decimal.isDigit_padded⟩, Decimal.value_padded]

theorem number_of_not_digit {count : Nat} {c : Char} (hcount : 0 < count)
    (hc : c.isDigit = false) : number count (c :: rest) = .error .invalid := by
  cases count with
  | zero => exact absurd hcount (Nat.lt_irrefl 0)
  | succ count => simp [number, hc]

theorem date_text {day : Int} (hyear : 0 ≤ (Date.ofNumber day).year ∧
    (Date.ofNumber day).year ≤ 9999) :
    date (yearText (Date.ofNumber day).year ++
      '-' :: (Decimal.padded 2 (Date.ofNumber day).month ++
        '-' :: (Decimal.padded 2 (Date.ofNumber day).day ++ rest))) = .ok (day, rest) := by
  obtain ⟨hexists, hnumber⟩ := Date.ofNumber_spec day
  generalize Date.ofNumber day = d at *
  have hmonth := hexists.2.1
  have hday := hexists.2.2.2
  have hshort : ∀ length ∈ Date.monthLengths d.year, length < 100 := by
    unfold Date.monthLengths
    split <;> decide
  have hlength : (Date.monthLengths d.year).getD (d.month - 1) 0 < 100 := by
    rw [List.getD_eq_getElem?_getD]
    cases hget : (Date.monthLengths d.year)[d.month - 1]? with
    | none => decide
    | some length => exact hshort length (List.mem_of_getElem? hget)
  have hback : ((d.year.toNat : Nat) : Int) = d.year := Int.toNat_of_nonneg hyear.1
  rw [yearText, if_pos hyear, date, bind_of_ok (number_padded (by decide) (by omega)),
    bind_of_ok (mark_cons (by decide)), bind_of_ok (number_padded (by decide) (by omega)),
    bind_of_ok (mark_cons (by decide)), bind_of_ok (number_padded (by decide) (by omega)),
    hback, require_bind (decide_eq_true hexists)]
  exact congrArg (fun n => Except.ok (n, rest)) hnumber

theorem timeOfDay_text (t : Instant) :
    timeOfDay (Decimal.padded 2 (t.second / 3600) ++
      ':' :: (Decimal.padded 2 (t.second / 60 % 60) ++
        ':' :: (Decimal.padded 2 (t.second % 60 + t.nano / 1000000000) ++ 'Z' :: rest))) =
      .ok ((t.second, t.wholeSecond.nano), 'Z' :: rest) := by
  have hsecond := t.second_lt
  have hnano := t.nano_lt
  have hleap := t.leap
  rw [timeOfDay, bind_of_ok (number_padded (by decide) (by omega)),
    bind_of_ok (mark_cons (by decide)), bind_of_ok (number_padded (by decide) (by omega)),
    bind_of_ok (mark_cons (by decide)), bind_of_ok (number_padded (by decide) (by omega)),
    bind_of_ok (show fraction ('Z' :: rest) = .ok (0, 'Z' :: rest) from rfl)]
  have hread : ∀ second nano : Nat, second = t.second → nano = t.wholeSecond.nano →
      (pure (second, nano) : Reader (Nat × Nat)) ('Z' :: rest) =
        .ok ((t.second, t.wholeSecond.nano), 'Z' :: rest) := by
    rintro _ _ rfl rfl
    rfl
  -- Inside a leap second the nanoseconds exceed a second, and the second 59 is written as 60.
  rcases Nat.lt_or_ge t.nano 1000000000 with hordinary | hinside
  · have hzero : t.nano / 1000000000 = 0 := Nat.div_eq_of_lt hordinary
    have hsixty : ¬ t.second % 60 + 0 = 60 := by omega
    simp only [hzero, if_neg hsixty]
    rw [require_bind (by simp; omega)]
    apply hread
    · omega
    · show 0 = t.nano / 1000000000 * 1000000000
      omega
  · have hone : t.nano / 1000000000 = 1 := by omega
    have hsixty : t.second % 60 + 1 = 60 := by rw [hleap hinside]
    simp only [hone, if_pos hsixty]
    rw [require_bind (by simp; omega)]
    apply hread
    · omega
    · show 1000000000 + 0 = t.nano / 1000000000 * 1000000000
      omega

theorem characters_stamp (t : Instant) : characters .stamp t =
    yearText (Date.ofNumber t.day).year ++
      '-' :: (Decimal.padded 2 (Date.ofNumber t.day).month ++
        '-' :: (Decimal.padded 2 (Date.ofNumber t.day).day ++
          'T' :: (Decimal.padded 2 (t.second / 3600) ++
            ':' :: (Decimal.padded 2 (t.second / 60 % 60) ++
              ':' :: (Decimal.padded 2 (t.second % 60 + t.nano / 1000000000) ++ ['Z']))))) := by
  simp [characters, Form.stamp]

theorem four_le_length_yearText (year : Int) : 4 ≤ (yearText year).length := by
  rw [yearText]
  split
  · exact Decimal.le_length_padded _ _
  · exact (Decimal.le_length_padded _ _).trans (Nat.le_succ _)

theorem le_byteLength_stamp (t : Instant) : 19 ≤ Text.byteLength (characters .stamp t) := by
  refine le_trans ?_ (Text.length_le_byteLength _)
  have hyear := four_le_length_yearText (Date.ofNumber t.day).year
  have hpair := Decimal.le_length_padded 2
  have hmonth := hpair (Date.ofNumber t.day).month
  have hday := hpair (Date.ofNumber t.day).day
  have hhour := hpair (t.second / 3600)
  have hminute := hpair (t.second / 60 % 60)
  have hsecond := hpair (t.second % 60 + t.nano / 1000000000)
  simp only [characters_stamp, List.length_append, List.length_cons]
  omega

/-- A stamp of a year of four digits is read back as the whole second. -/
theorem parse_print_stamp {t : Instant} (h : t.FourDigitYear) :
    parse (print .stamp t) = .ok t.wholeSecond := by
  have hparts : Instant.ofParts? (t.day + ((t.second : Int) - 0 * 60) / 86400)
      (((t.second : Int) - 0 * 60) % 86400).toNat t.wholeSecond.nano = some t.wholeSecond := by
    have hsecond := t.second_lt
    rw [show t.day + ((t.second : Int) - 0 * 60) / 86400 = t.day by omega,
      show (((t.second : Int) - 0 * 60) % 86400).toNat = t.second by omega]
    exact t.wholeSecond.ofParts?_parts
  have hlong := le_byteLength_stamp t
  rw [characters_stamp] at hlong
  have hmoment : moment (characters .stamp t) = .ok (t.wholeSecond, []) := by
    rw [characters_stamp, moment, bind_of_ok rfl, require_bind (decide_eq_true hlong),
      bind_of_ok (date_text h), bind_of_ok (mark_cons (by decide)),
      bind_of_ok (timeOfDay_text t)]
    dsimp only
    rw [bind_of_ok (show offset ['Z'] = .ok (0, []) from rfl),
      bind_of_ok (show (get : Reader (List Char)) [] = .ok ([], []) from rfl),
      require_bind List.isEmpty_nil, require_bind (by decide)]
    simp only [hparts]
    rfl
  rw [parse, print, String.toList_ofList]
  show Prod.fst <$> moment (characters .stamp t) = _
  rw [hmoment]
  rfl

/-- Any other year is written with a sign, which is no digit. -/
theorem yearText_of_signed {year : Int} (h : ¬(0 ≤ year ∧ year ≤ 9999)) :
    ∃ sign digits, yearText year = sign :: digits ∧ Char.isDigit sign = false := by
  rw [yearText, if_neg h]
  refine ⟨_, _, rfl, ?_⟩
  split <;> rfl

theorem parse_print_stamp_of_signed {t : Instant} (h : ¬t.FourDigitYear) :
    parse (print .stamp t) = .error .invalid := by
  obtain ⟨sign, digits, hyear, hsign⟩ : ∃ sign digits,
      yearText (Date.ofNumber t.day).year = sign :: digits ∧ Char.isDigit sign = false :=
    yearText_of_signed h
  have hlong := le_byteLength_stamp t
  have hmoment : moment (characters .stamp t) = .error .invalid := by
    rw [moment, bind_of_ok rfl, require_bind (decide_eq_true hlong)]
    refine bind_of_error ?_
    rw [characters_stamp, hyear, date]
    exact bind_of_error (number_of_not_digit (by decide) hsign)
  rw [parse, print, String.toList_ofList]
  show Prod.fst <$> moment (characters .stamp t) = _
  rw [hmoment]
  rfl

/-! ### What is read lies within the calendar -/

theorem exists_of_bind {x : Reader α} {f : α → Reader β} {b : β}
    (h : (x >>= f) text = .ok (b, rest)) :
    ∃ a middle, x text = .ok (a, middle) ∧ f a middle = .ok (b, rest) := by
  obtain ⟨⟨a, middle⟩, hx, hf⟩ := bind_eq_ok_iff.mp
    (show (x text >>= fun read => f read.1 read.2) = .ok (b, rest) from h)
  exact ⟨a, middle, hx, hf⟩

theorem of_require {condition : Bool} {error : ParseError} {f : Unit → Reader β} {b : β}
    (h : (require condition error >>= f) text = .ok (b, rest)) :
    condition = true ∧ f () text = .ok (b, rest) := by
  cases condition with
  | true => exact ⟨rfl, h⟩
  | false => exact nomatch h

theorem number_lt {count n : Nat} (h : number count text = .ok (n, rest)) : n < 10 ^ count := by
  simp only [number] at h
  split at h
  · rename_i hdigits
    obtain ⟨rfl, -⟩ := Prod.mk.inj (Except.ok.inj h)
    have hlt := Decimal.value_lt hdigits.2
    rwa [hdigits.1] at hlt
  · exact nomatch h

theorem date_le {day : Int} (h : date text = .ok (day, rest)) : day ≤ 2932896 := by
  obtain ⟨year, _, hyear, h⟩ := exists_of_bind h
  obtain ⟨_, _, -, h⟩ := exists_of_bind h
  obtain ⟨month, _, -, h⟩ := exists_of_bind h
  obtain ⟨_, _, -, h⟩ := exists_of_bind h
  obtain ⟨dayOfMonth, _, -, h⟩ := exists_of_bind h
  obtain ⟨hexists, h⟩ := of_require h
  obtain ⟨rfl, -⟩ := Prod.mk.inj (Except.ok.inj h)
  have hlast := (of_decide_eq_true hexists).dayOfYear_lt
  have hnext := Date.daysBeforeYear_add_one year
  have hyears : Date.daysBeforeYear (year + 1) ≤ Date.daysBeforeYear 10000 :=
    Date.daysBeforeYear_mono (by exact_mod_cast number_lt hyear)
  have hbound : Date.daysBeforeYear 10000 = 3652059 := by decide
  unfold Date.number Date.epoch
  dsimp only at hlast ⊢
  omega

theorem timeOfDay_lt {second nano : Nat} (h : timeOfDay text = .ok ((second, nano), rest)) :
    second < 86400 := by
  obtain ⟨hour, _, -, h⟩ := exists_of_bind h
  obtain ⟨_, _, -, h⟩ := exists_of_bind h
  obtain ⟨minute, _, -, h⟩ := exists_of_bind h
  obtain ⟨_, _, -, h⟩ := exists_of_bind h
  obtain ⟨written, _, -, h⟩ := exists_of_bind h
  obtain ⟨fraction, _, -, h⟩ := exists_of_bind h
  rcases hread : (if written = 60 then (59, 1000000000 + fraction) else (written, fraction))
    with ⟨whole, nanos⟩
  simp only [hread] at h
  obtain ⟨hrange, h⟩ := of_require h
  obtain ⟨hread, -⟩ := Prod.mk.inj (Except.ok.inj h)
  obtain ⟨rfl, -⟩ := Prod.mk.inj hread
  simp only [Bool.and_eq_true, decide_eq_true_eq] at hrange
  omega

/-- What is read lies within the calendar, far from its end. -/
theorem day_lt_of_parse {stamp : String} {t : Instant} (h : parse stamp = .ok t) :
    t.day < lastDay := by
  obtain ⟨⟨_, left⟩, hmoment, rfl⟩ : ∃ read, moment stamp.toList = .ok read ∧ read.1 = t := by
    unfold parse StateT.run' at h
    rcases hmoment : moment stamp.toList with e | read
    · rw [hmoment] at h
      exact nomatch h
    · rw [hmoment] at h
      exact ⟨read, rfl, Except.ok.inj h⟩
  obtain ⟨_, _, -, h⟩ := exists_of_bind hmoment
  obtain ⟨-, h⟩ := of_require h
  obtain ⟨day, _, hday, h⟩ := exists_of_bind h
  obtain ⟨_, _, -, h⟩ := exists_of_bind h
  obtain ⟨⟨second, nano⟩, _, hsecond, h⟩ := exists_of_bind h
  obtain ⟨offset, _, -, h⟩ := exists_of_bind h
  obtain ⟨_, _, -, h⟩ := exists_of_bind h
  obtain ⟨-, h⟩ := of_require h
  obtain ⟨hoffset, h⟩ := of_require h
  have hdate := date_le hday
  have htime := timeOfDay_lt hsecond
  have hseconds := of_decide_eq_true hoffset
  cases hparts : Instant.ofParts? (day + ((second : Int) - offset * 60) / 86400)
      (((second : Int) - offset * 60) % 86400).toNat nano with
  | none =>
    simp only [hparts] at h
    exact nomatch h
  | some u =>
    simp only [hparts] at h
    obtain ⟨rfl, -⟩ := Prod.mk.inj (Except.ok.inj h)
    have hdays : u.day = day + ((second : Int) - offset * 60) / 86400 := by
      unfold Instant.ofParts? at hparts
      split at hparts
      · rw [← Option.some.inj hparts]
      · exact nomatch hparts
    unfold lastDay
    dsimp only
    omega

end Rfc3339

end Headroom
