import Headroom.Proofs.Numeral
import Headroom.Proofs.Quotation

/-! How tokens are written, with white space around them. Where no number follows another, the
tokens that are written are the tokens that are read. -/

namespace Headroom.Json

/-- The text of a token. -/
inductive Token.Spelled : Token → List Char → Prop
  | beginArray : Spelled .beginArray ['[']
  | endArray : Spelled .endArray [']']
  | beginObject : Spelled .beginObject ['\x7b']
  | endObject : Spelled .endObject ['\x7d']
  | comma : Spelled .comma [',']
  | colon : Spelled .colon [':']
  | null : Spelled .null ['n', 'u', 'l', 'l']
  | boolTrue : Spelled (.bool true) ['t', 'r', 'u', 'e']
  | boolFalse : Spelled (.bool false) ['f', 'a', 'l', 's', 'e']
  | number {literal : Literal} {text : List Char} (h : literal.Spelled text) :
    Spelled (.number literal.number?) text
  | string {parts : List CodeUnit} {text : List Char} (h : StringText parts text) :
    Spelled (.string ((textOf? none parts).map .ofList)) ('"' :: text)

/-- The text of some tokens, with white space before, between and after them. -/
inductive Spaced : List Token → List Char → Prop
  | nil : Spaced [] []
  | space {ts : List Token} {c : Char} {text : List Char} (hc : isSpace c = true)
    (h : Spaced ts text) : Spaced ts (c :: text)
  | token {token : Token} {ts : List Token} {front text : List Char} (hfront : token.Spelled front)
    (h : Spaced ts text) : Spaced (token :: ts) (front ++ text)

namespace Token

def isNumber : Token → Bool
  | .number _ => true
  | _ => false

/-- The token stands for the place where a text goes wrong. -/
def isBroken : Token → Bool
  | .brokenString _ _ | .broken _ _ => true
  | _ => false

end Token

/-- A reader can get the tokens from a text: none of them is broken, and no number stands beside
another one, so their digits do not run together. -/
structure Readable (ts : List Token) : Prop where
  whole : ∀ t ∈ ts, t.isBroken = false
  apart : ts.IsChain fun t u => t.isNumber = true → u.isNumber = false

namespace Readable

variable {t : Token} {ts us : List Token}

theorem singleton (ht : t.isBroken = false) : Readable [t] :=
  ⟨by simpa using ht, .singleton t⟩

theorem cons (ht : t.isBroken = false) (hnumber : t.isNumber = false) (h : Readable ts) :
    Readable (t :: ts) where
  whole := List.forall_mem_cons.mpr ⟨ht, h.whole⟩
  apart := List.isChain_cons.mpr
    ⟨fun _ _ htrue => absurd (hnumber.symm.trans htrue) Bool.false_ne_true, h.apart⟩

theorem append_cons (h : Readable ts) (hnumber : t.isNumber = false) (hmore : Readable (t :: us)) :
    Readable (ts ++ t :: us) where
  whole := List.forall_mem_append.mpr ⟨h.whole, hmore.whole⟩
  apart := List.isChain_append.mpr ⟨h.apart, hmore.apart, by
    rintro _ - _ ⟨⟩ -
    exact hnumber⟩

end Readable

/-! ### From what is written to what is read -/

theorem tokenAt_numeral {c : Char} (h : c = '-' ∨ c.isDigit) {text rest : List Char}
    {literal : Literal} (hscan : Literal.scan (c :: text) = .ok (literal, rest)) :
    tokenAt c text = (.number literal.number?, rest) := by
  unfold tokenAt
  split
  case h_11 => rw [if_pos h, hscan]
  all_goals exact absurd h (by decide)

theorem isSpace_numeral {c : Char} (h : c = '-' ∨ c.isDigit) : isSpace c = false := by
  by_contra hspace
  simp only [isSpace, Bool.not_eq_false, Bool.or_eq_true, beq_iff_eq] at hspace
  rcases hspace with ((rfl | rfl) | rfl) | rfl
  all_goals exact absurd h (by decide)

section Reading

variable {token : Token} {ts us : List Token} {text more rest : List Char}

/-- A token is read off the front of a text, a number only where nothing goes on with it. -/
theorem Token.Spelled.tokenAt (h : token.Spelled text)
    (hrest : token.isNumber = true → Stops rest) :
    ∃ c front, text = c :: front ∧ isSpace c = false ∧
      Json.tokenAt c (front ++ rest) = (token, rest) := by
  cases h with
  | number h =>
    obtain ⟨c, front, rfl, hc⟩ := h.eq_cons
    exact ⟨c, front, rfl, isSpace_numeral hc, tokenAt_numeral hc (h.scan (hrest rfl))⟩
  | string h => exact ⟨_, _, rfl, rfl, h.stringToken rest⟩
  | _ => exact ⟨_, _, rfl, rfl, rfl⟩

theorem stops_of_isSpace {c : Char} (hc : isSpace c = true) (text : List Char) :
    Stops (c :: text) := by
  simp only [isSpace, Bool.or_eq_true, beq_iff_eq] at hc
  rcases hc with ((rfl | rfl) | rfl) | rfl
  all_goals exact .cons (by decide) text

/-- A token that is not a number does not go on with one. -/
theorem Token.Spelled.stops (h : token.Spelled text) (htoken : token.isNumber = false)
    (rest : List Char) : Stops (text ++ rest) := by
  cases h with
  | number => cases htoken
  | _ => exact .cons (by decide) _

theorem Spaced.stops (h : Spaced ts text) (hts : ∀ t ∈ ts.head?, t.isNumber = false) :
    Stops text := by
  cases h with
  | nil => exact .nil
  | space hc _ => exact stops_of_isSpace hc _
  | token hfront _ => exact hfront.stops (hts _ rfl) _

theorem Spaced.append (h : Spaced ts text) (hmore : Spaced us more) :
    Spaced (ts ++ us) (text ++ more) := by
  induction h with
  | nil => exact hmore
  | space hc _ ih => exact .space hc ih
  | token hfront _ ih =>
    rw [List.append_assoc]
    exact .token hfront ih

theorem Spaced.of_isSpace (h : ∀ c ∈ text, isSpace c = true) : Spaced [] text := by
  induction text with
  | nil => exact .nil
  | cons c text ih =>
    obtain ⟨hc, htext⟩ := List.forall_mem_cons.mp h
    exact .space hc (ih htext)

/-- Given a step for each character, the tokens of a text are the ones that it is written with. -/
theorem Spaced.tokensWithin (h : Spaced ts text)
    (hts : ts.IsChain fun t u => t.isNumber = true → u.isNumber = false) :
    ∀ size, text.length ≤ size → Json.tokensWithin size text = ts := by
  induction h with
  | nil => rintro (- | size) - <;> rfl
  | space hc _ ih =>
    rintro (- | size) hsize
    · cases hsize
    · rw [Json.tokensWithin, if_pos hc]
      exact ih hts size (Nat.le_of_succ_le_succ hsize)
  | @token token ts front text hfront htext ih =>
    obtain ⟨hhead, htail⟩ := List.isChain_cons.mp hts
    have hrest : token.isNumber = true → Stops text := fun hnumber =>
      htext.stops fun t ht => hhead t ht hnumber
    obtain ⟨c, front, rfl, hc, htoken⟩ := hfront.tokenAt hrest
    rintro (- | size) hsize
    · cases hsize
    · have hleft : text.length ≤ size := by
        simp only [List.cons_append, List.length_cons, List.length_append] at hsize
        omega
      rw [List.cons_append, Json.tokensWithin, hc, htoken]
      exact congrArg (token :: ·) (ih htail size hleft)

end Reading

/-! ### From what is read to what is written -/

theorem of_word {token found : Token} {letters text rest : List Char}
    (h : word token letters text = (found, rest)) (hfound : found.isBroken = false) :
    found = token ∧ text = letters ++ rest := by
  induction letters generalizing text with
  | nil =>
    cases h
    exact ⟨rfl, rfl⟩
  | cons c letters ih =>
    cases text with
    | nil =>
      cases h
      cases hfound
    | cons d text =>
      rw [word] at h
      split at h
      · rename_i hcd
        obtain ⟨htoken, rfl⟩ := ih h
        exact ⟨htoken, by rw [hcd]; rfl⟩
      · cases h
        cases hfound

theorem of_stringToken {token : Token} {text rest : List Char}
    (h : stringToken text = (token, rest)) (htoken : token.isBroken = false) :
    ∃ front, token.Spelled ('"' :: front) ∧ text = front ++ rest := by
  unfold stringToken at h
  split at h
  · rename_i hunits
    cases h
    obtain ⟨front, hfront, rfl⟩ := stringText_of_units hunits
    exact ⟨front, .string hfront, rfl⟩
  · cases h
    cases htoken

theorem of_tokenAt {c : Char} {token : Token} {text rest : List Char}
    (h : tokenAt c text = (token, rest)) (htoken : token.isBroken = false) :
    ∃ front, token.Spelled (c :: front) ∧ text = front ++ rest := by
  unfold tokenAt at h
  split at h
  case h_7 =>
    obtain ⟨rfl, rfl⟩ := of_word h htoken
    exact ⟨_, .null, rfl⟩
  case h_8 =>
    obtain ⟨rfl, rfl⟩ := of_word h htoken
    exact ⟨_, .boolTrue, rfl⟩
  case h_9 =>
    obtain ⟨rfl, rfl⟩ := of_word h htoken
    exact ⟨_, .boolFalse, rfl⟩
  case h_10 => exact of_stringToken h htoken
  case h_11 =>
    split at h
    · rename_i hc
      split at h
      · rename_i hscan
        cases h
        obtain ⟨front, hfront, heq⟩ := Literal.spelled_of_scan hscan
        obtain ⟨d, more, rfl, -⟩ := hfront.eq_cons
        obtain ⟨rfl, rfl⟩ := List.cons.inj heq
        exact ⟨more, .number hfront, rfl⟩
      · cases h
        cases htoken
    · cases h
      cases htoken
  all_goals
    cases h
    exact ⟨[], by constructor, rfl⟩

theorem spaced_of_tokensWithin {size : Nat} {text : List Char} (hsize : text.length ≤ size)
    (h : ∀ t ∈ tokensWithin size text, t.isBroken = false) :
    Spaced (tokensWithin size text) text := by
  induction size generalizing text with
  | zero =>
    obtain rfl := List.length_eq_zero_iff.mp (Nat.le_zero.mp hsize)
    exact .nil
  | succ size ih =>
    cases text with
    | nil => exact .nil
    | cons c text =>
      rw [tokensWithin] at h ⊢
      split at h
      · rename_i hc
        rw [if_pos hc]
        exact .space hc (ih (Nat.le_of_succ_le_succ hsize) h)
      · rename_i hc
        rw [if_neg hc]
        generalize hpair : tokenAt c text = pair at h ⊢
        obtain ⟨token, rest⟩ := pair
        obtain ⟨htoken, hmore⟩ := List.forall_mem_cons.mp h
        obtain ⟨front, hfront, rfl⟩ := of_tokenAt hpair htoken
        rw [List.length_cons, List.length_append] at hsize
        exact .token hfront (ih (by omega) hmore)

/-- Tokens that can be read are those of every text that they are written as, and of no other. -/
theorem Readable.tokens_eq_iff {ts : List Token} (h : Readable ts) {text : List Char} :
    tokens text = ts ↔ Spaced ts text := by
  constructor
  · rintro rfl
    exact spaced_of_tokensWithin le_rfl h.whole
  · exact fun hspaced => hspaced.tokensWithin h.apart text.length le_rfl

end Headroom.Json
