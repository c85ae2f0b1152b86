import Mathlib
import Headroom.Json.Token
import Headroom.Json.Value

/-! How strings are written between quotes: each part of a string is a character as it is, a
character behind a backslash, or a code unit in four digits. A reader finds the parts that are
written, up to the quote that closes them. -/

namespace Headroom.Json

/-- The text of a part of a string. -/
inductive CodeUnit.Spelled : CodeUnit → List Char → Prop
  | plain {c : Char} (hquote : c ≠ '"') (hslash : c ≠ '\\') (h : 0x20 ≤ c.toNat) :
    Spelled (.char c) [c]
  | letter {c d : Char} (h : escaped? d = some c) : Spelled (.char c) ['\\', d]
  | code {a b c d : Char} {n : Nat} (h : hexValue4? a b c d = some n) :
    Spelled (.code n) ['\\', 'u', a, b, c, d]

/-- The text of some parts and of the quote that closes them. -/
inductive StringText : List CodeUnit → List Char → Prop
  | close : StringText [] ['"']
  | part {part : CodeUnit} {parts : List CodeUnit} {text more : List Char}
    (h : part.Spelled text) (hparts : StringText parts more) :
    StringText (part :: parts) (text ++ more)

theorem CodeUnit.Spelled.units {part : CodeUnit} {text : List Char} (h : part.Spelled text)
    (rest : List Char) :
    Json.units (text ++ rest) = (part :: (Json.units rest).1, (Json.units rest).2) := by
  cases h with
  | @plain c hquote hslash h =>
    rw [List.cons_append, Json.units, if_neg (Nat.not_lt.mpr h)]
    · rfl
    all_goals simp [hquote, hslash]
  | @letter c d h =>
    have hu : d ≠ 'u' := by
      rintro rfl
      cases h
    rw [List.cons_append, List.cons_append, Json.units]
    · rw [h]
      rfl
    · exact fun _ _ _ _ _ heq _ => hu heq
    · exact hu
  | code h =>
    simp only [List.cons_append, List.nil_append]
    rw [Json.units, h]

namespace StringText

variable {parts : List CodeUnit} {text : List Char}

theorem units (h : StringText parts text) (rest : List Char) :
    Json.units (text ++ rest) = (parts, .closed rest) := by
  induction h with
  | close => rfl
  | part hpart _ ih => rw [List.append_assoc, hpart.units, ih]

theorem stringToken (h : StringText parts text) (rest : List Char) :
    Json.stringToken (text ++ rest) = (.string ((textOf? none parts).map .ofList), rest) := by
  rw [Json.stringToken, h.units]

end StringText

/-- What a reader finds is written there. -/
theorem stringText_of_units {text rest : List Char} {parts : List CodeUnit}
    (h : units text = (parts, .closed rest)) :
    ∃ front, StringText parts front ∧ text = front ++ rest := by
  fun_induction units text generalizing parts with
  | case3 text =>
    cases h
    exact ⟨['"'], .close, rfl⟩
  | case4 a b c d text n hcode us e heq ih =>
    cases h
    obtain ⟨front, hfront, rfl⟩ := ih heq
    exact ⟨_, .part (.code hcode) hfront, rfl⟩
  | case7 d text _ _ c hletter us e heq ih =>
    cases h
    obtain ⟨front, hfront, rfl⟩ := ih heq
    exact ⟨_, .part (.letter hletter) hfront, rfl⟩
  | case10 c text hend hquote _ _ hescape hcontrol us e heq ih =>
    cases h
    have hslash : c ≠ '\\' := by
      rintro rfl
      cases text with
      | nil => exact hend rfl rfl
      | cons d text => exact hescape d text rfl rfl
    obtain ⟨front, hfront, rfl⟩ := ih heq
    exact ⟨_, .part (.plain hquote hslash (Nat.not_lt.mp hcontrol)) hfront, rfl⟩
  | _ => cases h

/-! ### Strings as they are written out -/

/-- What a reader finds for a written character: an escaped code unit for a control character
without a letter of its own, else the character. -/
def CodeUnit.ofChar (c : Char) : CodeUnit :=
  if c.toNat < 0x20 ∧ c ∉ ['\n', '\r', '\t', '\x08', '\x0c'] then .code c.toNat else .char c

theorem hexValue?_digitChar : ∀ n < 16, hexValue? (Nat.digitChar n) = some n := by
  decide

theorem hexValue4?_control {n : Nat} (h : n < 0x20) :
    hexValue4? '0' '0' (Nat.digitChar (n / 16)) (Nat.digitChar (n % 16)) = some n := by
  have hzero : hexValue? '0' = some 0 := rfl
  have hhigh := hexValue?_digitChar (n / 16) (by omega)
  have hlow := hexValue?_digitChar (n % 16) (by omega)
  simp only [hexValue4?, hzero, hhigh, hlow, Option.bind_eq_bind, Option.bind_some, Option.pure_def,
    Option.some.injEq]
  omega

theorem escape_eq_self_iff (c : Char) :
    escape c = [c] ↔ c ≠ '"' ∧ c ≠ '\\' ∧ 0x20 ≤ c.toNat := by
  unfold escape
  split
  case h_8 _ hquote hslash _ _ _ _ _ =>
    by_cases hcontrol : c.toNat < 0x20
    · simp [hcontrol]
    · rw [if_neg hcontrol]
      exact ⟨fun _ => ⟨hquote, hslash, Nat.le_of_not_lt hcontrol⟩, fun _ => rfl⟩
  all_goals decide

theorem spelled_escape (c : Char) : (CodeUnit.ofChar c).Spelled (escape c) := by
  unfold escape
  split
  case h_8 _ hquote hslash hn hr ht hb hf =>
    unfold CodeUnit.ofChar
    by_cases hcontrol : c.toNat < 0x20
    · rw [if_pos hcontrol, if_pos ⟨hcontrol, by simp; tauto⟩]
      exact .code (hexValue4?_control hcontrol)
    · rw [if_neg hcontrol, if_neg fun h => hcontrol h.1]
      exact .plain hquote hslash (Nat.not_lt.mp hcontrol)
  -- a letter stands for each of the others
  all_goals exact .letter rfl

theorem stringText_escape (text : List Char) :
    StringText (text.map .ofChar) (text.flatMap escape ++ ['"']) := by
  induction text with
  | nil => exact .close
  | cons c text ih =>
    rw [List.flatMap_cons, List.append_assoc]
    exact .part (spelled_escape c) ih

theorem textOf?_ofChar (text : List Char) : textOf? none (text.map .ofChar) = some text := by
  induction text with
  | nil => rfl
  | cons c rest ih =>
    rw [List.map_cons, CodeUnit.ofChar]
    split
    · rename_i hcontrol
      have hleading : isLeading c.toNat = false := by
        have := hcontrol.1
        simp [isLeading]
        omega
      have htrailing : isTrailing c.toNat = false := by
        have := hcontrol.1
        simp [isTrailing]
        omega
      rw [textOf?, hleading, htrailing, ih, Char.ofNat_toNat]
      rfl
    · rw [textOf?, ih]
      rfl

/-- A string is read back from what it is quoted as. -/
theorem textOf?_quote (s : String) :
    (textOf? none (s.toList.map .ofChar)).map String.ofList = some s := by
  rw [textOf?_ofChar, Option.map_some, String.ofList_toList]

end Headroom.Json
