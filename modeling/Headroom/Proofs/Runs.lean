import Mathlib

/-! The run of characters of one kind at the front of a text. There is one way to split a text into
such a run and a rest that does not go on with it. -/

namespace Headroom.Text

/-- The text is a run of characters with a property and a rest that begins with another one. -/
structure Splits (p : Char → Bool) (text run rest : List Char) : Prop where
  eq : text = run ++ rest
  run : ∀ c ∈ run, p c = true
  rest : ∀ c ∈ rest.head?, p c = false

variable {p : Char → Bool} {text run rest : List Char}

theorem splits (p : Char → Bool) (text : List Char) :
    Splits p text (text.takeWhile p) (text.dropWhile p) where
  eq := List.takeWhile_append_dropWhile.symm
  run _ hc := List.mem_takeWhile_imp hc
  rest c hc := by
    have hhead := List.head?_dropWhile_not p text
    rw [show (text.dropWhile p).head? = some c from hc] at hhead
    simpa using hhead

theorem Splits.takeWhile_eq (h : Splits p text run rest) : text.takeWhile p = run := by
  rw [h.eq, List.takeWhile_append_of_pos h.run]
  cases rest with
  | nil => rw [List.takeWhile_nil, List.append_nil]
  | cons c rest => rw [List.takeWhile_cons_of_neg (by simp [h.rest c rfl]), List.append_nil]

theorem Splits.dropWhile_eq (h : Splits p text run rest) : text.dropWhile p = rest := by
  rw [h.eq, List.dropWhile_append_of_pos h.run]
  cases rest with
  | nil => rfl
  | cons c rest => rw [List.dropWhile_cons_of_neg (by simp [h.rest c rfl])]

/-- There is one way to split a text. -/
theorem splits_iff : Splits p text run rest ↔ run = text.takeWhile p ∧ rest = text.dropWhile p := by
  constructor
  · exact fun h => ⟨h.takeWhile_eq.symm, h.dropWhile_eq.symm⟩
  · rintro ⟨rfl, rfl⟩
    exact splits p text

theorem takeWhile_eq_nil_iff : text.takeWhile p = [] ↔ ∀ c ∈ text.head?, p c = false := by
  cases text with
  | nil => simp
  | cons c rest => by_cases hc : p c <;> simp [hc]

end Headroom.Text
