/-!
Numbers in decimal digits: the value of a run of digits, and a number at a least width.
-/

namespace Headroom.Decimal

def value (digits : List Char) : Nat := Nat.ofDigitChars 10 digits 0

/-- The digits of `n`, after zeros up to `width` characters. -/
def padded (width n : Nat) : List Char := (Nat.toDigits 10 n).leftpad width '0'

theorem value_toDigits (n : Nat) : value (Nat.toDigits 10 n) = n :=
  Nat.ofDigitChars_toDigits (by decide) (by decide)

end Headroom.Decimal
