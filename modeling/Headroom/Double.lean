/-!
Floating numbers with 53 significant bits, as far as whole numbers need them: the nearest one, and
the bound from which on there is none.
-/

namespace Headroom.Double

/-- The least whole number that is too large: half a unit of the last place past the greatest
floating number. -/
def limit : Nat := Nat.pow 2 1024 - Nat.pow 2 970

/-- The nearest number with 53 significant bits; halfway it is the even one. -/
def round (n : Nat) : Nat :=
  if n.log2 < 53 then n
  else
    let unit := Nat.pow 2 (n.log2 - 52)
    let quotient := n / unit
    let rest := n % unit
    if unit < 2 * rest ∨ (unit = 2 * rest ∧ quotient % 2 = 1) then (quotient + 1) * unit
    else quotient * unit

end Headroom.Double
