/-!
Arithmetic in the signed word of 64 bits. A quantity is an integer; an operation that has to
stay inside the word either reports a `Fault` or clamps, and which of the two it does is part of
its name.
-/

namespace Headroom

/-- What stops a computation whose exact result has no place in its word or its calendar. -/
inductive Fault where
  | addition
  | subtraction
  | division
  | calendar
  deriving DecidableEq

/-- The text that a computation leaves behind when a fault stops it. -/
def Fault.message : Fault → String
  | .addition => "attempt to add with overflow"
  | .subtraction => "attempt to subtract with overflow"
  | .division => "attempt to divide with overflow"
  | .calendar => "`DateTime + TimeDelta` overflowed"

namespace Word

/-- The least value of the signed word. -/
def least : Int := -9223372036854775808

/-- The greatest value of the signed word. -/
def greatest : Int := 9223372036854775807

/-- The integer has a place in the signed word. -/
def Fits (x : Int) : Prop := least ≤ x ∧ x ≤ greatest

instance (x : Int) : Decidable (Fits x) := inferInstanceAs (Decidable (_ ∧ _))

/-- The value of the signed word that is nearest to `x`. -/
def clamp (x : Int) : Int := max least (min x greatest)

/-- An unsigned word read as a signed one: from 2^63 on the value falls by 2^64. -/
def signed (n : UInt64) : Int := n.toInt64.toInt

/-- The sum, or a fault when it leaves the word. -/
def add (x y : Int) : Except Fault Int :=
  if Fits (x + y) then .ok (x + y) else .error .addition

/-- The difference, or a fault when it leaves the word. -/
def sub (x y : Int) : Except Fault Int :=
  if Fits (x - y) then .ok (x - y) else .error .subtraction

/-- The quotient rounded so that the remainder is not negative, or a fault when it leaves the
word. Only the least value divided by -1 does. -/
def div (x y : Int) : Except Fault Int :=
  if Fits (x / y) then .ok (x / y) else .error .division

/-- The quotient rounded toward zero, or a fault when it leaves the word. -/
def quot (x y : Int) : Except Fault Int :=
  if Fits (x.tdiv y) then .ok (x.tdiv y) else .error .division

/-- The sum of unsigned words, or a fault when it reaches 2^64. -/
def total (ns : List UInt64) : Except Fault UInt64 :=
  let sum := ns.foldr (fun n sum => n.toNat + sum) 0
  if sum < UInt64.size then .ok (UInt64.ofNat sum) else .error .addition

theorem clamp_of_fits {x : Int} (h : Fits x) : clamp x = x := by
  unfold Fits at h; unfold clamp; omega

theorem fits_clamp (x : Int) : Fits (clamp x) := by
  unfold Fits clamp least greatest; omega

theorem clamp_mono {x y : Int} (h : x ≤ y) : clamp x ≤ clamp y := by
  unfold clamp; omega

end Word

end Headroom
