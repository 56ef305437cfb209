import StateFlow.Number.Binary64

/-!
# Rounding to doubles

A decimal is rounded to the nearest double by exact arithmetic; of two doubles that are equally near
the one with the even significand is taken.
-/

namespace StateFlow.Binary64

def ofBits? (bits : UInt64) : Option Binary64 :=
  if h : (bits >>> 52) &&& 0x7FF ≠ 0x7FF then some ⟨bits, h⟩ else none

/-- The natural nearest to a quotient; a half goes to the even neighbour. -/
def roundQuotient (n d : Nat) : Nat :=
  let q := n / d
  let twice := 2 * (n % d)
  if twice > d ∨ (twice = d ∧ q % 2 = 1) then q + 1 else q

/-- The exponent of the greatest power of two that is not above a quotient of positive numbers. -/
private def quotientLog (n d : Nat) : Int :=
  let guess : Int := (n.log2 : Int) - d.log2
  if n * Nat.pow 2 (-guess).toNat < d * Nat.pow 2 guess.toNat then guess - 1 else guess

def ofQuotient? (negative : Bool) (n d : Nat) : Option Binary64 :=
  if n = 0 then some (if negative then negativeZero else zero)
  else
    let exponent := max (quotientLog n d - 52) (-1074)
    let steps := roundQuotient (n * Nat.pow 2 (-exponent).toNat) (d * Nat.pow 2 exponent.toNat)
    let magnitude := (exponent + 1074).toNat * 0x10000000000000 + steps
    if magnitude ≥ 0x7FF0000000000000 then none
    else ofBits? (UInt64.ofNat (magnitude + if negative then 0x8000000000000000 else 0))

/-- The double nearest to `digits * 10 ^ exponent`, unless that is too great for one. Decimals far
outside the range of doubles are told by their length alone. -/
def ofDecimal? (negative : Bool) (digits : Nat) (exponent : Int) : Option Binary64 :=
  let length : Int := (Nat.toDigits 10 digits).length
  if digits = 0 ∨ length + exponent < -400 then some (if negative then negativeZero else zero)
  else if length + exponent > 400 then none
  else ofQuotient? negative (digits * Nat.pow 10 exponent.toNat) (Nat.pow 10 (-exponent).toNat)

end StateFlow.Binary64
