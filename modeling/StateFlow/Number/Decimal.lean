import StateFlow.Number.Binary64

/-!
# Shortest decimals

The text of a double uses the fewest digits that still identify it. The reals that round to the
double form an interval; the digits are found by trying ever finer decimal grids until one of the
two grid points around the value falls into it.
-/

namespace StateFlow

structure Decimal where
  digits : Nat
  exponent : Int
deriving DecidableEq

namespace Decimal

/-- The fraction `n * 2 ^ p * 10 ^ d`, as numerator and denominator. -/
private def fraction (n : Nat) (p d : Int) : Nat × Nat :=
  (n * Nat.pow 2 p.toNat * Nat.pow 10 d.toNat, Nat.pow 2 (-p).toNat * Nat.pow 10 (-d).toNat)

private def compareFractions (a b : Nat × Nat) : Ordering :=
  compare (a.1 * b.2) (b.1 * a.2)

/-- Whether a decimal lies among the reals that round to the magnitude of a double. -/
def roundsTo (d : Decimal) (x : Binary64) : Bool :=
  let point := fraction d.digits 0 d.exponent
  let below := if x.narrowBelow then 4 * x.significand - 1 else 4 * x.significand - 2
  let low := compareFractions (fraction below (x.exponent - 2) 0) point
  let high := compareFractions point (fraction (4 * x.significand + 2) (x.exponent - 2) 0)
  let closed := x.significand % 2 = 0
  (low = .lt || (closed && low = .eq)) && (high = .lt || (closed && high = .eq))

private def width (n : Nat) : Nat := (Nat.toDigits 10 n).length

/-- The number of multiplications by ten, at most `bound`, that take `n` to `target`. -/
private def tensUpTo (target : Nat) : (bound : Nat) → (n : Nat) → Nat
  | 0, _ => 0
  | bound + 1, n => if n ≥ target then 0 else tensUpTo target bound (n * 10) + 1

/-- The decimal exponent of the leading digit of a positive magnitude. -/
def leadingExponent (x : Binary64) : Int :=
  if x.floor > 0 then (width x.floor : Int) - 1
  else -(tensUpTo (Nat.pow 2 (-x.exponent).toNat) 400 x.significand : Int)

/-- The point of the grid `10 ^ g` next to the value that rounds to the double, the nearer one if
both do, and the even one if they are equally near. -/
private def onGrid (x : Binary64) (g : Int) : Option Decimal :=
  let value := fraction x.significand x.exponent (-g)
  let down : Decimal := ⟨value.1 / value.2, g⟩
  let up : Decimal := ⟨value.1 / value.2 + 1, g⟩
  match down.roundsTo x, up.roundsTo x with
  | true, false => some down
  | false, true => some up
  | false, false => none
  | true, true =>
    match compare (2 * (value.1 % value.2)) value.2 with
    | .lt => some down
    | .gt => some up
    | .eq => if down.digits % 2 = 0 then some down else some up

private def stripZeros : (bound : Nat) → Decimal → Decimal
  | 0, d => d
  | bound + 1, d =>
    if d.digits ≠ 0 ∧ d.digits % 10 = 0 then stripZeros bound ⟨d.digits / 10, d.exponent + 1⟩ else d

/-- The exact value of a double with a negative binary exponent, or of a whole one. -/
private def exact (x : Binary64) : Decimal :=
  if x.exponent < 0 then ⟨x.significand * Nat.pow 5 (-x.exponent).toNat, x.exponent⟩
  else ⟨x.significand * Nat.pow 2 x.exponent.toNat, 0⟩

def shortest (x : Binary64) : Decimal :=
  let lead := leadingExponent x
  let found := (List.range 17).findSome? fun (n : Nat) => onGrid x (lead - n)
  stripZeros 400 (found.getD (exact x))

/-- Positional notation between `10 ^ -5` and `10 ^ 16`, with a fraction always shown; a signed
exponent outside that range. -/
def layout (d : Decimal) : List Char :=
  let digits := Nat.toDigits 10 d.digits
  let lead := d.exponent + digits.length - 1
  if lead < -5 ∨ lead ≥ 16 then
    let mantissa := match digits with
      | [] => []
      | [first] => [first]
      | first :: rest => first :: '.' :: rest
    let sign := if lead < 0 then '-' else '+'
    mantissa ++ ['e', sign] ++ Nat.toDigits 10 lead.natAbs
  else if lead < 0 then
    ['0', '.'] ++ List.replicate (lead.natAbs - 1) '0' ++ digits
  else if d.exponent ≥ 0 then
    digits ++ List.replicate d.exponent.toNat '0' ++ ['.', '0']
  else
    digits.take (lead.toNat + 1) ++ ['.'] ++ digits.drop (lead.toNat + 1)

end Decimal

namespace Binary64

def text (x : Binary64) : List Char :=
  let magnitude := if x.isZero then ['0', '.', '0'] else (Decimal.shortest x).layout
  if x.isNegative then '-' :: magnitude else magnitude

end Binary64

end StateFlow
