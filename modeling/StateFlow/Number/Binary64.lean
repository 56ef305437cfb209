/-!
# Finite doubles

A finite double is kept as its bits, so that it can be compared and printed by exact arithmetic on
naturals: its value is `± significand * 2 ^ exponent`.
-/

namespace StateFlow

/-- A finite number of the 64-bit binary format. -/
structure Binary64 where
  bits : UInt64
  finite : (bits >>> 52) &&& 0x7FF ≠ 0x7FF
deriving DecidableEq

namespace Binary64

def ofFloat? (x : Float) : Option Binary64 :=
  if h : (x.toBits >>> 52) &&& 0x7FF ≠ 0x7FF then some ⟨x.toBits, h⟩ else none

def zero : Binary64 := ⟨0, by decide⟩

def negativeZero : Binary64 := ⟨0x8000000000000000, by decide⟩

def isNegative (x : Binary64) : Bool := x.bits >>> 63 = 1

def exponentField (x : Binary64) : Nat := ((x.bits >>> 52) &&& 0x7FF).toNat

def fractionField (x : Binary64) : Nat := (x.bits &&& 0xFFFFFFFFFFFFF).toNat

/-- The integer `m` in `± m * 2 ^ e`. -/
def significand (x : Binary64) : Nat :=
  if x.exponentField = 0 then x.fractionField else 0x10000000000000 + x.fractionField

/-- The exponent `e` in `± m * 2 ^ e`. -/
def exponent (x : Binary64) : Int :=
  if x.exponentField = 0 then -1074 else (x.exponentField : Int) - 1075

/-- Whether the neighbour below is half as far away as the neighbour above. -/
def narrowBelow (x : Binary64) : Bool :=
  x.fractionField = 0 && x.exponentField > 1

def floor (x : Binary64) : Nat :=
  x.significand * Nat.pow 2 x.exponent.toNat / Nat.pow 2 (-x.exponent).toNat

def isWhole (x : Binary64) : Bool :=
  x.significand * Nat.pow 2 x.exponent.toNat % Nat.pow 2 (-x.exponent).toNat = 0

def isZero (x : Binary64) : Bool := x.significand = 0

/-- Whether the number is below a natural, compared exactly. -/
def ltNat (x : Binary64) (n : Nat) : Bool :=
  if x.isNegative then !x.isZero || n > 0
  else x.significand * Nat.pow 2 x.exponent.toNat < n * Nat.pow 2 (-x.exponent).toNat

def gtNat (x : Binary64) (n : Nat) : Bool :=
  !x.isNegative && x.significand * Nat.pow 2 x.exponent.toNat > n * Nat.pow 2 (-x.exponent).toNat

end Binary64

end StateFlow
