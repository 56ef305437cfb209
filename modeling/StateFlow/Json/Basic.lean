import StateFlow.Entries
import StateFlow.Number.Decimal

/-!
# Json values

A number is an integer of 64 bits, signed or unsigned, or a finite double; the members of an object
keep their order.
-/

namespace StateFlow

/-- An integer that fits 64 bits, signed or unsigned, or a finite double. -/
inductive Number where
  | int (value : Int) (fits : -0x8000000000000000 ≤ value ∧ value < 0x10000000000000000)
  | float (value : Binary64)
deriving DecidableEq

namespace Number

def ofInt? (n : Int) : Option Number :=
  if h : -0x8000000000000000 ≤ n ∧ n < 0x10000000000000000 then some (.int n h) else none

def ofWord (n : UInt64) : Number :=
  .int n.toNat ⟨by omega, by have := n.toNat_lt; omega⟩

def text : Number → List Char
  | .int n _ => if n < 0 then '-' :: Nat.toDigits 10 n.natAbs else Nat.toDigits 10 n.natAbs
  | .float x => x.text

def isWhole : Number → Bool
  | .int _ _ => true
  | .float x => x.isWhole

def ltNat : Number → Nat → Bool
  | .int n _, bound => n < bound
  | .float x, bound => x.ltNat bound

def gtNat : Number → Nat → Bool
  | .int n _, bound => n > bound
  | .float x, bound => x.gtNat bound

/-- The word a number stands for. A double has to be whole and not negative, and may be at most
`2 ^ 64`, which is taken down to the greatest word. -/
def toWord? : Number → Option UInt64
  | .int n _ => if n < 0 then none else some (UInt64.ofNat n.toNat)
  | .float x =>
    if x.ltNat 0 || !x.isWhole || x.gtNat 0x10000000000000000 then none
    else some (UInt64.ofNat (min x.floor 0xFFFFFFFFFFFFFFFF))

end Number

inductive Json where
  | null
  | bool (value : Bool)
  | num (value : Number)
  | str (value : String)
  | arr (items : List Json)
  | obj (members : List (String × Json))

namespace Json

inductive Kind where
  | null | boolean | number | string | array | object
deriving DecidableEq

def Kind.name : Kind → String
  | .null => "null"
  | .boolean => "boolean"
  | .number => "number"
  | .string => "string"
  | .array => "array"
  | .object => "object"

def kind : Json → Kind
  | null => .null
  | bool _ => .boolean
  | num _ => .number
  | str _ => .string
  | arr _ => .array
  | obj _ => .object

def get? : Json → String → Option Json
  | obj members, key => Entries.get? members key
  | _, _ => none

def asString? : Json → Option String
  | str s => some s
  | _ => none

def ofWord (n : UInt64) : Json := num (.ofWord n)

mutual

/-- Every object inside a value names each of its members once. -/
def WellFormed : Json → Prop
  | arr items => WellFormedItems items
  | obj members => Entries.Distinct members ∧ WellFormedMembers members
  | _ => True

def WellFormedItems : List Json → Prop
  | [] => True
  | v :: rest => WellFormed v ∧ WellFormedItems rest

def WellFormedMembers : List (String × Json) → Prop
  | [] => True
  | (_, v) :: rest => WellFormed v ∧ WellFormedMembers rest

end

mutual

/-- How many containers are nested in one another. -/
def depth : Json → Nat
  | arr items => depthItems items + 1
  | obj members => depthMembers members + 1
  | _ => 0

def depthItems : List Json → Nat
  | [] => 0
  | v :: rest => max (depth v) (depthItems rest)

def depthMembers : List (String × Json) → Nat
  | [] => 0
  | (_, v) :: rest => max (depth v) (depthMembers rest)

end

end Json

end StateFlow
