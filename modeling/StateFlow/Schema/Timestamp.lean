/-!
# Timestamps

A timestamp is a date, the letter `T` and a time of day with its offset from universal time. The
sixtieth second is allowed only where universal time is 23:59. A digit is a byte between `0x30`
and `0x3F`, and its value is what it is above `0x30`; only the digits of a fraction are strict.
-/

namespace StateFlow.Schema.Timestamp

def digit? (b : Nat) : Option Nat := if 0x30 ≤ b ∧ b ≤ 0x3F then some (b - 0x30) else none

def pair? (a b : Nat) : Option Nat := do return (← digit? a) * 10 + (← digit? b)

def isLeapYear (year : Nat) : Bool := year % 4 = 0 && (year % 100 ≠ 0 || year % 400 = 0)

def daysInMonth (year month : Nat) : Nat :=
  if month = 2 then (if isLeapYear year then 29 else 28)
  else if month = 4 ∨ month = 6 ∨ month = 9 ∨ month = 11 then 30
  else 31

def isDate : List Nat → Bool
  | [y₀, y₁, y₂, y₃, h₁, m₀, m₁, h₂, d₀, d₁] =>
    match pair? y₀ y₁, pair? y₂ y₃, pair? m₀ m₁, pair? d₀ d₁ with
    | some century, some year, some month, some day =>
      h₁ = 0x2D && h₂ = 0x2D && 1 ≤ month && month ≤ 12 && 1 ≤ day
        && day ≤ daysInMonth (century * 100 + year) month
    | _, _, _, _ => false
  | _ => false

structure Clock where
  hour : Nat
  minute : Nat
  second : Nat

/-- Whether universal time is 23:59 at a clock that is `ahead` minutes before it. -/
def Clock.endsDay (t : Clock) (ahead : Int) : Bool :=
  ((t.hour * 60 + t.minute : Nat) - ahead) % 1440 = 1439

/-- Whether the sixtieth second, if it is that, stands at the end of a day. -/
def Clock.leapAllowed (t : Clock) (ahead : Int) : Bool := t.second ≠ 60 || t.endsDay ahead

def isOffset (t : Clock) : List Nat → Bool
  | [z] => (z = 0x5A || z = 0x7A) && t.leapAllowed 0
  | [sign, h₀, h₁, colon, m₀, m₁] =>
    match pair? h₀ h₁, pair? m₀ m₁ with
    | some hour, some minute =>
      colon = 0x3A && hour ≤ 23 && minute ≤ 59
        && ((sign = 0x2B && t.leapAllowed (hour * 60 + minute : Nat))
          || (sign = 0x2D && t.leapAllowed (-(hour * 60 + minute : Nat))))
    | _, _ => false
  | _ => false

private def isStrictDigit (b : Nat) : Bool := 0x30 ≤ b && b ≤ 0x39

/-- What follows the fraction of a second, if there is one; a fraction has a digit. -/
def afterFraction? : List Nat → Option (List Nat)
  | 0x2E :: b :: rest => if isStrictDigit b then some (rest.dropWhile isStrictDigit) else none
  | [0x2E] => none
  | rest => some rest

def isTime : List Nat → Bool
  | h₀ :: h₁ :: c₁ :: m₀ :: m₁ :: c₂ :: s₀ :: s₁ :: rest =>
    match pair? h₀ h₁, pair? m₀ m₁, pair? s₀ s₁, afterFraction? rest with
    | some hour, some minute, some second, some offset =>
      c₁ = 0x3A && c₂ = 0x3A && hour ≤ 23 && minute ≤ 59 && second ≤ 60
        && isOffset ⟨hour, minute, second⟩ offset
    | _, _, _, _ => false
  | _ => false

private def isDivider (b : Nat) : Bool := b = 0x54 || b = 0x74

def isTimestamp (bytes : List Nat) : Bool :=
  match bytes.dropWhile (fun b => !isDivider b) with
  | [] => false
  | _ :: time => isDate (bytes.takeWhile fun b => !isDivider b) && isTime time

def accepts (text : String) : Bool :=
  isTimestamp (text.toUTF8.toList.map UInt8.toNat)

end StateFlow.Schema.Timestamp
