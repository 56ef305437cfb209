import StateFlow.Number.Rounding

/-!
# What plain scalars stand for

A scalar without quotes may stand for nothing, a truth value or a number; all else is text. Digits
behind a leading zero are text as well.
-/

namespace StateFlow.Yaml

/-- A number that is finite, or that no Json number stands for. -/
inductive Real where
  | finite (value : Binary64)
  /-- An infinity, or not a number. -/
  | special

def isNull (text : List Char) : Bool :=
  ["null", "Null", "NULL", "~"].any fun word => word.toList = text

def readBool? (text : List Char) : Option Bool :=
  if ["true", "True", "TRUE"].any fun word => word.toList = text then some true
  else if ["false", "False", "FALSE"].any fun word => word.toList = text then some false
  else none

private def digitValue? (base : Nat) (c : Char) : Option Nat :=
  let value :=
    if '0' ≤ c ∧ c ≤ '9' then c.toNat - '0'.toNat
    else if 'a' ≤ c ∧ c ≤ 'f' then c.toNat - 'a'.toNat + 10
    else if 'A' ≤ c ∧ c ≤ 'F' then c.toNat - 'A'.toNat + 10
    else base
  if value < base then some value else none

private def natural? (base : Nat) (text : List Char) : Option Nat :=
  if text.isEmpty then none
  else text.foldlM (fun n c => (digitValue? base c).map (n * base + ·)) 0

private def isDecimalDigit (c : Char) : Bool := '0' ≤ c && c ≤ '9'

/-- Whether a text is a leading zero with more digits, signed or not. -/
def isPaddedNumber (text : List Char) : Bool :=
  let digits := match text with
    | '-' :: rest => rest
    | '+' :: rest => rest
    | _ => text
  match digits with
  | '0' :: rest => !rest.isEmpty && rest.all isDecimalDigit
  | _ => false

/-- The natural that a text stands for behind its sign; the base may be marked. -/
private def marked? (text : List Char) : Option Nat :=
  match text with
  | '0' :: 'x' :: rest => natural? 16 rest
  | '0' :: 'o' :: rest => natural? 8 rest
  | '0' :: 'b' :: rest => natural? 2 rest
  | _ => natural? 10 text

/-- The integer of up to 128 bits that a text stands for. -/
def readInt? (text : List Char) : Option Int :=
  if isPaddedNumber text then none
  else match text with
    | '-' :: rest =>
      (marked? rest).bind fun n => if n ≤ Nat.pow 2 127 then some (-(n : Int)) else none
    | '+' :: rest => (marked? rest).bind natural
    | _ => (marked? text).bind natural
where
  natural (n : Nat) : Option Int := if n < Nat.pow 2 128 then some n else none

private def exponent? : List Char → Option Int
  | [] => some 0
  | mark :: rest =>
    if mark = 'e' ∨ mark = 'E' then
      match rest with
      | '-' :: digits => (natural? 10 digits).map fun n => -(n : Int)
      | '+' :: digits => (natural? 10 digits).map Int.ofNat
      | digits => (natural? 10 digits).map Int.ofNat
    else none

private def decimal? (negative : Bool) (text : List Char) : Option Binary64 :=
  let whole := text.takeWhile isDecimalDigit
  let rest := text.dropWhile isDecimalDigit
  let (fraction, rest) := match rest with
    | '.' :: rest => (rest.takeWhile isDecimalDigit, rest.dropWhile isDecimalDigit)
    | _ => ([], rest)
  do
    let digits ← natural? 10 (whole ++ fraction)
    let exponent ← exponent? rest
    Binary64.ofDecimal? negative digits (exponent - fraction.length)

private def isInfinity (text : List Char) : Bool :=
  [".inf", ".Inf", ".INF"].any fun word => word.toList = text

private def isNotANumber (text : List Char) : Bool :=
  [".nan", ".NaN", ".NAN"].any fun word => word.toList = text

def readReal? (text : List Char) : Option Real :=
  match text with
  | '-' :: rest => if isInfinity rest then some .special else (decimal? true rest).map .finite
  | '+' :: rest => if isInfinity rest then some .special else (decimal? false rest).map .finite
  | _ =>
    if isInfinity text || isNotANumber text then some .special
    else (decimal? false text).map .finite

inductive Plain where
  | null
  | bool (value : Bool)
  | int (value : Int)
  | real (value : Real)
  | text

def Plain.ofText (text : List Char) : Plain :=
  if text.isEmpty || isNull text then .null
  else match readBool? text with
    | some b => .bool b
    | none =>
      match readInt? text with
      | some n => .int n
      | none =>
        if isPaddedNumber text then .text
        else match readReal? text with
          | some x => .real x
          | none => .text

end StateFlow.Yaml
