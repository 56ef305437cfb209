import StateFlow.Json.Basic
import StateFlow.Text.Position

/-!
# Reading Json

A strict reader that says where and why a text is refused. Containers nest at most 127 deep; a
repeated member keeps its first place and its last value. A number that is no integer of 64 bits is
rounded in two steps: its leading digits to a double, then that double by a power of ten.
-/

namespace StateFlow.Json

open StateFlow.Text

inductive Fault.Cause where
  | endInValue
  | endInString
  | endInList
  | endInObject
  | expectedColon
  | expectedListEnd
  | expectedObjectEnd
  | expectedWord
  | expectedValue
  | invalidEscape
  | invalidNumber
  | outOfRange
  | controlCharacter
  | loneSurrogate
  | endOfHexEscape
  | keyNotString
  | trailingComma
  | trailingCharacters
  | tooDeep
deriving DecidableEq

def Fault.Cause.text : Fault.Cause → String
  | .endInValue => "EOF while parsing a value"
  | .endInString => "EOF while parsing a string"
  | .endInList => "EOF while parsing a list"
  | .endInObject => "EOF while parsing an object"
  | .expectedColon => "expected `:`"
  | .expectedListEnd => "expected `,` or `]`"
  | .expectedObjectEnd => "expected `,` or `\x7d`"
  | .expectedWord => "expected ident"
  | .expectedValue => "expected value"
  | .invalidEscape => "invalid escape"
  | .invalidNumber => "invalid number"
  | .outOfRange => "number out of range"
  | .controlCharacter => "control character (\\u0000-\\u001F) found while parsing a string"
  | .loneSurrogate => "lone leading surrogate in hex escape"
  | .endOfHexEscape => "unexpected end of hex escape"
  | .keyNotString => "key must be a string"
  | .trailingComma => "trailing comma"
  | .trailingCharacters => "trailing characters"
  | .tooDeep => "recursion limit exceeded"

structure Fault where
  cause : Fault.Cause
  pos : Position
deriving DecidableEq

def locate (text : String) (pos : Position) : String :=
  text ++ " at line " ++ toString pos.line ++ " column " ++ toString pos.column

def Fault.message (fault : Fault) : String := locate fault.cause.text fault.pos

namespace Reader

/-- A fault at the character the cursor stands on. -/
def faultAt {α : Type} (cause : Fault.Cause) (c : Cursor) : Except Fault α :=
  .error ⟨cause, c.peekPosition⟩

def isBlank (c : Char) : Bool := c = ' ' || c = '\n' || c = '\t' || c = '\r'

def skipFrom : List Char → Position → Cursor
  | [], pos => ⟨[], pos⟩
  | c :: rest, pos => if isBlank c then skipFrom rest (pos.after c) else ⟨c :: rest, pos⟩

def skipBlanks (c : Cursor) : Cursor := skipFrom c.rest c.pos

/-! ## Words -/

def word : (letters : List Char) → Cursor → Except Fault Cursor
  | [], c => .ok c
  | letter :: letters, c =>
    match c.rest with
    | [] => .error ⟨.endInValue, c.pos⟩
    | d :: rest =>
      if d = letter then word letters ⟨rest, c.pos.after d⟩
      else .error ⟨.expectedWord, c.peekPosition⟩

/-! ## Strings -/

def hexValue? (c : Char) : Option Nat :=
  if '0' ≤ c ∧ c ≤ '9' then some (c.toNat - 48)
  else if 'a' ≤ c ∧ c ≤ 'f' then some (c.toNat - 87)
  else if 'A' ≤ c ∧ c ≤ 'F' then some (c.toNat - 55)
  else none

def hexValue4? (a b c d : Char) : Option Nat := do
  return (((← hexValue? a) * 16 + (← hexValue? b)) * 16 + (← hexValue? c)) * 16 + (← hexValue? d)

def shortEscape? (c : Char) : Option Char :=
  if c = '"' then some '"'
  else if c = '\\' then some '\\'
  else if c = '/' then some '/'
  else if c = 'b' then some '\x08'
  else if c = 'f' then some '\x0c'
  else if c = 'n' then some '\n'
  else if c = 'r' then some '\r'
  else if c = 't' then some '\t'
  else none

/-- A hexadecimal escape that is cut off by the end of the text, or holds no number. -/
def hexFault (rest : List Char) (pos : Position) : Fault :=
  if rest.foldl (fun bytes c => bytes + c.utf8Size) 0 < 4 then ⟨.endInString, pos.afterAll rest⟩
  else ⟨.invalidEscape, pos.afterBytes 4 rest⟩

/-- A high surrogate that no backslash and `u` follow. -/
def pairFault (rest : List Char) (pos : Position) : Fault :=
  match rest with
  | [] => ⟨.endInString, pos⟩
  | '\\' :: rest =>
    match rest with
    | [] => ⟨.endInString, pos.skip 1⟩
    | 'u' :: rest => hexFault rest (pos.skip 2)
    | _ => ⟨.endOfHexEscape, (pos.skip 1).nextByte rest⟩
  | _ => ⟨.endOfHexEscape, pos.nextByte rest⟩

/-- Reads a string up to its closing quote; the characters read so far stand in reverse. -/
def stringBody : List Char → Position → List Char → Except Fault (String × Cursor)
  | [], pos, _ => .error ⟨.endInString, pos⟩
  | '"' :: rest, pos, read => .ok (String.ofList read.reverse, ⟨rest, pos.skip 1⟩)
  | '\\' :: 'u' :: a :: b :: c :: d :: rest, pos, read =>
    match hexValue4? a b c d with
    | none => .error (hexFault (a :: b :: c :: d :: rest) (pos.skip 2))
    | some high =>
      if high < 0xD800 ∨ 0xDFFF < high then
        stringBody rest (pos.skip 6) (Char.ofNat high :: read)
      else if 0xDBFF < high then .error ⟨.loneSurrogate, pos.skip 6⟩
      else
        match rest with
        | '\\' :: 'u' :: a' :: b' :: c' :: d' :: rest' =>
          match hexValue4? a' b' c' d' with
          | none => .error (pairFault rest (pos.skip 6))
          | some low =>
            if low < 0xDC00 ∨ 0xDFFF < low then .error ⟨.loneSurrogate, pos.skip 12⟩
            else
              let scalar := (high - 0xD800) * 0x400 + (low - 0xDC00) + 0x10000
              stringBody rest' (pos.skip 12) (Char.ofNat scalar :: read)
        | _ => .error (pairFault rest (pos.skip 6))
  | '\\' :: 'u' :: rest, pos, _ => .error (hexFault rest (pos.skip 2))
  | '\\' :: c :: rest, pos, read =>
    match shortEscape? c with
    | some d => stringBody rest (pos.skip 2) (d :: read)
    | none => .error ⟨.invalidEscape, (pos.skip 1).nextByte (c :: rest)⟩
  | ['\\'], pos, _ => .error ⟨.endInString, pos.skip 1⟩
  | c :: rest, pos, read =>
    if c.toNat < 32 then .error ⟨.controlCharacter, pos.after c⟩
    else stringBody rest (pos.after c) (c :: read)

def string (c : Cursor) : Except Fault (String × Cursor) := stringBody c.rest c.pos []

/-! ## Numbers -/

def isDigit (c : Char) : Bool := '0' ≤ c && c ≤ '9'

def digitValue (c : Char) : Nat := c.toNat - 48

/-- Takes digits into a significand of 64 bits. The first digit that does not fit ends it; the count
is that of the digits left over. -/
def takeDigits : (significand : Nat) → List Char → Nat × Nat
  | significand, [] => (significand, 0)
  | significand, c :: rest =>
    if significand * 10 + digitValue c < 0x10000000000000000 then
      takeDigits (significand * 10 + digitValue c) rest
    else (significand, (c :: rest).length)

/-- The written exponent, or the number of digits after which it exceeds 31 bits. -/
def exponentValue : (value count : Nat) → List Char → Except Nat Nat
  | value, _, [] => .ok value
  | value, count, c :: rest =>
    if value * 10 + digitValue c < 0x80000000 then
      exponentValue (value * 10 + digitValue c) (count + 1) rest
    else .error (count + 1)

/-- The double nearest to a power of ten. -/
def powerOfTen (n : Nat) : Float := Float.ofScientific 1 false n

/-- Scales a double by a power of ten, in steps of at most `10 ^ 308`. Nothing is left of a
significand after three divisions. -/
def scale : (steps : Nat) → Float → Int → Option Float
  | 0, x, _ => some x
  | steps + 1, x, e =>
    if e.natAbs ≤ 308 then
      if e ≥ 0 then
        let y := x * powerOfTen e.natAbs
        if y.isInf then none else some y
      else some (x / powerOfTen e.natAbs)
    else if x == 0 then some x
    else if e ≥ 0 then none
    else scale steps (x / powerOfTen 308) (e + 308)

def toDouble? (negative : Bool) (significand : Nat) (e : Int) : Option Number := do
  let x ← scale 4 (UInt64.ofNat significand).toFloat e
  return .float (← Binary64.ofFloat? (if negative then -x else x))

def signedZero (negative : Bool) : Number :=
  .float (if negative then .negativeZero else .zero)

def wholeNumber? (negative : Bool) (significand dropped : Nat) : Option Number :=
  if dropped > 0 then toDouble? negative significand dropped
  else if !negative then Number.ofInt? significand
  else if significand = 0 then some (signedZero true)
  else if significand ≤ 0x8000000000000000 then Number.ofInt? (-significand)
  else toDouble? true significand 0

def finishNumber (number : Option Number) (c : Cursor) : Except Fault (Number × Cursor) :=
  match number with
  | some n => .ok (n, c)
  | none => .error ⟨.outOfRange, c.pos⟩

def exponentPart (negative : Bool) (significand : Nat) (e : Int) (c : Cursor) :
    Except Fault (Number × Cursor) :=
  let (down, c) : Bool × Cursor := match c.rest with
    | '-' :: rest => (true, ⟨rest, c.pos.skip 1⟩)
    | '+' :: rest => (false, ⟨rest, c.pos.skip 1⟩)
    | _ => (false, c)
  match c.rest with
  | [] => .error ⟨.endInValue, c.pos⟩
  | d :: _ =>
    if !isDigit d then .error ⟨.invalidNumber, c.peekPosition⟩
    else
      let digits := c.rest.takeWhile isDigit
      let after : Cursor := ⟨c.rest.dropWhile isDigit, c.pos.skip digits.length⟩
      match exponentValue 0 0 digits with
      | .ok value =>
        finishNumber (toDouble? negative significand (if down then e - value else e + value)) after
      | .error count =>
        if significand = 0 ∨ down then .ok (signedZero negative, after)
        else .error ⟨.outOfRange, c.pos.skip count⟩

/-- Reads what may follow the digits of a number that is no integer: an exponent or nothing. -/
def afterFraction (negative : Bool) (significand : Nat) (e : Int) (c : Cursor) :
    Except Fault (Number × Cursor) :=
  match c.rest with
  | 'e' :: rest => exponentPart negative significand e ⟨rest, c.pos.skip 1⟩
  | 'E' :: rest => exponentPart negative significand e ⟨rest, c.pos.skip 1⟩
  | _ => finishNumber (toDouble? negative significand e) c

def number (negative : Bool) (c : Cursor) : Except Fault (Number × Cursor) :=
  match c.rest with
  | [] => .error ⟨.endInValue, c.pos⟩
  | first :: more =>
    if !isDigit first then .error ⟨.invalidNumber, c.peekPosition⟩
    else if first = '0' ∧ (more.head?.any isDigit) then
      .error ⟨.invalidNumber, (c.pos.skip 1).nextByte more⟩
    else
      let digits := c.rest.takeWhile isDigit
      let after : Cursor := ⟨c.rest.dropWhile isDigit, c.pos.skip digits.length⟩
      let (significand, dropped) := takeDigits 0 digits
      match after.rest with
      | '.' :: rest =>
        let fraction := rest.takeWhile isDigit
        let after : Cursor := ⟨rest.dropWhile isDigit, after.pos.skip (fraction.length + 1)⟩
        if fraction.isEmpty then
          faultAt (if after.rest.isEmpty then .endInValue else .invalidNumber) after
        else
          let (significand, left) := takeDigits significand fraction
          let e : Int := dropped - (fraction.length - left : Nat)
          afterFraction negative significand e after
      | 'e' :: _ => afterFraction negative significand dropped after
      | 'E' :: _ => afterFraction negative significand dropped after
      | _ => finishNumber (wholeNumber? negative significand dropped) after

/-! ## Values -/

def scalar (c : Cursor) : Except Fault (Json × Cursor) :=
  match c.rest with
  | [] => faultAt .endInValue c
  | 'n' :: rest => return (.null, ← word ['u', 'l', 'l'] ⟨rest, c.pos.skip 1⟩)
  | 't' :: rest => return (.bool true, ← word ['r', 'u', 'e'] ⟨rest, c.pos.skip 1⟩)
  | 'f' :: rest => return (.bool false, ← word ['a', 'l', 's', 'e'] ⟨rest, c.pos.skip 1⟩)
  | '"' :: rest => do
    let (text, c) ← string ⟨rest, c.pos.skip 1⟩
    return (.str text, c)
  | '-' :: rest => do
    let (n, c) ← number true ⟨rest, c.pos.skip 1⟩
    return (.num n, c)
  | first :: _ => do
    if isDigit first then
      let (n, c) ← number false c
      return (.num n, c)
    else faultAt .expectedValue c

/-- Where the next item of a list begins, or the end of the list. -/
def nextItem (first : Bool) (c : Cursor) : Except Fault (Cursor ⊕ Cursor) :=
  let c := skipBlanks c
  match c.rest with
  | [] => faultAt .endInList c
  | ']' :: rest => .ok (.inr ⟨rest, c.pos.skip 1⟩)
  | ',' :: rest =>
    if first then .ok (.inl c)
    else
      let c := skipBlanks ⟨rest, c.pos.skip 1⟩
      match c.rest with
      | [] => faultAt .endInValue c
      | ']' :: _ => faultAt .trailingComma c
      | _ => .ok (.inl c)
  | _ => if first then .ok (.inl c) else faultAt .expectedListEnd c

/-- Where the next name of an object begins, behind its quote, or the end of the object. -/
def nextKey (first : Bool) (c : Cursor) : Except Fault (Cursor ⊕ Cursor) :=
  let c := skipBlanks c
  match c.rest with
  | [] => faultAt .endInObject c
  | '\x7d' :: rest => .ok (.inr ⟨rest, c.pos.skip 1⟩)
  | '"' :: rest => if first then .ok (.inl ⟨rest, c.pos.skip 1⟩) else faultAt .expectedObjectEnd c
  | ',' :: rest =>
    if first then faultAt .keyNotString c
    else
      let c := skipBlanks ⟨rest, c.pos.skip 1⟩
      match c.rest with
      | [] => faultAt .endInValue c
      | '"' :: rest => .ok (.inl ⟨rest, c.pos.skip 1⟩)
      | '\x7d' :: _ => faultAt .trailingComma c
      | _ => faultAt .keyNotString c
  | _ => faultAt (if first then .keyNotString else .expectedObjectEnd) c

def colon (c : Cursor) : Except Fault Cursor :=
  let c := skipBlanks c
  match c.rest with
  | [] => faultAt .endInObject c
  | ':' :: rest => .ok ⟨rest, c.pos.skip 1⟩
  | _ => faultAt .expectedColon c

def maxDepth : Nat := 127

mutual

/-- Reads a value. `depth` more containers may be opened; `fuel` bounds the work and is never used
up when it is twice the length of the text. -/
def value : (fuel depth : Nat) → Cursor → Except Fault (Json × Cursor)
  | 0, _, c => faultAt .endInValue c
  | fuel + 1, depth, c => do
    let c := skipBlanks c
    match c.rest with
    | '[' :: rest =>
      if depth = 0 then faultAt .tooDeep c
      else
        let (items, c) ← items fuel (depth - 1) [] ⟨rest, c.pos.skip 1⟩
        return (.arr items, c)
    | '\x7b' :: rest =>
      if depth = 0 then faultAt .tooDeep c
      else
        let (members, c) ← members fuel (depth - 1) true [] ⟨rest, c.pos.skip 1⟩
        return (.obj members, c)
    | _ => scalar c

/-- Reads the rest of a list; the items read so far stand in reverse. -/
def items : (fuel depth : Nat) → List Json → Cursor → Except Fault (List Json × Cursor)
  | 0, _, _, c => faultAt .endInList c
  | fuel + 1, depth, read, c => do
    match ← nextItem read.isEmpty c with
    | .inr c => return (read.reverse, c)
    | .inl c =>
      let (item, c) ← value fuel depth c
      items fuel depth (item :: read) c

def members : (fuel depth : Nat) → Bool → Entries Json → Cursor →
    Except Fault (Entries Json × Cursor)
  | 0, _, _, _, c => faultAt .endInObject c
  | fuel + 1, depth, first, read, c => do
    match ← nextKey first c with
    | .inr c => return (read, c)
    | .inl c =>
      let (key, c) ← string c
      let c ← colon c
      let (member, c) ← value fuel depth c
      members fuel depth false (Entries.insert read key member) c

end

def finish (c : Cursor) : Except Fault Unit :=
  let c := skipBlanks c
  if c.rest.isEmpty then .ok () else faultAt .trailingCharacters c

end Reader

def parse (text : String) : Except Fault Json := do
  let start := Cursor.ofString text
  let (v, c) ← Reader.value (2 * start.rest.length + 2) Reader.maxDepth start
  Reader.finish c
  return v

end StateFlow.Json
