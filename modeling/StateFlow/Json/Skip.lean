import StateFlow.Json.Reader

/-!
# Skipping Json

A value that nobody asks for is skipped without being built. Only its form is looked at: the size
of numbers, the pairing of surrogates and the depth of containers do not matter.
-/

namespace StateFlow.Json.Skip

open StateFlow.Text StateFlow.Json.Reader

def stringBody : List Char → Position → Except Fault Cursor
  | [], pos => .error ⟨.endInString, pos⟩
  | '"' :: rest, pos => .ok ⟨rest, pos.skip 1⟩
  | '\\' :: 'u' :: a :: b :: c :: d :: rest, pos =>
    match hexValue4? a b c d with
    | none => .error (hexFault (a :: b :: c :: d :: rest) (pos.skip 2))
    | some _ => stringBody rest (pos.skip 6)
  | '\\' :: 'u' :: rest, pos => .error (hexFault rest (pos.skip 2))
  | '\\' :: c :: rest, pos =>
    match shortEscape? c with
    | some _ => stringBody rest (pos.skip 2)
    | none => .error ⟨.invalidEscape, (pos.skip 1).nextByte (c :: rest)⟩
  | ['\\'], pos => .error ⟨.endInString, pos.skip 1⟩
  | c :: rest, pos =>
    if c.toNat < 32 then .error ⟨.controlCharacter, pos⟩ else stringBody rest (pos.after c)

private def dropDigits (c : Cursor) : Cursor :=
  ⟨c.rest.dropWhile isDigit, c.pos.skip (c.rest.takeWhile isDigit).length⟩

private def exponentDigits (c : Cursor) : Except Fault Cursor :=
  let c : Cursor := match c.rest with
    | '-' :: rest => ⟨rest, c.pos.skip 1⟩
    | '+' :: rest => ⟨rest, c.pos.skip 1⟩
    | _ => c
  if c.rest.head?.any isDigit then .ok (dropDigits c) else faultAt .invalidNumber c

private def exponent (c : Cursor) : Except Fault Cursor :=
  match c.rest with
  | 'e' :: rest => exponentDigits ⟨rest, c.pos.skip 1⟩
  | 'E' :: rest => exponentDigits ⟨rest, c.pos.skip 1⟩
  | _ => .ok c

def number (c : Cursor) : Except Fault Cursor :=
  match c.rest with
  | [] => faultAt .invalidNumber c
  | first :: more =>
    if !isDigit first then faultAt .invalidNumber c
    else if first = '0' ∧ (more.head?.any isDigit) then faultAt .invalidNumber ⟨more, c.pos.skip 1⟩
    else
      let c := dropDigits c
      match c.rest with
      | '.' :: rest =>
        if rest.head?.any isDigit then exponent (dropDigits ⟨rest, c.pos.skip 1⟩)
        else faultAt .invalidNumber ⟨rest, c.pos.skip 1⟩
      | _ => exponent c

/-- Skips a value that is no container; the cursor stands on its first character. -/
def scalar (c : Cursor) : Except Fault Cursor :=
  match c.rest with
  | [] => faultAt .endInValue c
  | 'n' :: rest => word ['u', 'l', 'l'] ⟨rest, c.pos.skip 1⟩
  | 't' :: rest => word ['r', 'u', 'e'] ⟨rest, c.pos.skip 1⟩
  | 'f' :: rest => word ['a', 'l', 's', 'e'] ⟨rest, c.pos.skip 1⟩
  | '"' :: rest => stringBody rest (c.pos.skip 1)
  | '-' :: rest => number ⟨rest, c.pos.skip 1⟩
  | first :: _ => if isDigit first then number c else faultAt .expectedValue c

private def key (c : Cursor) : Except Fault Cursor := do
  let c := skipBlanks c
  match c.rest with
  | [] => faultAt .endInObject c
  | '"' :: rest => colon (← stringBody rest (c.pos.skip 1))
  | _ => faultAt .keyNotString c

mutual

/-- Skips a value; `fuel` bounds the work. -/
def valueWithin : (fuel : Nat) → Cursor → Except Fault Cursor
  | 0, c => faultAt .endInValue c
  | fuel + 1, c =>
    let c := skipBlanks c
    match c.rest with
    | '[' :: rest => items fuel true ⟨rest, c.pos.skip 1⟩
    | '\x7b' :: rest => members fuel true ⟨rest, c.pos.skip 1⟩
    | _ => scalar c

def items : (fuel : Nat) → (first : Bool) → Cursor → Except Fault Cursor
  | 0, _, c => faultAt .endInList c
  | fuel + 1, first, c => do
    let c := skipBlanks c
    match c.rest with
    | [] => faultAt .endInList c
    | ']' :: rest => return ⟨rest, c.pos.skip 1⟩
    | head :: rest =>
      if first then items fuel false (← valueWithin fuel c)
      else if head = ',' then items fuel false (← valueWithin fuel ⟨rest, c.pos.skip 1⟩)
      else faultAt .expectedListEnd c

def members : (fuel : Nat) → (first : Bool) → Cursor → Except Fault Cursor
  | 0, _, c => faultAt .endInObject c
  | fuel + 1, first, c => do
    let c := skipBlanks c
    match c.rest with
    | [] => faultAt .endInObject c
    | '\x7d' :: rest => return ⟨rest, c.pos.skip 1⟩
    | head :: rest =>
      if first then members fuel false (← valueWithin fuel (← key c))
      else if head = ',' then members fuel false (← valueWithin fuel (← key ⟨rest, c.pos.skip 1⟩))
      else faultAt .expectedObjectEnd c

end

def value (c : Cursor) : Except Fault Cursor := valueWithin (2 * c.rest.length + 2) c

end StateFlow.Json.Skip
