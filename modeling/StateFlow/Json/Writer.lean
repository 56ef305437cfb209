import StateFlow.Json.Basic

/-!
# Writing Json

The compact form has no blanks. The pretty form puts every item and every member on a line of its
own, indented by a fixed number of spaces a level, and keeps empty containers on one line.
-/

namespace StateFlow.Json

def hexDigit (n : Nat) : Char := Nat.digitChar n

def escapeChar (c : Char) : List Char :=
  if c = '"' then ['\\', '"']
  else if c = '\\' then ['\\', '\\']
  else if c = '\n' then ['\\', 'n']
  else if c = '\r' then ['\\', 'r']
  else if c = '\t' then ['\\', 't']
  else if c = '\x08' then ['\\', 'b']
  else if c = '\x0c' then ['\\', 'f']
  else if c.toNat < 32 then ['\\', 'u', '0', '0', hexDigit (c.toNat / 16), hexDigit (c.toNat % 16)]
  else [c]

def escape (text : List Char) : List Char := text.flatMap escapeChar

def quote (text : String) : List Char := '"' :: escape text.toList ++ ['"']

def scalarText : Json → List Char
  | bool true => ['t', 'r', 'u', 'e']
  | bool false => ['f', 'a', 'l', 's', 'e']
  | num n => n.text
  | str s => quote s
  | _ => ['n', 'u', 'l', 'l']

def joinWith (separator : List Char) : List (List Char) → List Char
  | [] => []
  | [part] => part
  | part :: rest => part ++ separator ++ joinWith separator rest

mutual

def compact : Json → List Char
  | arr items => '[' :: joinWith [','] (compactItems items) ++ [']']
  | obj members => '\x7b' :: joinWith [','] (compactMembers members) ++ ['\x7d']
  | v => scalarText v

def compactItems : List Json → List (List Char)
  | [] => []
  | v :: rest => compact v :: compactItems rest

def compactMembers : List (String × Json) → List (List Char)
  | [] => []
  | (k, v) :: rest => (quote k ++ ':' :: compact v) :: compactMembers rest

end

def breakLine (unit level : Nat) : List Char := '\n' :: List.replicate (unit * level) ' '

/-- The lines of a container between its brackets. -/
def bracketed (unit level : Nat) (opening closing : Char) (lines : List (List Char)) : List Char :=
  match lines with
  | [] => [opening, closing]
  | _ => opening :: breakLine unit (level + 1)
      ++ joinWith (',' :: breakLine unit (level + 1)) lines
      ++ breakLine unit level ++ [closing]

mutual

/-- The pretty form at a level, `unit` spaces a level. -/
def prettyAt (unit : Nat) : (level : Nat) → Json → List Char
  | level, arr items => bracketed unit level '[' ']' (prettyItems unit (level + 1) items)
  | level, obj members => bracketed unit level '\x7b' '\x7d' (prettyMembers unit (level + 1) members)
  | _, v => scalarText v

def prettyItems (unit : Nat) : (level : Nat) → List Json → List (List Char)
  | _, [] => []
  | level, v :: rest => prettyAt unit level v :: prettyItems unit level rest

def prettyMembers (unit : Nat) : (level : Nat) → List (String × Json) → List (List Char)
  | _, [] => []
  | level, (k, v) :: rest =>
    (quote k ++ ':' :: ' ' :: prettyAt unit level v) :: prettyMembers unit level rest

end

def pretty (unit : Nat) (v : Json) : List Char := prettyAt unit 0 v

def compactText (v : Json) : String := String.ofList v.compact

def prettyText (unit : Nat) (v : Json) : String := String.ofList (v.pretty unit)

end StateFlow.Json
