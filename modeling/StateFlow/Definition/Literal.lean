/-!
# Literals in a definition

A string that is wrapped in the literal marker loses its quotes, the marker and the parentheses. A
wrapper reaches from its opening to the last closing on the same line.
-/

namespace StateFlow.Literal

def opening (marker : String) : List Char := '"' :: marker.toList ++ ['(']

/-- The text up to the last closing on the line, if there is one. -/
def inner? : List Char → Option (List Char)
  | [] => none
  | c :: rest =>
    if c = '\n' then none
    else
      match inner? rest with
      | some text => some (c :: text)
      | none => if c = ')' ∧ rest.head? = some '"' then some [] else none

def wrapped? (opening text : List Char) : Option (List Char) :=
  if opening.isPrefixOf text then inner? (text.drop opening.length) else none

/-- Unwraps the wrappers of a text behind its first `skip` characters, which are dropped. -/
def stripFrom (opening : List Char) : (skip : Nat) → List Char → List Char
  | _, [] => []
  | skip + 1, _ :: rest => stripFrom opening skip rest
  | 0, c :: rest =>
    match wrapped? opening (c :: rest) with
    | some text => text ++ stripFrom opening (opening.length + text.length + 1) rest
    | none => c :: stripFrom opening 0 rest

def strip (marker : String) (text : List Char) : List Char := stripFrom (opening marker) 0 text

end StateFlow.Literal
