/-!
# Patterns of strings

The four patterns that playbooks use. Each is a property of the whole string.
-/

namespace StateFlow.Schema

inductive Pattern where
  /-- Begins with a letter, a digit or an underscore. -/
  | stateName
  /-- Begins with a dollar sign and stays on one line behind it. -/
  | path
  /-- Consists of letters and digits, at least one. -/
  | playbookName
  /-- A marker around a text of one line in parentheses. -/
  | literal (marker : String)
deriving DecidableEq

namespace Pattern

def isAlphanumeric (c : Char) : Bool :=
  ('a' ≤ c && c ≤ 'z') || ('A' ≤ c && c ≤ 'Z') || ('0' ≤ c && c ≤ '9')

def oneLine (text : List Char) : Bool := text.all fun c => c ≠ '\n'

/-- What stands between a marker's parentheses, if a text is wrapped in it. -/
def wrapped? (marker : String) (text : List Char) : Option (List Char) :=
  let opening := marker.toList ++ ['(']
  if opening.isPrefixOf text then
    let inner := text.drop opening.length
    if inner.getLast? = some ')' then some inner.dropLast else none
  else none

def accepts : Pattern → String → Bool
  | .stateName, text =>
    match text.toList with
    | [] => false
    | c :: _ => isAlphanumeric c || c = '_'
  | .path, text =>
    match text.toList with
    | '$' :: rest => oneLine rest
    | _ => false
  | .playbookName, text => !text.toList.isEmpty && text.toList.all isAlphanumeric
  | .literal marker, text =>
    match wrapped? marker text.toList with
    | some inner => !inner.isEmpty && oneLine inner
    | none => false

def text : Pattern → String
  | .stateName => "^[a-zA-Z0-9_]\x7b1,\x7d"
  | .path => "^\\$.*$"
  | .playbookName => "^[a-zA-Z0-9]+$"
  | .literal marker => "^" ++ marker ++ "\\(.+\\)$"

end Pattern

end StateFlow.Schema
