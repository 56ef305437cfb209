import StateFlow.Json.Basic

/-!
# Places inside a value

A place is the list of steps that lead to it. Its pointer writes every step behind a slash, with
`~` and `/` escaped.
-/

namespace StateFlow.Json

/-- One step into a container. -/
inductive Segment where
  | key (name : String)
  | index (n : Nat)
deriving DecidableEq

/-- How a character of a member's name stands in a pointer. -/
def pointerChar (c : Char) : List Char :=
  if c = '~' then ['~', '0'] else if c = '/' then ['~', '1'] else [c]

def Segment.text : Segment → List Char
  | .key name => name.toList.flatMap pointerChar
  | .index n => Nat.toDigits 10 n

def pointer (path : List Segment) : String :=
  String.ofList (path.flatMap fun segment => '/' :: segment.text)

def step? : Json → Segment → Option Json
  | obj members, .key name => Entries.get? members name
  | arr items, .index n => items[n]?
  | _, _ => none

def at? (v : Json) (path : List Segment) : Option Json :=
  path.foldlM step? v

end StateFlow.Json
