import StateFlow.Yaml.Char

/-!
# Places in a Yaml document

Indentation decides the structure, so a place is a line and a column counted in characters. Line
breaks are unified before a document is read, the two separators of Unicode apart.
-/

namespace StateFlow.Yaml

structure Cursor where
  rest : List Char
  line : Nat := 0
  column : Nat := 0

namespace Cursor

def skip (c : Cursor) (count : Nat) : Cursor :=
  { c with rest := c.rest.drop count, column := c.column + count }

/-- The place behind the characters of a class, none of them a line break. -/
def skipWhile (c : Cursor) (p : Char → Bool) : Cursor :=
  { c with rest := c.rest.dropWhile p, column := c.column + (c.rest.takeWhile p).length }

def skipBreak (c : Cursor) : Cursor :=
  match c.rest with
  | b :: rest => if isBreak b then ⟨rest, c.line + 1, 0⟩ else c
  | [] => c

def peek? (c : Cursor) : Option Char := c.rest.head?

def startsWith (c : Cursor) (char : Char) : Bool := c.peek? = some char

def atDocumentMark (c : Cursor) : Bool := c.column = 0 && Yaml.atDocumentMark c.rest

/-- The place behind the rest of a line that holds at most blanks and a comment. -/
def endLine? (c : Cursor) : Option Cursor :=
  let c := c.skipWhile isBlank
  let c := if c.startsWith '#' then c.skipWhile fun char => !isBreak char else c
  if c.peek?.all isBreak then some c.skipBreak else none

end Cursor

/-- Writes every line break of one character or two as a line feed; the separators stay. -/
def unifyBreaks : List Char → List Char
  | '\r' :: '\n' :: rest => '\n' :: unifyBreaks rest
  | c :: rest => (if c = '\r' || c = '\u0085' then '\n' else c) :: unifyBreaks rest
  | [] => []

end StateFlow.Yaml
