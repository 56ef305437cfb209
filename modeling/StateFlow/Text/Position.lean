/-!
# Places in a text

A place is a line, counted from one, and the number of UTF-8 bytes before it on that line.
-/

namespace StateFlow.Text

/-- A line and the bytes before the place on that line. -/
structure Position where
  line : Nat
  column : Nat
deriving DecidableEq

namespace Position

def start : Position := ⟨1, 0⟩

def after (p : Position) (c : Char) : Position :=
  if c = '\n' then ⟨p.line + 1, 0⟩ else ⟨p.line, p.column + c.utf8Size⟩

def skip (p : Position) (count : Nat) : Position :=
  ⟨p.line, p.column + count⟩

/-- The place one byte further, or the same place at the end of the text. -/
def nextByte (p : Position) : List Char → Position
  | [] => p
  | c :: _ => if c = '\n' then ⟨p.line + 1, 0⟩ else ⟨p.line, p.column + 1⟩

def afterAll (p : Position) (text : List Char) : Position :=
  text.foldl after p

/-- The place a number of bytes further; a character may be cut in two. -/
def afterBytes (p : Position) : Nat → List Char → Position
  | 0, _ => p
  | _, [] => p
  | count, c :: rest =>
    if c.utf8Size ≤ count then afterBytes (p.after c) (count - c.utf8Size) rest
    else p.skip count

end Position

/-- A text still to be read, and the place where it begins. -/
structure Cursor where
  rest : List Char
  pos : Position

namespace Cursor

def ofString (text : String) : Cursor := ⟨text.toList, .start⟩

def peekPosition (c : Cursor) : Position := c.pos.nextByte c.rest

end Cursor

end StateFlow.Text
