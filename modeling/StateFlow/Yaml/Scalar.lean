import StateFlow.Yaml.Cursor

/-!
# Scalars of Yaml

The three ways to write a text: plain, in quotes and as a block. In the first two, a single line
break between words is a space and further ones are kept; a block keeps its lines or folds them.
-/

namespace StateFlow.Yaml

/-- Blanks and line breaks that are only part of a scalar if it goes on behind them; the latest
come first. -/
inductive Gap where
  | none
  | blanks (latest : List Char)
  /-- A line break comes next that an escape takes away. -/
  | escaped
  /-- The first line break, which an escape may have taken away, and further ones. -/
  | lines (first : Option Char) (latest : List Char)

namespace Gap

def folded : Gap → List Char
  | .none => []
  | .escaped => []
  | .blanks latest => latest
  | .lines (some '\n') [] => [' ']
  | .lines (some '\n') latest => latest
  | .lines (some first) latest => latest ++ [first]
  | .lines Option.none latest => latest

def addBlank (c : Char) : Gap → Gap
  | .none => .blanks [c]
  | .escaped => .blanks [c]
  | .blanks latest => .blanks (c :: latest)
  | .lines first latest => .lines first latest

def addBreak (c : Char) : Gap → Gap
  | .lines first latest => .lines first (c :: latest)
  | .escaped => .lines Option.none []
  | _ => .lines (some c) []

def hasBreak : Gap → Bool
  | .lines _ _ => true
  | _ => false

end Gap

/-! ## Plain scalars -/

/-- A plain scalar: its text, the place behind it and the gap that follows, and whether a line
break was in that gap. -/
structure PlainScan where
  text : String
  cursor : Cursor
  brokeLine : Bool

private def isFlowMark (c : Char) : Bool :=
  c = ',' || c = '[' || c = ']' || c = '\x7b' || c = '\x7d'

private def endsPlain (flow : Bool) : List Char → Bool
  | ':' :: rest => atGap rest
  | c :: _ => flow && isFlowMark c
  | [] => true

private def misplacedColon (flow : Bool) : List Char → Bool
  | ':' :: c :: _ => flow && (isFlowMark c || c = '?')
  | _ => false

/-- Reads a plain scalar on from its latest characters and the gap behind them. Outside of flow
collections further lines begin at or behind column `indent`. -/
def scanPlain (flow : Bool) (indent : Int) (read : List Char) (gap : Gap) (line column : Nat) :
    List Char → Option PlainScan
  | [] => some ⟨String.ofList read.reverse, ⟨[], line, column⟩, gap.hasBreak⟩
  | c :: rest =>
    let stop : Option PlainScan :=
      some ⟨String.ofList read.reverse, ⟨c :: rest, line, column⟩, gap.hasBreak⟩
    let fresh := match gap with
      | .none => read.isEmpty
      | _ => true
    if isBlank c then
      if c = '\t' && gap.hasBreak && (column : Int) < indent then none
      else scanPlain flow indent read (gap.addBlank c) line (column + 1) rest
    else if isBreak c then scanPlain flow indent read (gap.addBreak c) (line + 1) 0 rest
    else if fresh && !flow && (column : Int) < indent && gap.hasBreak then stop
    else if fresh && (c = '#' || column = 0 && atDocumentMark (c :: rest)) then stop
    else if misplacedColon flow (c :: rest) then none
    else if endsPlain flow (c :: rest) then stop
    else scanPlain flow indent (c :: (gap.folded ++ read)) .none line (column + 1) rest

/-! ## Quoted scalars -/

private def hexDigitValue? (c : Char) : Option Nat :=
  if '0' ≤ c ∧ c ≤ '9' then some (c.toNat - '0'.toNat)
  else if 'a' ≤ c ∧ c ≤ 'f' then some (c.toNat - 'a'.toNat + 10)
  else if 'A' ≤ c ∧ c ≤ 'F' then some (c.toNat - 'A'.toNat + 10)
  else none

def hexNumber? (count : Nat) (text : List Char) : Option Nat :=
  if text.length < count then none
  else (text.take count).foldlM (fun n c => (hexDigitValue? c).map (n * 16 + ·)) 0

private def charOfCode? (n : Nat) : Option Char :=
  if h : n.isValidChar then some (Char.ofNatAux n h) else none

/-- The character that an escape stands for behind its backslash, and the length of the escape. -/
def escape? : List Char → Option (Char × Nat)
  | [] => none
  | c :: rest =>
    match c with
    | '0' => some ('\x00', 1)
    | 'a' => some ('\x07', 1)
    | 'b' => some ('\x08', 1)
    | 't' => some ('\t', 1)
    | '\t' => some ('\t', 1)
    | 'n' => some ('\n', 1)
    | 'v' => some ('\x0b', 1)
    | 'f' => some ('\x0c', 1)
    | 'r' => some ('\r', 1)
    | 'e' => some ('\x1b', 1)
    | ' ' => some (' ', 1)
    | '"' => some ('"', 1)
    | '/' => some ('/', 1)
    | '\\' => some ('\\', 1)
    | 'N' => some ('\u0085', 1)
    | '_' => some ('\u00a0', 1)
    | 'L' => some ('\u2028', 1)
    | 'P' => some ('\u2029', 1)
    | 'x' => ((hexNumber? 2 rest).bind charOfCode?).map (·, 3)
    | 'u' => ((hexNumber? 4 rest).bind charOfCode?).map (·, 5)
    | 'U' => ((hexNumber? 8 rest).bind charOfCode?).map (·, 9)
    | _ => none

/-- Reads the inside of a quoted scalar on from its latest characters and the gap behind them;
`skip` characters belong to what has been read. -/
def scanQuoted (double : Bool) (read : List Char) (gap : Gap) (line column : Nat) :
    (skip : Nat) → List Char → Option (String × Cursor)
  | _, [] => none
  | skip + 1, _ :: rest => scanQuoted double read gap line (column + 1) skip rest
  | 0, c :: rest =>
    if isBlank c then scanQuoted double read (gap.addBlank c) line (column + 1) 0 rest
    else if isBreak c then scanQuoted double read (gap.addBreak c) (line + 1) 0 0 rest
    else if column = 0 && atDocumentMark (c :: rest) then none
    else
      let before := gap.folded ++ read
      if double then
        if c = '"' then some (String.ofList before.reverse, ⟨rest, line, column + 1⟩)
        else if c = '\\' then
          if rest.head?.any isBreak then
            scanQuoted double before .escaped line (column + 1) 0 rest
          else
            match escape? rest with
            | some (char, length) =>
              scanQuoted double (char :: before) .none line (column + 1) length rest
            | none => none
        else scanQuoted double (c :: before) .none line (column + 1) 0 rest
      else if c = '\'' then
        if rest.head? = some '\'' then
          scanQuoted double ('\'' :: before) .none line (column + 1) 1 rest
        else some (String.ofList before.reverse, ⟨rest, line, column + 1⟩)
      else scanQuoted double (c :: before) .none line (column + 1) 0 rest

/-! ## Block scalars -/

inductive Chomping where
  | strip | clip | keep
deriving DecidableEq

structure BlockHeader where
  chomping : Chomping
  increment : Option Nat

private def chomping? : Char → Option Chomping
  | '+' => some .keep
  | '-' => some .strip
  | _ => none

private def headerPart {α : Type} (read : Char → Option α) (c : Cursor) : Option α × Cursor :=
  match c.peek?.bind read with
  | some a => (some a, c.skip 1)
  | none => (none, c)

private def indentDigit? (c : Char) : Option Nat :=
  if '0' ≤ c ∧ c ≤ '9' then some (c.toNat - '0'.toNat) else none

/-- Reads the header of a block, in which the two parts come in any order. -/
def blockHeader? (c : Cursor) : Option (BlockHeader × Cursor) :=
  let (chomping, c) := headerPart chomping? c
  let (increment, c) := headerPart indentDigit? c
  let (chomping, c) := match chomping, increment with
    | none, some _ => headerPart chomping? c
    | _, _ => (chomping, c)
  if increment = some 0 then none
  else (c.endLine?).map fun c => (⟨chomping.getD .clip, increment⟩, c)

structure BlankLines where
  /-- The line breaks, latest first. -/
  latest : List Char
  /-- The greatest column that the spaces reach. -/
  widest : Nat
  cursor : Cursor

/-- Reads the blank lines and the indentation in front of a line of a block; an indentation of zero
is still unknown. A tab must not stand in the indentation. -/
def scanBlankLines (indent : Nat) (latest : List Char) (widest line column : Nat) :
    List Char → Option BlankLines
  | [] => some ⟨latest, max widest column, ⟨[], line, column⟩⟩
  | c :: rest =>
    let within := indent = 0 || column < indent
    if within && c = ' ' then scanBlankLines indent latest widest line (column + 1) rest
    else if within && c = '\t' then none
    else if isBreak c then
      scanBlankLines indent (c :: latest) (max widest column) (line + 1) 0 rest
    else some ⟨latest, max widest column, ⟨c :: rest, line, column⟩⟩

/-- The state of reading the lines of a block; everything read comes latest first. -/
structure BlockScan where
  read : List Char := []
  /-- The line break behind the latest line, if it has one. -/
  lineBreak : List Char := []
  /-- The line breaks of the blank lines behind it. -/
  blankLines : List Char := []
  /-- Whether the latest line begins with a blank. -/
  indented : Bool := false
  cursor : Cursor

def scanBlockLines (literal : Bool) (indent : Nat) : (fuel : Nat) → BlockScan → Option BlockScan
  | 0, b => some b
  | fuel + 1, b =>
    if b.cursor.column ≠ indent || b.cursor.rest.isEmpty then some b
    else do
      let blank := b.cursor.peek?.any isBlank
      let joint :=
        if !literal && b.lineBreak = ['\n'] && !b.indented && !blank then
          if b.blankLines.isEmpty then [' '] else []
        else b.lineBreak
      let content := b.cursor.rest.takeWhile fun c => !isBreak c
      let behind := b.cursor.skipWhile fun c => !isBreak c
      let next := behind.skipBreak
      let blanks ← scanBlankLines indent [] 0 next.line next.column next.rest
      scanBlockLines literal indent fuel
        { read := content.reverse ++ (b.blankLines ++ (joint ++ b.read))
          lineBreak := behind.peek?.toList
          blankLines := blanks.latest
          indented := blank
          cursor := blanks.cursor }

def scanBlock (literal : Bool) (parent : Int) (c : Cursor) : Option (String × Cursor) := do
  let (header, c) ← blockHeader? c
  let given := match header.increment with
    | some n => if parent ≥ 0 then parent.toNat + n else n
    | none => 0
  let blanks ← scanBlankLines given [] 0 c.line c.column c.rest
  let indent := if given = 0 then max (max blanks.widest (parent + 1).toNat) 1 else given
  let b ← scanBlockLines literal indent (c.rest.length + 1)
    { blankLines := blanks.latest, cursor := blanks.cursor }
  let text := match header.chomping with
    | .strip => b.read
    | .clip => b.lineBreak ++ b.read
    | .keep => b.blankLines ++ (b.lineBreak ++ b.read)
  return (String.ofList text.reverse, b.cursor)

end StateFlow.Yaml
