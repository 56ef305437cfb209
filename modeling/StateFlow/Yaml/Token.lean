import StateFlow.Entries
import StateFlow.Yaml.Scalar

/-!
# Tokens of Yaml

A document is cut into tokens that make its structure explicit: blocks are opened and closed by
tokens of their own, and a key is marked as one, although it only turns out to be a key at the colon
behind it. So whatever may be a key is remembered with the number of tokens in front of it.
-/

namespace StateFlow.Yaml

inductive Token where
  | version (major minor : Nat)
  | tagDirective (handle stem : String)
  | documentStart
  | documentEnd
  | blockSequence
  | blockMapping
  | blockEnd
  | flowSequence
  | flowSequenceEnd
  | flowMapping
  | flowMappingEnd
  | blockEntry
  | flowEntry
  | key
  | value
  | alias (name : String)
  | anchor (name : String)
  | tag (handle suffix : String)
  | scalar (text : String) (plain : Bool)
deriving DecidableEq

/-- Something that may turn out to be a key. -/
structure KeyCandidate where
  /-- The number of tokens in front of it. -/
  tokens : Nat
  /-- Nothing else than a key can stand there. -/
  required : Bool
  line : Nat
  column : Nat

structure Scan where
  cursor : Cursor
  /-- The tokens, latest first. -/
  latest : List Token := []
  /-- The candidate of each open flow collection and of the block around them, innermost first. -/
  candidates : List (Option KeyCandidate) := [none]
  /-- The columns of the open blocks, innermost first. -/
  blocks : List Nat := []
  /-- Whether a key may begin here. -/
  keyAllowed : Bool := true

namespace Scan

def inFlow (s : Scan) : Bool := s.candidates.length > 1

/-- The column of the innermost block; around all blocks it is below zero. -/
def indent (s : Scan) : Int := (s.blocks.head?.map Int.ofNat).getD (-1)

def push (s : Scan) (t : Token) : Scan := { s with latest := t :: s.latest }

def insert (s : Scan) (tokens : Nat) (t : Token) : Scan :=
  let behind := s.latest.length - tokens
  { s with latest := s.latest.take behind ++ t :: s.latest.drop behind }

def skip (s : Scan) (count : Nat) : Scan := { s with cursor := s.cursor.skip count }

private def closeBlocks (column : Int) : List Nat → List Token → List Nat × List Token
  | [], latest => ([], latest)
  | block :: rest, latest =>
    if (block : Int) > column then closeBlocks column rest (.blockEnd :: latest)
    else (block :: rest, latest)

def unroll (s : Scan) (column : Int) : Scan :=
  if s.inFlow then s
  else
    let (blocks, latest) := closeBlocks column s.blocks s.latest
    { s with blocks := blocks, latest := latest }

/-- Opens a block behind the first `tokens` tokens if the column is behind that of the innermost
one. -/
def roll (s : Scan) (column tokens : Nat) (t : Token) : Scan :=
  if !s.inFlow && s.indent < column then
    { s.insert tokens t with blocks := column :: s.blocks }
  else s

def dropCandidate (s : Scan) : Option Scan :=
  match s.candidates with
  | some k :: rest => if k.required then none else some { s with candidates := none :: rest }
  | _ => some s

def saveCandidate (s : Scan) : Option Scan :=
  if s.keyAllowed then do
    let s ← s.dropCandidate
    let k : KeyCandidate :=
      { tokens := s.latest.length
        required := !s.inFlow && s.indent = s.cursor.column
        line := s.cursor.line
        column := s.cursor.column }
    return { s with candidates := some k :: s.candidates.tail }
  else some s

/-- Whether a candidate is on an earlier line, or too far in front. -/
private def isStale (c : Cursor) (k : KeyCandidate) : Bool :=
  k.line < c.line || k.column + 1024 < c.column

/-- Forgets the candidates that can be keys no more; a required one must not be among them. -/
def dropStale (s : Scan) : Option Scan := do
  let candidates ← s.candidates.mapM fun candidate =>
    match candidate with
    | some k =>
      if isStale s.cursor k then if k.required then none else some none else some (some k)
    | none => some none
  return { s with candidates := candidates }

/-- Skips blanks, comments and line breaks. A tab is no blank where a key may begin. -/
private def toToken (flow : Bool) (line column : Nat) (comment keyAllowed : Bool) :
    List Char → Cursor × Bool
  | [] => (⟨[], line, column⟩, keyAllowed)
  | c :: rest =>
    if isBreak c then toToken flow (line + 1) 0 false (keyAllowed || !flow) rest
    else if comment || c = ' ' || (c = '\t' && (flow || !keyAllowed))
        || (c = byteOrderMark && column = 0) then
      toToken flow line (column + 1) comment keyAllowed rest
    else if c = '#' then toToken flow line (column + 1) true keyAllowed rest
    else (⟨c :: rest, line, column⟩, keyAllowed)

def advance (s : Scan) : Scan :=
  let (cursor, keyAllowed) :=
    toToken s.inFlow s.cursor.line s.cursor.column false s.keyAllowed s.cursor.rest
  { s with cursor := cursor, keyAllowed := keyAllowed }

/-! ## Names and tags -/

private def isUriChar (verbatim : Bool) (c : Char) : Bool :=
  isNameChar c || ";/?:@&=+$.!~*'()".toList.contains c
    || (verbatim && (c = ',' || c = '[' || c = ']'))

private def sequenceLength? (byte : Nat) : Option Nat :=
  if byte < 0x80 then some 1
  else if byte / 0x20 = 6 then some 2
  else if byte / 0x10 = 14 then some 3
  else if byte / 0x08 = 30 then some 4
  else none

/-- Reads the characters of a tag. A character may be given by the codes of its bytes, `pending` of
which are still to come. -/
private def uriText (verbatim : Bool) (read : List Char) :
    (pending : Nat) → List Char → Option (List Char × List Char)
  | pending, '%' :: a :: b :: rest => do
    let byte ← hexNumber? 2 [a, b]
    let pending ← match pending with
      | 0 => (sequenceLength? byte).map (· - 1)
      | pending + 1 => if byte / 0x40 = 2 then some pending else none
    uriText verbatim (Char.ofNat byte :: read) pending rest
  | 0, c :: rest =>
    if c = '%' then none
    else if isUriChar verbatim c then uriText verbatim (c :: read) 0 rest
    else some (read.reverse, c :: rest)
  | 0, [] => some (read.reverse, [])
  | _ + 1, _ => none

private def uri? (verbatim : Bool) (c : Cursor) : Option (List Char × Cursor) :=
  (uriText verbatim [] 0 c.rest).map fun (text, rest) =>
    (text, ⟨rest, c.line, c.column + (c.rest.length - rest.length)⟩)

/-- Reads a tag handle: a name with a mark in front, and perhaps one behind. -/
private def handle? (c : Cursor) : Option (List Char × Cursor) :=
  if !c.startsWith '!' then none
  else
    let name := (c.skip 1).rest.takeWhile isNameChar
    let behind := c.skip (1 + name.length)
    if behind.startsWith '!' then some ('!' :: name ++ ['!'], behind.skip 1)
    else some ('!' :: name, behind)

private def tagToken? (flow : Bool) (c : Cursor) : Option (Token × Cursor) := do
  let (handle, suffix, c) ←
    if (c.skip 1).startsWith '<' then do
      let (suffix, c) ← uri? true (c.skip 2)
      if suffix.isEmpty || !c.startsWith '>' then none
      else some ([], suffix, c.skip 1)
    else do
      let (handle, c) ← handle? c
      let (suffix, c) ← uri? false c
      if handle.length > 1 && handle.getLast? = some '!' then
        if suffix.isEmpty then none else some (handle, suffix, c)
      else
        let suffix := handle.tail ++ suffix
        if suffix.isEmpty then some ([], ['!'], c) else some (['!'], suffix, c)
  if atGap c.rest || (flow && c.startsWith ',') then
    some (.tag (String.ofList handle) (String.ofList suffix), c)
  else none

private def anchorName? (c : Cursor) : Option (String × Cursor) :=
  let name := c.rest.takeWhile isNameChar
  let behind := c.skip name.length
  if name.isEmpty then none
  else if atGap behind.rest || behind.peek?.any fun char => "?:,]\x7d%@`".toList.contains char then
    some (String.ofList name, behind)
  else none

/-! ## Directives -/

private def versionNumber? (c : Cursor) : Option (Nat × Cursor) :=
  let digits := c.rest.takeWhile Char.isDigit
  if digits.isEmpty || digits.length > 9 then none
  else some (digits.foldl (fun n d => n * 10 + (d.toNat - '0'.toNat)) 0, c.skip digits.length)

private def versionDirective? (c : Cursor) : Option (Token × Cursor) := do
  let (major, c) ← versionNumber? c
  if !c.startsWith '.' then none
  else
    let (minor, c) ← versionNumber? (c.skip 1)
    return (.version major minor, c)

private def tagDirective? (c : Cursor) : Option (Token × Cursor) := do
  let (handle, c) ← handle? c
  if handle.length > 1 && handle.getLast? ≠ some '!' then none
  else if !c.peek?.any isBlank then none
  else
    let (stem, c) ← uri? true (c.skipWhile isBlank)
    if stem.isEmpty || !atGap c.rest then none
    else return (.tagDirective (String.ofList handle) (String.ofList stem), c)

private def directive? (c : Cursor) : Option (Token × Cursor) := do
  let name := c.rest.takeWhile isNameChar
  let c := c.skip name.length
  if !atGap c.rest then none
  else
    let c := c.skipWhile isBlank
    let (t, c) ← match String.ofList name with
      | "YAML" => versionDirective? c
      | "TAG" => tagDirective? c
      | _ => none
    return (t, ← c.endLine?)

/-! ## Tokens -/

/-- A mark of the whole document, in front of which all blocks end. -/
private def outermost (s : Scan) : Option Scan := do
  let s ← (s.unroll (-1)).dropCandidate
  return { s with keyAllowed := false }

private def flowOpen (t : Token) (s : Scan) : Option Scan := do
  let s ← s.saveCandidate
  return { (s.push t).skip 1 with candidates := none :: s.candidates, keyAllowed := true }

private def flowClose (t : Token) (s : Scan) : Option Scan := do
  let s ← s.dropCandidate
  return { (s.push t).skip 1 with
    candidates := if s.inFlow then s.candidates.tail else s.candidates, keyAllowed := false }

private def flowEntry (s : Scan) : Option Scan := do
  let s ← s.dropCandidate
  return { (s.push .flowEntry).skip 1 with keyAllowed := true }

private def blockEntry (s : Scan) : Option Scan := do
  if !s.inFlow && !s.keyAllowed then none
  else
    let s ← (s.roll s.cursor.column s.latest.length .blockSequence).dropCandidate
    return { (s.push .blockEntry).skip 1 with keyAllowed := true }

private def explicitKey (s : Scan) : Option Scan := do
  if !s.inFlow && !s.keyAllowed then none
  else
    let s ← (s.roll s.cursor.column s.latest.length .blockMapping).dropCandidate
    return { (s.push .key).skip 1 with keyAllowed := !s.inFlow }

/-- The mark in front of a value: what was remembered as a candidate is now a key. -/
private def valueMark (s : Scan) : Option Scan :=
  match s.candidates with
  | some k :: rest =>
    let s := (s.insert k.tokens .key).roll k.column k.tokens .blockMapping
    some { (s.push .value).skip 1 with candidates := none :: rest, keyAllowed := false }
  | _ =>
    if !s.inFlow && !s.keyAllowed then none
    else
      let s := s.roll s.cursor.column s.latest.length .blockMapping
      some { (s.push .value).skip 1 with keyAllowed := !s.inFlow }

private def namedMark (t : String → Token) (s : Scan) : Option Scan := do
  let s ← s.saveCandidate
  let (name, c) ← anchorName? (s.cursor.skip 1)
  return { s.push (t name) with cursor := c, keyAllowed := false }

private def tagMark (s : Scan) : Option Scan := do
  let s ← s.saveCandidate
  let (t, c) ← tagToken? s.inFlow s.cursor
  return { s.push t with cursor := c, keyAllowed := false }

private def blockScalar (literal : Bool) (s : Scan) : Option Scan := do
  let s ← s.dropCandidate
  let (text, c) ← scanBlock literal s.indent (s.cursor.skip 1)
  return { s.push (.scalar text false) with cursor := c, keyAllowed := true }

private def quotedScalar (double : Bool) (s : Scan) : Option Scan := do
  let s ← s.saveCandidate
  let c := s.cursor.skip 1
  let (text, c) ← scanQuoted double [] .none c.line c.column 0 c.rest
  return { s.push (.scalar text false) with cursor := c, keyAllowed := false }

private def plainScalar (s : Scan) : Option Scan := do
  let s ← s.saveCandidate
  let c := s.cursor
  let scalar ← scanPlain s.inFlow (s.indent + 1) [] .none c.line c.column c.rest
  return { s.push (.scalar scalar.text true) with
    cursor := scalar.cursor, keyAllowed := scalar.brokeLine }

private def directiveMark (s : Scan) : Option Scan := do
  let s ← outermost s
  let (t, c) ← directive? (s.cursor.skip 1)
  return { s.push t with cursor := c }

private def documentMark (t : Token) (s : Scan) : Option Scan := do
  let s ← outermost s
  return (s.push t).skip 3

/-- Whether a plain scalar may begin with a text that is no mark by itself. -/
private def startsPlain (flow : Bool) : List Char → Bool
  | [] => false
  | c :: rest =>
    !(isBlank c || isBreak c || "-?:,[]\x7b\x7d#&*!|>'\"%@`".toList.contains c)
      || (c = '-' && !rest.head?.any isBlank)
      || (!flow && (c = '?' || c = ':') && !atGap rest)

private def token (s : Scan) : Option Scan :=
  let rest := s.cursor.rest.tail
  match s.cursor.rest with
  | [] => some s
  | c :: _ =>
    if c = '%' && s.cursor.column = 0 then directiveMark s
    else if s.cursor.atDocumentMark then
      documentMark (if c = '-' then .documentStart else .documentEnd) s
    else if c = '[' then flowOpen .flowSequence s
    else if c = '\x7b' then flowOpen .flowMapping s
    else if c = ']' then flowClose .flowSequenceEnd s
    else if c = '\x7d' then flowClose .flowMappingEnd s
    else if c = ',' then flowEntry s
    else if c = '-' && atGap rest then blockEntry s
    else if c = '?' && (s.inFlow || atGap rest) then explicitKey s
    else if c = ':' && (s.inFlow || atGap rest) then valueMark s
    else if c = '*' then namedMark .alias s
    else if c = '&' then namedMark .anchor s
    else if c = '!' then tagMark s
    else if c = '|' && !s.inFlow then blockScalar true s
    else if c = '>' && !s.inFlow then blockScalar false s
    else if c = '\'' then quotedScalar false s
    else if c = '"' then quotedScalar true s
    else if startsPlain s.inFlow s.cursor.rest then plainScalar s
    else none

/-- Reads tokens to the end of the text; `fuel` bounds their number. -/
private def toEnd : (fuel : Nat) → Scan → Option Scan
  | 0, _ => none
  | fuel + 1, s => do
    let s ← s.advance.dropStale
    let s := s.unroll s.cursor.column
    if s.cursor.rest.isEmpty then outermost s else toEnd fuel (← token s)

end Scan

def Token.scan (text : List Char) : Option (List Token) :=
  (Scan.toEnd (text.length + 1) { cursor := { rest := text } }).map fun s => s.latest.reverse

end StateFlow.Yaml
