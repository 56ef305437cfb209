import StateFlow.Json.Members
import StateFlow.Json.Skip
import StateFlow.Text.Ranges

/-!
# Compile options

Options come as a text. It is read straight into the record, so that the first thing wrong with it
decides the error; members of other names are skipped. A blank text stands for the default options.
-/

namespace StateFlow

open StateFlow.Text StateFlow.Json

structure Options where
  /-- Executions are logged. -/
  logging : Bool := false
deriving DecidableEq

namespace Options

inductive Fault where
  | malformed (fault : Json.Fault)
  | mismatch (cause : Mismatch) (pos : Position)
  | duplicate (field : String) (pos : Position)

def Fault.message : Fault → String
  | .malformed fault => fault.message
  | .mismatch cause pos => locate cause.message pos
  | .duplicate field pos => locate ("duplicate field `" ++ field ++ "`") pos

private def lift {α : Type} (r : Except Json.Fault α) : Except Fault α := r.mapError .malformed

/-- Refuses the value that stands at the cursor: a scalar behind it, a container in front of it. -/
private def refuse {α : Type} (expected : Expectation) (c : Cursor) : Except Fault α :=
  match c.rest with
  | '[' :: _ => .error (.mismatch (.type (.arr []) expected) c.pos)
  | '\x7b' :: _ => .error (.mismatch (.type (.obj []) expected) c.pos)
  | _ => do
    let (v, c) ← lift (Reader.scalar c)
    throw (.mismatch (.type v expected) c.pos)

private def flag (c : Cursor) : Except Fault (Bool × Cursor) :=
  let c := Reader.skipBlanks c
  match c.rest with
  | 't' :: rest => return (true, ← lift (Reader.word ['r', 'u', 'e'] ⟨rest, c.pos.skip 1⟩))
  | 'f' :: rest => return (false, ← lift (Reader.word ['a', 'l', 's', 'e'] ⟨rest, c.pos.skip 1⟩))
  | _ => refuse .boolean c

/-- Where a record is left whose member turns out to be a second one. -/
private def leave (c : Cursor) : Position :=
  let c := Reader.skipBlanks c
  match c.rest with
  | '\x7d' :: _ => c.pos.skip 1
  | _ => c.pos

private def members : (fuel : Nat) → (first : Bool) → Option Bool → Cursor →
    Except Fault (Options × Cursor)
  | 0, _, _, c => lift (Reader.faultAt .endInObject c)
  | fuel + 1, first, logging, c => do
    match ← lift (Reader.nextKey first c) with
    | .inr c => return (⟨logging.getD false⟩, c)
    | .inl c =>
      let (key, c) ← lift (Reader.string c)
      if key = "logging" then
        if logging.isSome then throw (.duplicate key (leave c))
        let c ← lift (Reader.colon c)
        let (value, c) ← flag c
        members fuel false (some value) c
      else
        let c ← lift (Reader.colon c)
        let c ← lift (Skip.value c)
        members fuel false logging c

/-- Reads the rest of a list that stands for a record: its only item, if any, is the first field. -/
private def list (c : Cursor) : Except Fault (Options × Cursor) := do
  match ← lift (Reader.nextItem true c) with
  | .inr c => return ({}, c)
  | .inl c =>
    let (value, c) ← flag c
    let c := Reader.skipBlanks c
    match c.rest with
    | [] => lift (Reader.faultAt .endInList c)
    | ']' :: rest => return (⟨value⟩, ⟨rest, c.pos.skip 1⟩)
    | ',' :: rest =>
      let c := Reader.skipBlanks ⟨rest, c.pos.skip 1⟩
      lift (Reader.faultAt
        (if c.rest.head? = some ']' then .trailingComma else .trailingCharacters) c)
    | _ => lift (Reader.faultAt .trailingCharacters c)

def blankRanges : List (Nat × Nat) :=
  [(0x9, 0xD), (0x20, 0x20), (0x85, 0x85), (0xA0, 0xA0), (0x1680, 0x1680), (0x2000, 0x200A),
   (0x2028, 0x2029), (0x202F, 0x202F), (0x205F, 0x205F), (0x3000, 0x3000)]

def parse (text : String) : Except Fault Options :=
  if text.toList.all (inRanges blankRanges) then .ok {}
  else do
    let c := Reader.skipBlanks (Cursor.ofString text)
    let (options, c) ← match c.rest with
      | '[' :: rest => list ⟨rest, c.pos.skip 1⟩
      | '\x7b' :: rest => members (rest.length + 1) true none ⟨rest, c.pos.skip 1⟩
      | _ => refuse (.record "CompileOptions") c
    lift (Reader.finish c)
    return options

end Options

end StateFlow
