import StateFlow.Json.Writer
import StateFlow.Text.Quoted

/-!
# Reading records

A record is read from the members of an object. Each part looks its member up by name, and of all
parts that fail the one whose member stands first in the object decides the error; members that are
missing count as standing behind all others, in the order in which the record asks for them.
-/

namespace StateFlow.Json

inductive Expectation where
  | string
  | boolean
  | sequence
  | map
  | number
  | unit
  | variantName
  | variant
  | singleKey
  | taggedState
  | record (name : String)
deriving DecidableEq

def Expectation.text : Expectation → String
  | .string => "a string"
  | .boolean => "a boolean"
  | .sequence => "a sequence"
  | .map => "a map"
  | .number => "a JSON number"
  | .unit => "unit"
  | .variantName => "variant identifier"
  | .variant => "string or map"
  | .singleKey => "map with a single key"
  | .taggedState => "internally tagged enum StateNode"
  | .record name => "struct " ++ name

inductive Mismatch where
  | type (found : Json) (expected : Expectation)
  | value (found : Json) (expected : Expectation)
  | missing (field : String)
  | variant (found : String) (known : List String)
  | notWhole (found : Number)

def inTicks (text : String) : String := "`" ++ text ++ "`"

def describe : Json → String
  | null => "null"
  | bool b => "boolean " ++ inTicks (if b then "true" else "false")
  | num (.int n h) => "integer " ++ inTicks (String.ofList (Number.int n h).text)
  | num (.float x) => "floating point " ++ inTicks (String.ofList x.text)
  | str s => "string " ++ Text.quoted s
  | arr _ => "sequence"
  | obj _ => "map"

def Mismatch.message : Mismatch → String
  | .type found expected => "invalid type: " ++ describe found ++ ", expected " ++ expected.text
  | .value found expected => "invalid value: " ++ describe found ++ ", expected " ++ expected.text
  | .missing field => "missing field " ++ inTicks field
  | .variant found known =>
    "unknown variant " ++ inTicks found ++ ", expected one of "
      ++ ", ".intercalate (known.map inTicks)
  | .notWhole found =>
    "expected a non-negative whole number, found " ++ String.ofList found.text

/-! ## Values -/

def readString : Json → Except Mismatch String
  | str s => .ok s
  | v => .error (.type v .string)

def readBool : Json → Except Mismatch Bool
  | bool b => .ok b
  | v => .error (.type v .boolean)

def readNumber : Json → Except Mismatch Number
  | num n => .ok n
  | v => .error (.type v .number)

def readWord : Json → Except Mismatch UInt64
  | num n =>
    match n.toWord? with
    | some word => .ok word
    | none => .error (.notWhole n)
  | v => .error (.type v .number)

/-- Reads a list; the first item that fails decides the error. -/
def readList {α : Type} (read : Json → Except Mismatch α) : Json → Except Mismatch (List α)
  | arr items => items.mapM read
  | v => .error (.type v .sequence)

def readEntries {α : Type} (read : Json → Except Mismatch α) : Json → Except Mismatch (Entries α)
  | obj members => members.mapM fun entry => return (entry.1, ← read entry.2)
  | v => .error (.type v .map)

def readOptional {α : Type} (read : Json → Except Mismatch α) : Json → Except Mismatch (Option α)
  | null => .ok none
  | v => some <$> read v

/-- Reads any value but `null`. -/
def readAny : Json → Except Mismatch Json := .ok

/-! ## Records -/

/-- A member that fails, by its place in the object. -/
structure Failure where
  place : Nat
  mismatch : Mismatch

/-- The outcome of reading one or more parts of a record. -/
def Reading (α : Type) : Type := Except Failure α

namespace Reading

variable {α β : Type}

/-- Puts two parts together. If both fail, the failure that stands first decides. -/
def seq (f : Reading (α → β)) (x : Reading α) : Reading β :=
  match f, x with
  | .ok f, .ok x => .ok (f x)
  | .error e, .ok _ => .error e
  | .ok _, .error e => .error e
  | .error e, .error e' => .error (if e'.place < e.place then e' else e)

instance : Applicative Reading where
  pure x := (.ok x : Except Failure _)
  seq f x := Reading.seq f (x ())

def toExcept (r : Reading α) : Except Mismatch α :=
  match r with
  | .ok x => .ok x
  | .error e => .error e.mismatch

end Reading

namespace Members

variable {α β : Type}

def find? : Entries α → String → Option (Nat × α)
  | [], _ => none
  | (k, v) :: rest, key =>
    if k = key then some (0, v) else (find? rest key).map fun found => (found.1 + 1, found.2)

def readAt (read : α → Except Mismatch β) (found : Nat × α) : Reading β :=
  match read found.2 with
  | .ok x => (.ok x : Except Failure β)
  | .error e => (.error ⟨found.1, e⟩ : Except Failure β)

def required (members : Entries α) (key : String) (read : α → Except Mismatch β) : Reading β :=
  match find? members key with
  | some found => readAt read found
  -- The place is behind that of every member.
  | none => (.error ⟨members.length, .missing key⟩ : Except Failure β)

def optional (members : Entries α) (key : String) (read : α → Except Mismatch (Option β)) :
    Reading (Option β) :=
  match find? members key with
  | some found => readAt read found
  | none => pure none

end Members

/-- Reads a record from an object. Records are also known as arrays that hold their parts in order;
this form is left out, and an array is refused like any other value. -/
def readRecord {α : Type} (name : String) (read : Entries Json → Reading α) :
    Json → Except Mismatch α
  | obj members => (read members).toExcept
  | v => .error (.type v (.record name))

/-! ## Writing records -/

def optionalEntry {α : Type} (key : String) (write : α → Json) : Option α → Entries Json
  | none => []
  | some x => [(key, write x)]

def ofList {α : Type} (write : α → Json) (items : List α) : Json := arr (items.map write)

end StateFlow.Json
