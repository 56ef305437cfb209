import StateFlow.Json.Members

/-!
# Findings

A finding says what is wrong with a playbook or a state, and where.
-/

namespace StateFlow

inductive Finding.Category where
  /-- The shape is wrong. -/
  | shape
  /-- The shape is right but a rule between states is broken. -/
  | rule
  /-- The value is not even an object. -/
  | type
deriving DecidableEq

def Finding.Category.code : Finding.Category → String
  | .shape => "SCHEMA_VALIDATION_ERROR"
  | .rule => "RULE_VALIDATION_ERROR"
  | .type => "TYPE_ERROR"

structure Finding where
  category : Finding.Category
  message : String
  path : Option String := none
deriving DecidableEq

namespace Finding

open StateFlow.Json

def text (f : Finding) : String :=
  let place := f.path.getD ""
  "[" ++ f.category.code ++ "] " ++ f.message ++ (if place.isEmpty then "" else " (at '" ++ place ++ "')")

def toJson (f : Finding) : Json := .obj <|
  [("errorCode", .str f.category.code), ("message", .str f.message)]
    ++ optionalEntry "path" Json.str f.path

private def categories : List Category := [.shape, .rule, .type]

private def categoryOfCode (code : String) : Except Mismatch Category :=
  match categories.find? fun category => category.code = code with
  | some category => .ok category
  | none => .error (.variant code (categories.map Category.code))

/-- Reads the category of a finding: its code, or an object with the code as only name. -/
def Category.ofJson : Json → Except Mismatch Category
  | .str code => categoryOfCode code
  | .obj [(code, v)] => do
    let category ← categoryOfCode code
    match v with
    | .null => return category
    | v => throw (.type v .unit)
  | .obj members => .error (.value (.obj members) .singleKey)
  | v => .error (.type v .variant)

def ofJson : Json → Except Mismatch Finding :=
  readRecord "ValidationError" fun m => Finding.mk
    <$> Members.required m "errorCode" Category.ofJson
    <*> Members.required m "message" readString
    <*> Members.optional m "path" (readOptional readString)

/-- The verdict on a value: it is valid if nothing was found. -/
def verdict (findings : List Finding) : Json := .obj
  [("isValid", .bool findings.isEmpty), ("errors", Json.ofList toJson findings)]

end Finding

end StateFlow
