import StateFlow.Json.Pointer
import StateFlow.Json.Writer
import StateFlow.Schema.Pattern

/-!
# Schemas

A schema says which values are accepted. The parts of a schema are checked in order and every
violation counts. A part that speaks of one type of values accepts all values of other types.

The schema may refer to itself, but only for values inside the value at hand, so that checking ends
with the value.
-/

namespace StateFlow

namespace Schema

inductive TypeName where
  | object | array | string | number | integer | boolean
deriving DecidableEq

def TypeName.text : TypeName → String
  | .object => "object"
  | .array => "array"
  | .string => "string"
  | .number => "number"
  | .integer => "integer"
  | .boolean => "boolean"

/-- Whether a value is of a type; a whole double is an integer. -/
def TypeName.accepts : TypeName → Json → Bool
  | .object, .obj _ => true
  | .array, .arr _ => true
  | .string, .str _ => true
  | .number, .num _ => true
  | .integer, .num n => n.isWhole
  | .boolean, .bool _ => true
  | _, _ => false

inductive Constant where
  | bool (value : Bool)
  | text (value : String)
deriving DecidableEq

def Constant.toJson : Constant → Json
  | .bool b => .bool b
  | .text s => .str s

def Constant.accepts : Constant → Json → Bool
  | .bool b, .bool b' => b = b'
  | .text s, .str s' => s = s'
  | _, _ => false

end Schema

mutual

inductive Schema where
  /-- Every part holds. -/
  | all (parts : List Schema)
  /-- At least one part holds. -/
  | anyOf (parts : List Schema)
  /-- Exactly one part holds. -/
  | oneOf (parts : List Schema)
  /-- The second part holds if the first one does. -/
  | implies (condition consequence : Schema)
  | type (name : Schema.TypeName)
  | const (value : Schema.Constant)
  | enum (values : List Schema.Constant)
  /-- The object has each of these members. -/
  | required (names : List String)
  /-- The object does not have all of these members. -/
  | notAll (names : List String)
  /-- Members with these names, where present, hold their own schemas. -/
  | properties (members : List (String × Schema.Inner))
  /-- The same, and there are no members of other names. -/
  | closed (members : List (String × Schema.Inner))
  /-- Every member holds a schema. -/
  | eachMember (inner : Schema.Inner)
  /-- Every member's name holds a schema. -/
  | eachName (schema : Schema)
  /-- Every item holds a schema. -/
  | eachItem (inner : Schema.Inner)
  | minItems (count : Nat)
  | minLength (count : Nat)
  | pattern (p : Schema.Pattern)
  | timestamp
  | minimum (bound : Nat)
  | maximum (bound : Nat)

/-- A condition on values inside a value. -/
inductive Schema.Inner where
  /-- A schema of its own. -/
  | schema (schema : Schema)
  /-- The schema to which references go. -/
  | recur

end

namespace Schema

inductive Cause where
  | type (found : Json) (expected : TypeName)
  | const (expected : Constant)
  | enum (found : Json) (values : List Constant)
  | missing (name : String)
  | notAll (names : List String) (found : Json)
  | unexpected (names : List String)
  | noneOf (keyword : String) (found : Json)
  | severalOf (found : Json)
  | minItems (found : Json) (count : Nat)
  | minLength (found : Json) (count : Nat)
  | pattern (found : Json) (p : Pattern)
  | timestamp (found : Json)
  | minimum (found : Json) (bound : Nat)
  | maximum (found : Json) (bound : Nat)

private def plural (count : Nat) (noun : String) : String :=
  toString count ++ " " ++ (if count = 1 then noun else noun ++ "s")

private def alternatives (keyword : String) : String :=
  " of the schemas listed in the '" ++ keyword ++ "' keyword"

def Cause.message : Cause → String
  | .type found expected => found.compactText ++ " is not of type \"" ++ expected.text ++ "\""
  | .const expected => expected.toJson.compactText ++ " was expected"
  | .enum found values =>
    found.compactText ++ " is not one of " ++ (Json.arr (values.map Constant.toJson)).compactText
  | .missing name => (Json.str name).compactText ++ " is a required property"
  | .notAll names found =>
    (Json.obj [("required", .arr (names.map .str))]).compactText ++ " is not allowed for "
      ++ found.compactText
  | .unexpected names =>
    "Additional properties are not allowed ("
      ++ ", ".intercalate (names.map fun name => "'" ++ name ++ "'")
      ++ (if names.length = 1 then " was" else " were") ++ " unexpected)"
  | .noneOf keyword found => found.compactText ++ " is not valid under any" ++ alternatives keyword
  | .severalOf found =>
    found.compactText ++ " is valid under more than one" ++ alternatives "oneOf"
  | .minItems found count => found.compactText ++ " has less than " ++ plural count "item"
  | .minLength found count => found.compactText ++ " is shorter than " ++ plural count "character"
  | .pattern found p => found.compactText ++ " does not match \"" ++ p.text ++ "\""
  | .timestamp found => found.compactText ++ " is not a \"date-time\""
  | .minimum found bound =>
    found.compactText ++ " is less than the minimum of " ++ toString bound
  | .maximum found bound =>
    found.compactText ++ " is greater than the maximum of " ++ toString bound

/-- What is wrong with a value, and where inside it. -/
structure Violation where
  path : List Json.Segment
  cause : Cause

/-- A violation seen from one level further out. -/
def Violation.under (segment : Json.Segment) (v : Violation) : Violation :=
  { v with path := segment :: v.path }

end Schema

end StateFlow
