import StateFlow.Schema.Basic
import StateFlow.Schema.Timestamp

/-!
# Checking values against schemas

The violations of a schema by a value are listed in the order in which the parts of the schema
stand. The recursion follows the value: the items and members of a value come with their own checks,
and inside one value the recursion follows the schema.
-/

namespace StateFlow.Schema

abbrev InnerCheck := Inner → List Violation

/-- A value with the checks of its items and members. -/
structure Instance where
  value : Json
  items : List InnerCheck := []
  members : Entries InnerCheck := []

def here (cause : Cause) : List Violation := [⟨[], cause⟩]

def demand (condition : Bool) (cause : Cause) : List Violation :=
  if condition then [] else here cause

def memberViolations (name : String) (check : InnerCheck) (inner : Inner) :
    List Violation :=
  (check inner).map (Violation.under (.key name))

def itemViolations (inner : Inner) : (n : Nat) → List InnerCheck → List Violation
  | _, [] => []
  | n, check :: rest =>
    (check inner).map (Violation.under (.index n)) ++ itemViolations inner (n + 1) rest

def namesOf : Json → List String
  | .obj members => Entries.keys members
  | _ => []

def isObject : Json → Bool
  | .obj _ => true
  | _ => false

/-- The violations of members with known names, in the order of the object, and then one for all
members with other names. -/
def closedViolations (known : Entries Inner) (members : Entries InnerCheck) :
    List Violation :=
  let own := members.flatMap fun entry =>
    match Entries.get? known entry.1 with
    | some inner => memberViolations entry.1 entry.2 inner
    | none => []
  let strangers := (Entries.keys members).filter fun name => !Entries.has known name
  own ++ demand strangers.isEmpty (.unexpected strangers)

/-- The violations of members with known names, in the order of the schema. -/
def propertyViolations (known : Entries Inner) (members : Entries InnerCheck) :
    List Violation :=
  known.flatMap fun entry =>
    match Entries.get? members entry.1 with
    | some check => memberViolations entry.1 check entry.2
    | none => []

mutual

def violations (i : Instance) : Schema → List Violation
  | .all parts => (violationsEach i parts).flatten
  | .anyOf parts =>
    demand ((violationsEach i parts).any List.isEmpty) (.noneOf "anyOf" i.value)
  | .oneOf parts =>
    match (violationsEach i parts).countP List.isEmpty with
    | 0 => here (.noneOf "oneOf" i.value)
    | 1 => []
    | _ => here (.severalOf i.value)
  | .implies condition consequence =>
    if (violations i condition).isEmpty then violations i consequence else []
  | .type name => demand (name.accepts i.value) (.type i.value name)
  | .const value => demand (value.accepts i.value) (.const value)
  | .enum values => demand (values.any fun value => value.accepts i.value) (.enum i.value values)
  | .required names =>
    if isObject i.value then
      (names.filter fun name => !Entries.has i.members name).flatMap fun name => here (.missing name)
    else []
  | .notAll names =>
    demand (isObject i.value && !(names.all fun name => Entries.has i.members name))
      (.notAll names i.value)
  | .properties known => propertyViolations known i.members
  | .closed known => closedViolations known i.members
  | .eachMember inner => i.members.flatMap fun entry => memberViolations entry.1 entry.2 inner
  | .eachName schema => (namesOf i.value).flatMap fun name => violations ⟨.str name, [], []⟩ schema
  | .eachItem inner => itemViolations inner 0 i.items
  | .minItems count =>
    match i.value with
    | .arr items => demand (items.length ≥ count) (.minItems i.value count)
    | _ => []
  | .minLength count =>
    match i.value with
    | .str text => demand (text.toList.length ≥ count) (.minLength i.value count)
    | _ => []
  | .pattern p =>
    match i.value with
    | .str text => demand (p.accepts text) (.pattern i.value p)
    | _ => []
  | .timestamp =>
    match i.value with
    | .str text => demand (Timestamp.accepts text) (.timestamp i.value)
    | _ => []
  | .minimum bound =>
    match i.value with
    | .num n => demand (!n.ltNat bound) (.minimum i.value bound)
    | _ => []
  | .maximum bound =>
    match i.value with
    | .num n => demand (!n.gtNat bound) (.maximum i.value bound)
    | _ => []

def violationsEach (i : Instance) : List Schema → List (List Violation)
  | [] => []
  | schema :: rest => violations i schema :: violationsEach i rest

end

def Inner.resolve (target : Schema) : Inner → Schema
  | .schema own => own
  | .recur => target

mutual

/-- The violations by a value, where references go to `target`. -/
def check (target : Schema) : Json → InnerCheck
  | .arr items => fun inner =>
    violations ⟨.arr items, checkItems target items, []⟩ (inner.resolve target)
  | .obj members => fun inner =>
    violations ⟨.obj members, [], checkMembers target members⟩ (inner.resolve target)
  | v => fun inner => violations ⟨v, [], []⟩ (inner.resolve target)

def checkItems (target : Schema) : List Json → List InnerCheck
  | [] => []
  | v :: rest => check target v :: checkItems target rest

def checkMembers (target : Schema) : List (String × Json) → Entries InnerCheck
  | [] => []
  | (name, v) :: rest => (name, check target v) :: checkMembers target rest

end

end StateFlow.Schema
