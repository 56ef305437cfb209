import StateFlow.Playbook.State
import StateFlow.Schema.Check

/-!
# The shape of playbooks

The schema of whole playbooks and of single states, one shape for each kind of state. Where a number
of seconds is asked for, a Wait also takes a literal: a marker around the text to be put there.
-/

namespace StateFlow.Playbook.Shape

open StateFlow.Schema

/-! ## Parts -/

def inner (parts : List Schema) : Inner := .schema (.all parts)

def text : Inner := inner [.type .string]

def boolean : Inner := inner [.type .boolean]

def anyObject : Inner := inner [.type .object]

def stateNameSchema : Schema := .all [.type .string, .pattern .stateName]

def stateName : Inner := .schema stateNameSchema

def path : Inner := inner [.type .string, .pattern .path]

def timestamp : Inner := inner [.type .string, .timestamp]

def seconds (least : Nat) : Inner := inner [.type .integer, .minimum least, .maximum 99999999]

def count : Inner := inner [.type .integer, .minimum 0]

def errorEquals : Inner := inner [.type .array, .minItems 1, .eachItem text]

def retrier : Inner := inner
  [.type .object, .required ["ErrorEquals"],
    .closed [("ErrorEquals", errorEquals), ("IntervalSeconds", seconds 1),
      ("MaxAttempts", seconds 0), ("BackoffRate", inner [.type .number, .minimum 0])]]

def catcher : Inner := inner
  [.type .object, .required ["ErrorEquals", "Next"],
    .closed [("ErrorEquals", errorEquals), ("Next", stateName), ("ResultPath", path)]]

/-- Named states; each is checked against the schema to which references go. -/
def states : Inner := inner
  [.type .object, .eachName stateNameSchema, .eachMember .recur]

def machine : Inner := inner
  [.type .object, .required ["StartAt", "States"],
    .closed [("Comment", text), ("StartAt", stateName), ("States", states), ("Version", text),
      ("TimeoutSeconds", count)]]

def exactlyOne (names : List String) : Schema := .oneOf (names.map fun name => .required [name])

/-! ## Choice rules -/

inductive Operand where
  | string | number | boolean | timestamp | path

def Operand.schema : Operand → Inner
  | .string => text
  | .number => inner [.type .number]
  | .boolean => Shape.boolean
  | .timestamp => Shape.timestamp
  | .path => Shape.path

/-- The comparisons of one type: with an operand, or with the value at a path. -/
def orderings (type : String) (operand : Operand) : Entries Operand :=
  ["Equals", "LessThan", "GreaterThan", "LessThanEquals", "GreaterThanEquals"].flatMap
    fun relation => [(type ++ relation, operand), (type ++ relation ++ "Path", .path)]

def comparators : Entries Operand :=
  orderings "String" .string ++ [("StringMatches", .string)]
    ++ orderings "Numeric" .number
    ++ [("BooleanEquals", .boolean), ("BooleanEqualsPath", .path)]
    ++ orderings "Timestamp" .timestamp
    ++ [("IsBoolean", .boolean), ("IsNull", .boolean), ("IsPresent", .boolean),
      ("IsNumeric", .boolean), ("IsString", .boolean), ("IsTimestamp", .boolean)]

def comparatorMembers : Entries Inner := Entries.mapValues Operand.schema comparators

/-- A variable and exactly one comparison. -/
def dataTest : Schema := .all
  [.type .object, .required ["Variable"], .closed (("Variable", text) :: comparatorMembers),
    exactlyOne (Entries.keys comparators)]

def topLevelDataTest : Schema := .all
  [.type .object, .required ["Variable", "Next"],
    .closed ([("Variable", text), ("Next", stateName)] ++ comparatorMembers),
    exactlyOne (Entries.keys comparators)]

def nestedNot : Schema := .all
  [.type .object, .required ["Not"], .closed [("Not", .schema dataTest)]]

/-- A list of data tests and negations of data tests. -/
def nestedTests : Inner := inner
  [.type .array, .minItems 1, .eachItem (.schema (.anyOf [dataTest, nestedNot]))]

def booleanExpression : Schema := .all
  [.type .object, .required ["Next"],
    .closed [("Next", stateName), ("Not", .schema dataTest), ("And", nestedTests),
      ("Or", nestedTests)],
    exactlyOne ["And", "Or", "Not"]]

/-! ## States -/

/-- Whether a state has to say how it is left, or may leave it open. -/
inductive Terminal where
  | required | optional
deriving DecidableEq

/-- The members that say how a state is left, and the rule between them. -/
def exitMembers : Entries Inner :=
  [("Next", stateName), ("End", inner [.const (.bool true)])]

def exitRule : Terminal → Schema
  | .required => exactlyOne ["Next", "End"]
  | .optional => .notAll ["Next", "End"]

def kindObject (kind : Schema) (required : List String) (members : Entries Inner)
    (rules : List Schema) : Schema := .all
  [.type .object, .required ("Type" :: required),
    .closed (("Type", .schema kind) :: ("Comment", text) :: members), .all rules]

def isKind (kind : Kind) : Schema := .const (.text kind.name)

def ioMembers : Entries Inner := [("InputPath", path), ("OutputPath", path)]

def workMembers (resultPath : Inner) : Entries Inner :=
  ioMembers ++
    [("Parameters", anyObject), ("ResultSelector", anyObject), ("ResultPath", resultPath),
      ("Retry", inner [.type .array, .eachItem retrier]),
      ("Catch", inner [.type .array, .eachItem catcher])]

def pass : Schema :=
  kindObject (isKind .pass) []
    (ioMembers ++ [("ResultPath", path), ("Result", anyObject), ("Parameters", anyObject)]
      ++ exitMembers)
    [exitRule .required]

def succeed : Schema := kindObject (isKind .succeed) [] ioMembers []

def fail : Schema := kindObject (isKind .fail) [] [("Cause", text), ("Error", text)] []

/-- A number of seconds that is not negative, or a literal. -/
def waitSeconds (marker : String) : Inner := .schema <| .anyOf
  [.all [.type .number, .minimum 0], .all [.type .string, .pattern (.literal marker)]]

def wait (marker : String) : Schema :=
  kindObject (isKind .wait) []
    (ioMembers ++ [("Seconds", waitSeconds marker), ("Timestamp", timestamp),
      ("SecondsPath", path), ("TimestampPath", path)] ++ exitMembers)
    [exactlyOne ["Seconds", "Timestamp", "SecondsPath", "TimestampPath"], exitRule .required]

/-- The shape of a Task, which is that of an Interaction too. -/
def task (terminal : Terminal) : Schema :=
  kindObject (.enum [.text Kind.task.name, .text Kind.interaction.name]) ["Resource"]
    (workMembers path ++ [("Resource", text), ("TimeoutSeconds", seconds 1),
      ("TimeoutSecondsPath", path), ("HeartbeatSeconds", seconds 1),
      ("HeartbeatSecondsPath", path)] ++ exitMembers)
    [exitRule terminal]

def choice : Schema :=
  kindObject (isKind .choice) ["Choices"]
    (ioMembers ++ [("Default", stateName),
      ("Choices", inner [.type .array, .minItems 1,
        .eachItem (.schema (.anyOf [booleanExpression, topLevelDataTest]))])])
    []

/-- The shape of a Parallel; its result path may be any text. -/
def parallel (terminal : Terminal) : Schema :=
  kindObject (isKind .parallel) ["Branches"]
    (workMembers text
      ++ [("Branches", inner [.type .array, .minItems 1, .eachItem machine])] ++ exitMembers)
    [exitRule terminal]

def map : Schema :=
  kindObject (isKind .map) ["Iterator"]
    (workMembers path ++ [("Iterator", machine), ("ItemsPath", path), ("MaxConcurrency", count)]
      ++ exitMembers)
    [exitRule .required]

def ofKind (marker : String) : Kind → Schema
  | .pass => pass
  | .succeed => succeed
  | .fail => fail
  | .wait => wait marker
  | .task => task .required
  | .interaction => task .required
  | .choice => choice
  | .parallel => parallel .required
  | .map => map

/-- A known kind, and for each listed kind its shape. -/
def byKind (shapes : List (Kind × Schema)) : Schema := .all
  [.type .object, .required ["Type"],
    .properties [("Type", .schema (.enum (Kind.all.map fun kind => .text kind.name)))],
    .all (shapes.map fun entry => .implies
      (.all [.required ["Type"], .properties [("Type", .schema (isKind entry.1))]]) entry.2)]

def state (marker : String) : Schema :=
  byKind (Kind.all.map fun kind => (kind, ofKind marker kind))

/-- The shape of a failure handler. Kinds that cannot handle failures only have to be known. -/
def handler : Schema :=
  byKind [(.task, task .optional), (.interaction, task .optional), (.parallel, parallel .optional)]

def disableDefaultRetry : Inner := inner
  [.type .object, .closed [("all", boolean), ("tasks", inner [.type .array, .eachItem stateName])],
    exactlyOne ["all", "tasks"]]

def decorators : Inner := inner
  [.type .object,
    .closed [("TaskFailureHandler", .schema handler), ("DisableDefaultRetry", disableDefaultRetry)]]

def playbook : Schema := .all
  [.type .object, .required ["Playbook", "Comment", "StartAt", "States"],
    .closed [("Playbook", inner [.type .string, .pattern .playbookName]),
      ("Comment", inner [.type .string, .minLength 1]), ("StartAt", stateName),
      ("States", states), ("Version", text), ("TimeoutSeconds", count),
      ("Decorators", decorators)]]

/-! ## Checks -/

def checkPlaybook (marker : String) (v : Json) : List Violation :=
  check (state marker) v (.schema playbook)

def checkState (marker : String) (kind : Kind) (v : Json) : List Violation :=
  check (state marker) v (.schema (ofKind marker kind))

end StateFlow.Playbook.Shape
