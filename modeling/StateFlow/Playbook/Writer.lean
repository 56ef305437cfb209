import StateFlow.Json.Members
import StateFlow.Playbook.Document

/-!
# Writing playbooks as Json

Members stand in a fixed order whatever order they were read in; parts that are absent are left out.
-/

namespace StateFlow.Playbook

open StateFlow.Json

def texts (items : List String) : Json := Json.ofList Json.str items

def Retrier.toJson (r : Retrier) : Json := .obj <|
  [("ErrorEquals", texts r.errorEquals)]
    ++ optionalEntry "IntervalSeconds" Json.ofWord r.intervalSeconds
    ++ optionalEntry "MaxAttempts" Json.ofWord r.maxAttempts
    ++ optionalEntry "BackoffRate" Json.num r.backoffRate

def Catcher.toJson (c : Catcher) : Json := .obj <|
  [("ErrorEquals", texts c.errorEquals)]
    ++ optionalEntry "ResultPath" Json.str c.resultPath
    ++ [("Next", .str c.next)]

def ChoiceRule.toJson (r : ChoiceRule) : Json := .obj (r.condition ++ [("Next", .str r.next)])

def DisableDefaultRetry.toJson (d : DisableDefaultRetry) : Json := .obj <|
  optionalEntry "all" Json.bool d.all ++ optionalEntry "tasks" texts d.tasks

def Header.entries (h : Header) : Entries Json :=
  optionalEntry "Comment" Json.str h.comment
    ++ optionalEntry "InputPath" Json.str h.inputPath
    ++ optionalEntry "OutputPath" Json.str h.outputPath

def Exit.entries (e : Exit) : Entries Json :=
  optionalEntry "Next" Json.str e.next ++ optionalEntry "End" Json.bool e.isEnd

def Effects.entries (e : Effects) : Entries Json :=
  optionalEntry "Parameters" id e.parameters
    ++ optionalEntry "ResultSelector" id e.resultSelector
    ++ optionalEntry "ResultPath" Json.str e.resultPath

def Recovery.entries (r : Recovery) : Entries Json :=
  optionalEntry "Retry" (Json.ofList Retrier.toJson) r.retry
    ++ optionalEntry "Catch" (Json.ofList Catcher.toJson) r.catchers

def Pass.entries (s : Pass) : Entries Json :=
  s.header.entries
    ++ optionalEntry "Parameters" id s.parameters
    ++ optionalEntry "Result" id s.result
    ++ optionalEntry "ResultPath" Json.str s.resultPath
    ++ s.exit.entries

def Fail.entries (s : Fail) : Entries Json :=
  optionalEntry "Comment" Json.str s.comment
    ++ optionalEntry "Cause" Json.str s.cause
    ++ optionalEntry "Error" Json.str s.error

def Wait.entries (s : Wait) : Entries Json :=
  s.header.entries
    ++ optionalEntry "Seconds" id s.seconds
    ++ optionalEntry "Timestamp" Json.str s.timestamp
    ++ optionalEntry "SecondsPath" Json.str s.secondsPath
    ++ optionalEntry "TimestampPath" Json.str s.timestampPath
    ++ s.exit.entries

def Task.entries (s : Task) : Entries Json :=
  s.header.entries
    ++ [("Resource", .str s.resource)]
    ++ s.effects.entries
    ++ optionalEntry "TimeoutSeconds" Json.ofWord s.timeoutSeconds
    ++ optionalEntry "TimeoutSecondsPath" Json.str s.timeoutSecondsPath
    ++ optionalEntry "HeartbeatSeconds" Json.ofWord s.heartbeatSeconds
    ++ optionalEntry "HeartbeatSecondsPath" Json.str s.heartbeatSecondsPath
    ++ s.recovery.entries
    ++ s.exit.entries

def Choice.entries (s : Choice) : Entries Json :=
  s.header.entries
    ++ [("Choices", Json.ofList ChoiceRule.toJson s.rules)]
    ++ optionalEntry "Default" Json.str s.fallback

/-- The members of a Parallel around its branches. -/
def Parallel.entries (s : Parallel) (branches : Json) : Entries Json :=
  s.header.entries
    ++ s.effects.entries
    ++ s.recovery.entries
    ++ [("Branches", branches)]
    ++ s.exit.entries

def MapOver.entries (s : MapOver) (iterator : Json) : Entries Json :=
  s.header.entries
    ++ optionalEntry "ItemsPath" Json.str s.itemsPath
    ++ optionalEntry "MaxConcurrency" Json.ofWord s.maxConcurrency
    ++ [("Iterator", iterator)]
    ++ s.effects.entries
    ++ s.recovery.entries
    ++ s.exit.entries

/-- The members of a machine around its states. -/
def machineObject (comment : Option String) (startAt : String) (states : Json)
    (extra : Entries Json) : Json := .obj <|
  optionalEntry "Comment" Json.str comment
    ++ [("StartAt", .str startAt), ("States", states)]
    ++ extra

mutual

/-- The members of a state apart from its kind. -/
def State.entries : State → Entries Json
  | .pass s => s.entries
  | .succeed h => h.entries
  | .fail s => s.entries
  | .wait s => s.entries
  | .task s => s.entries
  | .interaction s => s.entries
  | .choice s => s.entries
  | .parallel s branches => s.entries (.arr (Machine.listToJson branches))
  | .map s iterator => s.entries (Machine.toJson iterator)

def Machine.toJson : Machine → Json
  | ⟨comment, startAt, states, extra⟩ =>
    machineObject comment startAt (.obj (State.namedToJson states)) extra

def Machine.listToJson : List Machine → List Json
  | [] => []
  | m :: rest => Machine.toJson m :: Machine.listToJson rest

def State.namedToJson : List (String × State) → Entries Json
  | [] => []
  | (name, s) :: rest =>
    (name, .obj (("Type", .str s.kind.name) :: State.entries s)) :: State.namedToJson rest

end

def State.toJson (s : State) : Json := .obj (("Type", .str s.kind.name) :: s.entries)

def statesToJson (states : Entries State) : Json := .obj (State.namedToJson states)

def Decorators.toJson (d : Decorators) : Json := .obj <|
  optionalEntry "TaskFailureHandler" State.toJson d.taskFailureHandler
    ++ optionalEntry "DisableDefaultRetry" DisableDefaultRetry.toJson d.disableDefaultRetry

def Document.toJson (d : Document) : Json := .obj <|
  [("Playbook", .str d.name), ("Comment", .str d.comment), ("StartAt", .str d.startAt),
    ("States", statesToJson d.states)]
    ++ optionalEntry "Decorators" Decorators.toJson d.decorators
    ++ d.extra

end StateFlow.Playbook
