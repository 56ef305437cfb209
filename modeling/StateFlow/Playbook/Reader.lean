import StateFlow.Json.Members
import StateFlow.Playbook.Document

/-!
# Reading playbooks from Json

The kind of a state is looked up first; the members of its kind are then read from the object, and
all others are dropped, except in machines, documents and choice rules, which carry them along.
-/

namespace StateFlow.Playbook

open StateFlow.Json

def others {α : Type} (known : List String) (members : Entries α) : Entries α :=
  Entries.filterKeys (fun key => !known.contains key) members

/-! ## Records without states -/

def Retrier.ofJson : Json → Except Mismatch Retrier :=
  readRecord "Retrier" fun m => Retrier.mk
    <$> Members.required m "ErrorEquals" (readList readString)
    <*> Members.optional m "IntervalSeconds" (readOptional readWord)
    <*> Members.optional m "MaxAttempts" (readOptional readWord)
    <*> Members.optional m "BackoffRate" (readOptional readNumber)

def Catcher.ofJson : Json → Except Mismatch Catcher :=
  readRecord "Catcher" fun m => Catcher.mk
    <$> Members.required m "ErrorEquals" (readList readString)
    <*> Members.optional m "ResultPath" (readOptional readString)
    <*> Members.required m "Next" readString

def ChoiceRule.ofJson : Json → Except Mismatch ChoiceRule :=
  readRecord "ChoiceRule" fun m => ChoiceRule.mk
    <$> pure (others ["Next"] m)
    <*> Members.required m "Next" readString

def DisableDefaultRetry.ofJson : Json → Except Mismatch DisableDefaultRetry :=
  readRecord "DisableDefaultRetry" fun m => DisableDefaultRetry.mk
    <$> Members.optional m "all" (readOptional readBool)
    <*> Members.optional m "tasks" (readOptional (readList readString))

/-! ## States

A member of a state may hold machines. So that the recursion follows the value, every member is
taken together with what it reads as where states are asked for. -/

/-- A value, and what it reads as where states or machines are asked for. -/
structure Part where
  value : Json
  state : Thunk (Except Mismatch State)
  states : Thunk (Except Mismatch (Entries State))
  machine : Thunk (Except Mismatch Machine)
  machines : Thunk (Except Mismatch (List Machine))

def Part.scalar (value : Json) : Part where
  value := value
  state := Thunk.mk fun _ => .error (.type value .taggedState)
  states := Thunk.mk fun _ => .error (.type value .map)
  machine := Thunk.mk fun _ => .error (.type value (.record "StateMachine"))
  machines := Thunk.mk fun _ => .error (.type value .sequence)

/-- A member that may be absent or `null`. -/
def optionalPart {β : Type} (m : Entries Part) (key : String) (read : Json → Except Mismatch β) :
    Reading (Option β) :=
  Members.optional m key fun part => readOptional read part.value

def requiredPart {β : Type} (m : Entries Part) (key : String) (read : Json → Except Mismatch β) :
    Reading β :=
  Members.required m key fun part => read part.value

namespace Fields

def header (m : Entries Part) : Reading Header := Header.mk
  <$> optionalPart m "Comment" readString
  <*> optionalPart m "InputPath" readString
  <*> optionalPart m "OutputPath" readString

def exit (m : Entries Part) : Reading Exit := Exit.mk
  <$> optionalPart m "Next" readString
  <*> optionalPart m "End" readBool

def effects (m : Entries Part) : Reading Effects := Effects.mk
  <$> optionalPart m "Parameters" readAny
  <*> optionalPart m "ResultSelector" readAny
  <*> optionalPart m "ResultPath" readString

def recovery (m : Entries Part) : Reading Recovery := Recovery.mk
  <$> optionalPart m "Retry" (readList Retrier.ofJson)
  <*> optionalPart m "Catch" (readList Catcher.ofJson)

def pass (m : Entries Part) : Reading Pass := Pass.mk
  <$> header m
  <*> optionalPart m "Parameters" readAny
  <*> optionalPart m "Result" readAny
  <*> optionalPart m "ResultPath" readString
  <*> exit m

def fail (m : Entries Part) : Reading Fail := Fail.mk
  <$> optionalPart m "Comment" readString
  <*> optionalPart m "Cause" readString
  <*> optionalPart m "Error" readString

def wait (m : Entries Part) : Reading Wait := Wait.mk
  <$> header m
  <*> optionalPart m "Seconds" readAny
  <*> optionalPart m "Timestamp" readString
  <*> optionalPart m "SecondsPath" readString
  <*> optionalPart m "TimestampPath" readString
  <*> exit m

def task (m : Entries Part) : Reading Task := Task.mk
  <$> header m
  <*> requiredPart m "Resource" readString
  <*> effects m
  <*> optionalPart m "TimeoutSeconds" readWord
  <*> optionalPart m "TimeoutSecondsPath" readString
  <*> optionalPart m "HeartbeatSeconds" readWord
  <*> optionalPart m "HeartbeatSecondsPath" readString
  <*> recovery m
  <*> exit m

def choice (m : Entries Part) : Reading Choice := Choice.mk
  <$> header m
  <*> requiredPart m "Choices" (readList ChoiceRule.ofJson)
  <*> optionalPart m "Default" readString

def parallel (m : Entries Part) : Reading Parallel := Parallel.mk
  <$> header m
  <*> effects m
  <*> recovery m
  <*> exit m

def mapOver (m : Entries Part) : Reading MapOver := MapOver.mk
  <$> header m
  <*> optionalPart m "ItemsPath" readString
  <*> optionalPart m "MaxConcurrency" readWord
  <*> effects m
  <*> recovery m
  <*> exit m

def state (m : Entries Part) : Kind → Reading State
  | .pass => State.pass <$> pass m
  | .succeed => State.succeed <$> header m
  | .fail => State.fail <$> fail m
  | .wait => State.wait <$> wait m
  | .task => State.task <$> task m
  | .interaction => State.interaction <$> task m
  | .choice => State.choice <$> choice m
  | .parallel => State.parallel
      <$> parallel m <*> Members.required m "Branches" (fun part => part.machines.get)
  | .map => State.map
      <$> mapOver m <*> Members.required m "Iterator" (fun part => part.machine.get)

def machine (m : Entries Part) : Reading Machine := Machine.mk
  <$> optionalPart m "Comment" readString
  <*> requiredPart m "StartAt" readString
  <*> Members.required m "States" (fun part => part.states.get)
  <*> pure (Entries.mapValues Part.value (others ["Comment", "StartAt", "States"] m))

end Fields

/-- Reads the kind of a state from the member that names it. A number that counts the kinds is left
out: inside another state it would name a kind as well. -/
def Kind.ofMember : Option Json → Except Mismatch Kind
  | none => .error (.missing "Type")
  | some (.str text) =>
    match Kind.ofName? text with
    | some kind => .ok kind
    | none => .error (.variant text (Kind.all.map Kind.name))
  | some v => .error (.type v .variantName)

def State.ofMembers (m : Entries Part) : Except Mismatch State := do
  let kind ← Kind.ofMember ((Entries.get? m "Type").map Part.value)
  (Fields.state m kind).toExcept

mutual

/-- A value with what it reads as. An array reads as machines only; the form of a state in which an
array holds its kind and then its fields is left out. -/
def Part.ofJson : Json → Part
  | .arr items =>
    let parts := Part.ofItems items
    { Part.scalar (.arr items) with
      machines := Thunk.mk fun _ => parts.mapM fun part => part.machine.get }
  | .obj members =>
    let parts := Part.ofMembers members
    { Part.scalar (.obj members) with
      state := Thunk.mk fun _ => State.ofMembers parts
      states := Thunk.mk fun _ => parts.mapM fun entry => return (entry.1, ← entry.2.state.get)
      machine := Thunk.mk fun _ => (Fields.machine parts).toExcept }
  | v => Part.scalar v

def Part.ofItems : List Json → List Part
  | [] => []
  | v :: rest => Part.ofJson v :: Part.ofItems rest

def Part.ofMembers : List (String × Json) → Entries Part
  | [] => []
  | (k, v) :: rest => (k, Part.ofJson v) :: Part.ofMembers rest

end

def State.ofJson (v : Json) : Except Mismatch State := (Part.ofJson v).state.get

def Machine.ofJson (v : Json) : Except Mismatch Machine := (Part.ofJson v).machine.get

def statesOfJson (v : Json) : Except Mismatch (Entries State) := (Part.ofJson v).states.get

/-! ## Documents -/

def Decorators.ofJson : Json → Except Mismatch Decorators :=
  readRecord "Decorators" fun m => Decorators.mk
    <$> Members.optional m "TaskFailureHandler" (readOptional State.ofJson)
    <*> Members.optional m "DisableDefaultRetry" (readOptional DisableDefaultRetry.ofJson)

def Document.knownMembers : List String := ["Playbook", "Comment", "StartAt", "States", "Decorators"]

def Document.ofJson : Json → Except Mismatch Document :=
  readRecord "PlaybookDocument" fun m => Document.mk
    <$> Members.required m "Playbook" readString
    <*> Members.required m "Comment" readString
    <*> Members.required m "StartAt" readString
    <*> Members.required m "States" statesOfJson
    <*> Members.optional m "Decorators" (readOptional Decorators.ofJson)
    <*> pure (others Document.knownMembers m)

end StateFlow.Playbook
