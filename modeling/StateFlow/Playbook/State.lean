import StateFlow.Json.Basic

/-!
# States and machines

A state is of one of nine kinds. Parallel states hold machines, their branches, and Map states hold
one, their iterator; a machine is a scope of its own with a start and named states.
-/

namespace StateFlow.Playbook

structure Retrier where
  errorEquals : List String
  intervalSeconds : Option UInt64 := none
  maxAttempts : Option UInt64 := none
  backoffRate : Option Number := none
deriving DecidableEq

structure Catcher where
  errorEquals : List String
  resultPath : Option String := none
  next : String
deriving DecidableEq

/-- A choice rule: a condition, kept as it is, and where it goes. -/
structure ChoiceRule where
  condition : Entries Json
  next : String

/-- What most kinds have in common. -/
structure Header where
  comment : Option String := none
  inputPath : Option String := none
  outputPath : Option String := none
deriving DecidableEq

/-- How a state is left: to another state, or by ending its machine. -/
structure Exit where
  next : Option String := none
  isEnd : Option Bool := none
deriving DecidableEq

structure Effects where
  parameters : Option Json := none
  resultSelector : Option Json := none
  resultPath : Option String := none

structure Recovery where
  retry : Option (List Retrier) := none
  catchers : Option (List Catcher) := none
deriving DecidableEq

structure Pass where
  header : Header := {}
  parameters : Option Json := none
  result : Option Json := none
  resultPath : Option String := none
  exit : Exit := {}

structure Fail where
  comment : Option String := none
  cause : Option String := none
  error : Option String := none
deriving DecidableEq

structure Wait where
  header : Header := {}
  seconds : Option Json := none
  timestamp : Option String := none
  secondsPath : Option String := none
  timestampPath : Option String := none
  exit : Exit := {}

/-- The fields of a Task, which an Interaction has too. -/
structure Task where
  header : Header := {}
  resource : String
  effects : Effects := {}
  timeoutSeconds : Option UInt64 := none
  timeoutSecondsPath : Option String := none
  heartbeatSeconds : Option UInt64 := none
  heartbeatSecondsPath : Option String := none
  recovery : Recovery := {}
  exit : Exit := {}

structure Choice where
  header : Header := {}
  rules : List ChoiceRule
  fallback : Option String := none

/-- The fields of a Parallel apart from its branches. -/
structure Parallel where
  header : Header := {}
  effects : Effects := {}
  recovery : Recovery := {}
  exit : Exit := {}

structure MapOver where
  header : Header := {}
  itemsPath : Option String := none
  maxConcurrency : Option UInt64 := none
  effects : Effects := {}
  recovery : Recovery := {}
  exit : Exit := {}

inductive Kind where
  | pass | succeed | fail | wait | task | interaction | choice | parallel | map
deriving DecidableEq

namespace Kind

def all : List Kind :=
  [.pass, .succeed, .fail, .wait, .task, .interaction, .choice, .parallel, .map]

def name : Kind → String
  | .pass => "Pass"
  | .succeed => "Succeed"
  | .fail => "Fail"
  | .wait => "Wait"
  | .task => "Task"
  | .interaction => "Interaction"
  | .choice => "Choice"
  | .parallel => "Parallel"
  | .map => "Map"

def ofName? (text : String) : Option Kind := all.find? fun kind => kind.name = text

end Kind

mutual

inductive State where
  | pass (fields : Pass)
  | succeed (header : Header)
  | fail (fields : Fail)
  | wait (fields : Wait)
  | task (fields : Task)
  | interaction (fields : Task)
  | choice (fields : Choice)
  | parallel (fields : Parallel) (branches : List Machine)
  | map (fields : MapOver) (iterator : Machine)

/-- A scope: a start and named states, with members of other names carried along. -/
structure Machine where
  comment : Option String
  startAt : String
  states : List (String × State)
  extra : List (String × Json)

end

inductive Transition where
  | next | choiceNext | fallback | catchNext
deriving DecidableEq

def Transition.text : Transition → String
  | .next => "Next"
  | .choiceNext => "Choices[].Next"
  | .fallback => "Default"
  | .catchNext => "Catch[].Next"

/-- A state's name where another state goes on to it. -/
structure Reference where
  target : String
  transition : Transition
deriving DecidableEq

namespace State

def kind : State → Kind
  | pass _ => .pass
  | succeed _ => .succeed
  | fail _ => .fail
  | wait _ => .wait
  | task _ => .task
  | interaction _ => .interaction
  | choice _ => .choice
  | parallel _ _ => .parallel
  | map _ _ => .map

/-- How the state is left; kinds that end or branch have no exit. -/
def exit? : State → Option Exit
  | pass s => some s.exit
  | wait s => some s.exit
  | task s => some s.exit
  | interaction s => some s.exit
  | parallel s _ => some s.exit
  | map s _ => some s.exit
  | succeed _ => none
  | fail _ => none
  | choice _ => none

def next? (s : State) : Option String := s.exit?.bind Exit.next

/-- What the state does about errors; only kinds that do work can recover. -/
def recovery? : State → Option Recovery
  | task s => some s.recovery
  | interaction s => some s.recovery
  | parallel s _ => some s.recovery
  | map s _ => some s.recovery
  | _ => none

def catchers (s : State) : List Catcher := (s.recovery?.bind Recovery.catchers).getD []

def machines : State → List Machine
  | parallel _ branches => branches
  | map _ iterator => [iterator]
  | _ => []

def choiceReferences : State → List Reference
  | choice s =>
    s.rules.map (fun rule => ⟨rule.next, .choiceNext⟩)
      ++ s.fallback.toList.map (fun target => ⟨target, .fallback⟩)
  | _ => []

/-- Every reference the state makes, in the order in which it declares them. -/
def references (s : State) : List Reference :=
  s.next?.toList.map (fun target => ⟨target, .next⟩)
    ++ s.choiceReferences
    ++ s.catchers.map (fun catcher => ⟨catcher.next, .catchNext⟩)

end State

end StateFlow.Playbook
