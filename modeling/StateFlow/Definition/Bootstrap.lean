import StateFlow.Settings

/-!
# Bootstrap states

Three states stand in front of every playbook. They find out how the playbook was started, set up
the context of the execution where it is missing, and bring the input into its form.
-/

namespace StateFlow.Bootstrap

open StateFlow.Playbook

def isPresent (place : String) (present : Bool) : Json :=
  .obj [("Variable", .str place), ("IsPresent", .bool present)]

/-- Goes on if the context is there, with or without the bags for results and errors. -/
def contextRule (bags : Bool) (next : String) : ChoiceRule where
  condition :=
    [("And", .arr [isPresent "$.artifacts" true, isPresent "$.execution_id" true,
      isPresent "$.errors" bags, isPresent "$.results" bags])]
  next := next

/-- Tells a playbook that was called from one that was started directly. -/
def invocationCheck (s : Settings) (start : String) : Choice where
  rules := [contextRule false s.bootstrap.inputFormatter, contextRule true start]
  fallback := some s.bootstrap.stateSetup

def stateSetup (s : Settings) : Task where
  resource := s.stateSetupResource
  effects.parameters := some <| .obj
    [("execution_id.$", .str "$$.Execution.Name"),
      ("playbook_name.$", .str "$$.StateMachine.Name"),
      ("playbook_event_details.$", .str "$$.Execution.Input")]
  exit.next := some s.bootstrap.inputFormatter

def inputFormatter (start : String) : Pass where
  parameters := some <| .obj
    [("execution_id.$", .str "$.execution_id"),
      ("artifacts.$", .str "$.artifacts"),
      ("results", .obj []),
      ("errors", .obj [])]
  exit.next := some start

def states (s : Settings) (start : String) : Entries State := Entries.ofPairs
  [(s.bootstrap.invocationCheck, .choice (invocationCheck s start)),
    (s.bootstrap.stateSetup, .task (stateSetup s)),
    (s.bootstrap.inputFormatter, .pass (inputFormatter start))]

end StateFlow.Bootstrap
