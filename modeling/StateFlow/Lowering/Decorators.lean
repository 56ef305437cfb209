import StateFlow.Lowering.MergeHelper
import StateFlow.Playbook.Document

/-!
# Decorators

A failure handler is put among the top-level states: an entry leads to the handler, and the handler
leads to a failing end. What else decorators ask for is kept as the context of the top level.
-/

namespace StateFlow.Lowering

open StateFlow.Playbook

/-- What decorators ask of the states of a scope. -/
structure Context where
  /-- Failed states go to the failure handler. -/
  failureHandler : Bool := false
  disableDefaultRetry : Option DisableDefaultRetry := none

def Context.retryDisabled (c : Context) (name : String) : Bool :=
  c.disableDefaultRetry.any fun d => d.disables name

def toFinal (s : Settings) : Exit := { next := some s.failure.final }

/-- The handler with its exit replaced, or its kind if it cannot handle failures. -/
def rewireHandler (s : Settings) : State → Except Kind State
  | .task t => .ok (.task { t with exit := toFinal s })
  | .parallel p branches => .ok (.parallel { p with exit := toFinal s } branches)
  | other => .error other.kind

def failureStates (s : Settings) (handler : State) : Except Kind (Entries State) := do
  let rewired ← rewireHandler s handler
  return Entries.ofPairs
    [(s.failure.entry, .pass { exit := { next := some s.failure.handler } }),
      (s.failure.handler, rewired),
      (s.failure.final, .fail {})]

/-- The top-level states with those of the failure handler, and the context they stand in. -/
structure Expanded where
  states : Entries State
  context : Context

def expand (s : Settings) (d : Document) : Except Kind Expanded :=
  let disable := d.decorators.bind Decorators.disableDefaultRetry
  match d.failureHandler? with
  | none => return ⟨d.states, { disableDefaultRetry := disable }⟩
  | some handler => do
    let added ← failureStates s handler
    return ⟨Entries.extend d.states added,
      { failureHandler := true, disableDefaultRetry := disable }⟩

end StateFlow.Lowering
