import StateFlow.Lowering.Decorators
import StateFlow.Lowering.Envelope
import StateFlow.Lowering.Retry

/-!
# Lowering states

States are lowered one by one. References go through a map of names, tasks get their retry and
catch rules and their envelopes, interactions become tasks, and every Parallel is followed by its
merge helper. Decorators reach no further than the top level.
-/

namespace StateFlow.Lowering

open StateFlow.Playbook

def appendCatch (catchers : Option (List Catcher)) (c : Catcher) : Option (List Catcher) :=
  some (catchers.getD [] ++ [c])

/-- What lowering depends on besides the states. -/
structure Scheme where
  settings : Settings
  /-- The name that a reference has in the output. -/
  rename : String → String := id

namespace Scheme

def exit (r : Scheme) (e : Exit) : Exit := { e with next := e.next.map r.rename }

def renameCatchers (r : Scheme) (catchers : Option (List Catcher)) : Option (List Catcher) :=
  catchers.map fun list => list.map fun c => { c with next := r.rename c.next }

/-- Whether a failure of a state leads to the failure handler; that of the handler does not. -/
def catchesFailure (r : Scheme) (ctx : Context) (name : String) : Bool :=
  ctx.failureHandler && name ≠ r.settings.failure.handler

def catchers (r : Scheme) (ctx : Context) (name : String) (own : Option (List Catcher)) :
    Option (List Catcher) :=
  if r.catchesFailure ctx name then
    appendCatch (r.renameCatchers own) (failureCatch r.settings name)
  else r.renameCatchers own

def choice (r : Scheme) (c : Choice) : Choice :=
  { c with
    rules := c.rules.map fun rule => { rule with next := r.rename rule.next }
    fallback := c.fallback.map r.rename }

def work (r : Scheme) (ctx : Context) (name : String) (t : Task) : Task :=
  { t with
    recovery :=
      { retry := mergeRetry t.recovery.retry (ctx.retryDisabled name) r.settings.defaultRetry
        catchers := r.catchers ctx name t.recovery.catchers }
    exit := r.exit t.exit }

/-- A task's parameters, if it has some, go into its envelope. -/
def task (r : Scheme) (ctx : Context) (name : String) (t : Task) : Task :=
  let t := r.work ctx name t
  { t with
    effects.parameters := t.effects.parameters.map fun v => taskEnvelope name (some v) }

def interaction (r : Scheme) (ctx : Context) (name : String) (t : Task) : Task :=
  let t := r.work ctx name t
  { t with
    resource := r.settings.tokenWaitResource
    effects.parameters := some (interactionEnvelope name t.effects.parameters t.resource) }

def parallel (r : Scheme) (ctx : Context) (name : String) (p : Parallel) : Parallel :=
  { p with
    recovery.catchers := r.catchers ctx name p.recovery.catchers
    exit := { next := some (mergeHelperName r.settings name) } }

/-- The merge helper of a Parallel, which goes on where the Parallel would have gone. -/
def helper (r : Scheme) (ctx : Context) (name : String) (p : Parallel) : Task :=
  mergeHelper r.settings (mergeHelperName r.settings name)
    (if p.exit.isEnd = some true then none else (r.exit p.exit).next)
    (ctx.retryDisabled name) (r.catchesFailure ctx name)

def mapOver (r : Scheme) (m : MapOver) : MapOver :=
  { m with
    -- A Map that fails does not go to the failure handler.
    recovery.catchers := r.renameCatchers m.recovery.catchers
    exit := r.exit m.exit }

mutual

/-- What stands in the output for a state: the state lowered, and a helper behind a Parallel. -/
def state (r : Scheme) (ctx : Context) (name : String) : State → Entries State
  | .pass s => [(name, .pass { s with exit := r.exit s.exit })]
  | .succeed h => [(name, .succeed h)]
  | .fail s => [(name, .fail s)]
  | .wait s => [(name, .wait { s with exit := r.exit s.exit })]
  | .task t => [(name, .task (r.task ctx name t))]
  | .interaction t => [(name, .task (r.interaction ctx name t))]
  | .choice c => [(name, .choice (r.choice c))]
  | .parallel p branches =>
    [(name, .parallel (r.parallel ctx name p) (machines r branches)),
      (mergeHelperName r.settings name, .task (r.helper ctx name p))]
  | .map m iterator => [(name, .map (r.mapOver m) (machine r iterator))]

def machine (r : Scheme) : Machine → Machine
  | ⟨comment, startAt, own, extra⟩ =>
    -- Decorators speak of the top level alone, so the context in here is empty.
    ⟨comment, r.rename startAt, Entries.ofPairs (each r {} own), extra⟩

def machines (r : Scheme) : List Machine → List Machine
  | [] => []
  | m :: rest => machine r m :: machines r rest

/-- What stands in the output for each of several states, one behind the other. -/
def each (r : Scheme) (ctx : Context) : List (String × State) → Entries State
  | [] => []
  | (name, s) :: rest => state r ctx name s ++ each r ctx rest

end

/-- Lowers the states of a scope; of two that come out under one name the later one stays. -/
def states (r : Scheme) (ctx : Context) (own : Entries State) : Entries State :=
  Entries.ofPairs (each r ctx own)

end Scheme

/-- Lowers the states of a document, unless its failure handler is of a kind that cannot be one. -/
def lower (s : Settings) (d : Document) : Except Kind (Entries State) := do
  let expanded ← expand s d
  return Scheme.states { settings := s } expanded.context expanded.states

end StateFlow.Lowering
