import StateFlow.Proofs.CompiledShape
import StateFlow.Proofs.FailureHandling

/-!
# What lowering can be undone to

Lowering loses nothing of a playbook without decorators but the retry rules of its tasks and
interactions.  `restoreStates` reads the source off the lowered states: a task with a function in
its parameters was an interaction, envelopes are opened, and a Parallel goes on where the helper
behind it goes on.  `restoreStates_each` says that this gives back the source, so that two sources
with one lowering differ in retry rules only (`lower_inj_upToRetry`).
-/

namespace StateFlow.Playbook

/-! ## States without their retry rules -/

def Task.withoutRetry (t : Task) : Task := { t with recovery.retry := none }

mutual

/-- A state without the retry rules of tasks and interactions, its own and those of all states
inside it. -/
def State.withoutRetry : State → State
  | .pass s => .pass s
  | .succeed h => .succeed h
  | .fail s => .fail s
  | .wait s => .wait s
  | .task t => .task t.withoutRetry
  | .interaction t => .interaction t.withoutRetry
  | .choice s => .choice s
  | .parallel p branches => .parallel p (machinesWithoutRetry branches)
  | .map m iterator => .map m (Machine.withoutRetry iterator)

def Machine.withoutRetry : Machine → Machine
  | ⟨comment, startAt, states, extra⟩ => ⟨comment, startAt, statesWithoutRetry states, extra⟩

def machinesWithoutRetry : List Machine → List Machine
  | [] => []
  | m :: rest => Machine.withoutRetry m :: machinesWithoutRetry rest

def statesWithoutRetry : List (String × State) → Entries State
  | [] => []
  | (name, s) :: rest => (name, State.withoutRetry s) :: statesWithoutRetry rest

end

/-- Every Parallel of a scope goes on to one state or ends the machine, and not both. -/
def ExitsDecided (own : Entries State) : Prop :=
  ∀ name p branches, (name, State.parallel p branches) ∈ own → p.exit.continuation = p.exit

structure Scope.Restorable (s : Settings) (sc : Scope) : Prop where
  apart : sc.Apart s
  exits : ExitsDecided sc.states

end StateFlow.Playbook

namespace StateFlow.Lowering

open StateFlow.Json StateFlow.Playbook

/-! ## Undoing -/

def openEnvelope (v : Json) : Option Json :=
  (v.get? "State_Config").bind fun config => config.get? "Parameters"

/-- The source of a lowered task: an interaction if its parameters name a function to call. -/
def restoreTask (t : Task) : State :=
  let function := (t.effects.parameters.bind fun v => v.get? "FunctionName").bind asString?
  match function with
  | some function =>
    let context := (t.effects.parameters.bind fun v => v.get? "Payload").bind
      fun payload => payload.get? "sfn_context"
    .interaction
      { t.withoutRetry with
        resource := function
        effects.parameters := context.bind openEnvelope }
  | none =>
    .task { t.withoutRetry with effects.parameters := t.effects.parameters.bind openEnvelope }

mutual

/-- The source of the states of a lowered scope: the helper behind a Parallel is taken out, and the
Parallel goes on where the helper does. -/
def restoreStates : List (String × State) → Entries State
  | [] => []
  | (name, .parallel p branches) :: (_, .task helper) :: rest =>
    (name, .parallel { p with exit := helper.exit } (restoreMachines branches))
      :: restoreStates rest
  | (name, .task t) :: rest => (name, restoreTask t) :: restoreStates rest
  | (name, .map m iterator) :: rest =>
    (name, .map m (restoreMachine iterator)) :: restoreStates rest
  | (name, s) :: rest => (name, s) :: restoreStates rest

def restoreMachine : Machine → Machine
  | ⟨comment, startAt, states, extra⟩ => ⟨comment, startAt, restoreStates states, extra⟩

def restoreMachines : List Machine → List Machine
  | [] => []
  | m :: rest => restoreMachine m :: restoreMachines rest

end

namespace Scheme

variable {r : Scheme} {ctx : Context} {name : String}

section Identity

variable (hr : r.rename = id) (hctx : ctx.failureHandler = false)

include hr hctx

theorem withoutRetry_work (name : String) (t : Task) :
    (r.work ctx name t).withoutRetry = t.withoutRetry := by
  have hcatches : r.catchesFailure ctx name = false := by simp [catchesFailure, hctx]
  simp [work, Task.withoutRetry, exit_eq hr, catchers_of_not_handled hr hcatches]

theorem restoreTask_task (t : Task) :
    restoreTask (r.task ctx name t) = .task t.withoutRetry := by
  have hwork := withoutRetry_work hr hctx name t
  obtain ⟨header, resource, ⟨parameters, selector, path⟩⟩ := t
  cases parameters with
  | none => exact congrArg State.task hwork
  | some v => exact congrArg State.task hwork

theorem restoreTask_interaction (t : Task) :
    restoreTask (r.interaction ctx name t) = .interaction t.withoutRetry := by
  have hwork := withoutRetry_work hr hctx name t
  obtain ⟨header, resource, ⟨parameters, selector, path⟩⟩ := t
  cases parameters with
  | none => exact congrArg State.interaction hwork
  | some v => exact congrArg State.interaction hwork

theorem restore_parallel {p : Parallel} (hexit : p.exit.continuation = p.exit) :
    { r.parallel ctx name p with exit := (r.helper ctx name p).exit } = p := by
  have hcatches : r.catchesFailure ctx name = false := by simp [catchesFailure, hctx]
  rw [helper_exit hr, hexit, parallel, catchers_of_not_handled hr hcatches]

end Identity

/-! ## Undoing what lowering does -/

mutual

theorem restoreMachine_machine (hr : r.rename = id) (path : String) : (m : Machine) →
    (∀ sc ∈ Machine.scopes path m, sc.Restorable r.settings) →
      restoreMachine (r.machine m) = m.withoutRetry
  | ⟨comment, startAt, own, extra⟩, hscopes => by
      rw [Machine.scopes, List.forall_mem_cons] at hscopes
      obtain ⟨⟨hapart, hexits⟩, hnested⟩ := hscopes
      rw [machine, ofPairs_each_eq hapart, restoreMachine, Machine.withoutRetry, hr,
        restoreStates_each hr rfl path own hexits hnested]
      rfl

theorem restoreMachines_machines (hr : r.rename = id) (path : String) (n : Nat) :
    (ms : List Machine) →
    (∀ sc ∈ branchScopes path n ms, sc.Restorable r.settings) →
      restoreMachines (r.machines ms) = machinesWithoutRetry ms
  | [], _ => by simp [machines, restoreMachines, machinesWithoutRetry]
  | m :: rest, hscopes => by
      rw [branchScopes, List.forall_mem_append] at hscopes
      rw [machines, restoreMachines, machinesWithoutRetry, restoreMachine_machine hr _ m hscopes.1,
        restoreMachines_machines hr path (n + 1) rest hscopes.2]

/-- The source of lowered states is what they were lowered from, up to retry rules. -/
theorem restoreStates_each (hr : r.rename = id) {ctx : Context}
    (hctx : ctx.failureHandler = false) (path : String) : (own : List (String × State)) →
    ExitsDecided own → (∀ sc ∈ nestedScopes path own, sc.Restorable r.settings) →
      restoreStates (r.each ctx own) = statesWithoutRetry own
  | [], _, _ => by simp [restoreStates, statesWithoutRetry]
  | (name, s) :: rest, hexits, hscopes => by
      rw [nestedScopes, List.forall_mem_append] at hscopes
      have ih := restoreStates_each hr hctx path rest
        (fun name p branches hmem => hexits name p branches (List.mem_cons_of_mem _ hmem)) hscopes.2
      rw [each_cons, statesWithoutRetry]
      cases s with
      | pass s | wait s => simp [state, restoreStates, State.withoutRetry, exit_eq hr, ih]
      | succeed h => simp [state, restoreStates, State.withoutRetry, ih]
      | fail s => simp [state, restoreStates, State.withoutRetry, ih]
      | choice c => simp [state, restoreStates, State.withoutRetry, choice_eq hr, ih]
      | task t =>
          simp [state, restoreStates, State.withoutRetry, restoreTask_task hr hctx, ih]
      | interaction t =>
          simp [state, restoreStates, State.withoutRetry, restoreTask_interaction hr hctx, ih]
      | parallel p branches =>
          -- The helper stands right behind its Parallel, so both are taken off at once.
          have hexit := hexits name p branches (by simp)
          have hbranches := hscopes.1
          rw [State.scopes] at hbranches
          simp only [state, List.cons_append, List.nil_append, restoreStates, State.withoutRetry,
            restore_parallel hr hctx hexit, ih,
            restoreMachines_machines hr _ 0 branches hbranches]
      | map m iterator =>
          have hiterator := hscopes.1
          rw [State.scopes] at hiterator
          simp [state, restoreStates, State.withoutRetry, mapOver_eq hr, ih,
            restoreMachine_machine hr _ iterator hiterator]

end

end Scheme

end StateFlow.Lowering

namespace StateFlow

open StateFlow.Schema StateFlow.Playbook StateFlow.Lowering

/-! ## Documents -/

theorem exitsDecided_of_shaped {marker : String} {own : Entries State}
    (hown : ∀ entry ∈ own, Shape.Shaped (Shape.state marker) entry) : ExitsDecided own := by
  intro name p branches hmem
  rcases Shape.exit_of_accepts (hown _ hmem).2 rfl with ⟨next, hexit⟩ | hexit
  · rw [hexit]
    rfl
  · rw [hexit]
    rfl

/-- The states of a valid playbook without decorators can be read off what they are lowered to, up
to retry rules. -/
theorem restoreStates_lower {s : Settings} {v : Json} {d : Document}
    (hcheck : checkDocument s v = .ok d) (hplain : d.decorators = none) :
    ∃ lowered, lower s d = .ok lowered ∧ restoreStates lowered = statesWithoutRetry d.states := by
  obtain ⟨hfindings, hread, hwell⟩ := checkDocument_eq_ok hcheck
  obtain ⟨members, rfl, hfrom⟩ := Document.ofJson_eq_ok hread
  obtain ⟨-, hshaped⟩ := shaped_document (accepts_of_shapeFindings hfindings) hfrom
  have hhandler : d.failureHandler? = none := by simp [Document.failureHandler?, hplain]
  refine ⟨_, lower_eq_ok_iff.mpr ⟨_, expand_of_none hhandler, rfl⟩, ?_⟩
  have hnested : ∀ sc ∈ nestedScopes "/States" d.states, sc.Restorable s := by
    intro sc hsc
    have hscope : sc ∈ d.scopes := by simp [Document.scopes, hsc]
    exact ⟨hwell.helpers sc hscope,
      exitsDecided_of_shaped (Shape.scopes_nested "/States" d.states hshaped sc hsc)⟩
  have htop : (namesWithHelpers s d.states).Nodup := hwell.helpers _ (topScope_mem d)
  rw [Scheme.states, Scheme.ofPairs_each_eq (r := { settings := s }) htop]
  exact Scheme.restoreStates_each rfl (by simp [topContext, hhandler]) "/States" d.states
    (exitsDecided_of_shaped hshaped) hnested

/-- Two valid playbooks without decorators that are lowered to the same states have the same states,
up to the retry rules of tasks and interactions. -/
theorem lower_inj_upToRetry (s : Settings) (v w : Json) (d e : Document)
    (hv : checkDocument s v = .ok d) (hw : checkDocument s w = .ok e)
    (hd : d.decorators = none) (he : e.decorators = none) (hlower : lower s d = lower s e) :
    statesWithoutRetry d.states = statesWithoutRetry e.states := by
  obtain ⟨lowered, hlowered, hrestore⟩ := restoreStates_lower hv hd
  obtain ⟨lowered', hlowered', hrestore'⟩ := restoreStates_lower hw he
  rw [hlower, hlowered'] at hlowered
  cases hlowered
  rw [← hrestore, ← hrestore']

def askAndSplit (retry : Option (List Retrier)) : Document where
  name := "AskAndSplit"
  comment := "Ask, then work"
  startAt := "Ask"
  states :=
    [("Ask", .interaction
        { resource := "ask", recovery := { retry := retry }, exit := { next := some "Split" } }),
      ("Split", .parallel { exit := { isEnd := some true } }
        [⟨none, "Work", [("Work", .task
          { resource := "work"
            effects := { parameters := some (.obj [("Item.$", .str "$")]) }
            exit := { isEnd := some true } })], []⟩])]
  decorators := none
  extra := []

/-- A playbook that writes the default retry rule out is lowered as one that leaves it to the
settings. -/
theorem lower_inj_upToRetry_askAndSplit :
    let own := askAndSplit none
    let retried := askAndSplit (some [Settings.production.defaultRetry])
    checkDocument .production own.toJson = .ok own ∧
      checkDocument .production retried.toJson = .ok retried ∧
      lower .production own = lower .production retried ∧
      statesWithoutRetry own.states = statesWithoutRetry retried.states :=
  ⟨rfl, rfl, rfl, lower_inj_upToRetry .production (askAndSplit none).toJson
    (askAndSplit (some [Settings.production.defaultRetry])).toJson _ _ rfl rfl rfl rfl rfl⟩

end StateFlow
