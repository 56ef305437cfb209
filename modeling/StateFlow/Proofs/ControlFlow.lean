import StateFlow.Compiler.Validation
import StateFlow.Proofs.Decorators

/-!
# Lowering keeps the control flow

A scope and what it is lowered to have the same flow: the same start, the same states with a merge
helper behind each Parallel, and the same references, except that a Parallel goes on to its helper
and the helper goes on where the Parallel did.  `lower_sameFlow` says so of every scope of a
document without a failure handler.
-/

namespace StateFlow.Playbook

open StateFlow.Lowering

/-- A lowered scope has the flow of its source, up to merge helpers. -/
structure SameFlow (s : Settings) (source lowered : Scope) : Prop where
  path : lowered.path = source.path
  startAt : lowered.startAt = source.startAt
  /-- The states are those of the source, in order, with a helper behind each Parallel. -/
  names : Entries.keys lowered.states = namesWithHelpers s source.states
  distinct : Entries.Distinct lowered.states
  /-- Any other state goes on where its source goes on. -/
  others : ∀ name own, (name, own) ∈ source.states → own.kind ≠ .parallel →
    ∃ out, Entries.get? lowered.states name = some out ∧ out.exit? = own.exit? ∧
      out.references = own.references
  /-- A Parallel goes on to its helper only, apart from its catch rules. -/
  parallels : ∀ name p branches, (name, .parallel p branches) ∈ source.states →
    ∃ q inner, Entries.get? lowered.states name = some (.parallel q inner) ∧
      q.exit.isEnd = none ∧
        (State.parallel q inner).references =
          ⟨mergeHelperName s name, .next⟩ :: catchReferences p.recovery.catchers
  /-- The helper goes on where the Parallel did, and nowhere else. -/
  helpers : ∀ name p branches, (name, .parallel p branches) ∈ source.states →
    ∃ t, Entries.get? lowered.states (mergeHelperName s name) = some (.task t) ∧
      t.exit = p.exit.continuation ∧
        (State.task t).references = p.exit.continuation.references

variable {s : Settings} {ctx : Context}

/-- A scope is lowered to one with the same flow, wherever no failure handler is at work. -/
theorem sameFlow_each {scope : Scope} (hctx : ctx.failureHandler = false)
    (hapart : scope.Apart s) :
    SameFlow s scope
      ⟨scope.path, scope.startAt, Scheme.states { settings := s } ctx scope.states⟩ := by
  let r : Scheme := { settings := s }
  have hr : r.rename = id := rfl
  have heach : Scheme.states r ctx scope.states = r.each ctx scope.states :=
    Scheme.ofPairs_each_eq hapart
  have hdistinct : Entries.Distinct (r.each ctx scope.states) := by
    rwa [Entries.Distinct, Scheme.keys_each]
  have hget : ∀ {name own}, (name, own) ∈ scope.states → ∀ out ∈ r.state ctx name own,
      Entries.get? (r.each ctx scope.states) out.1 = some out.2 := by
    intro name own hmem out hout
    exact Entries.get?_of_mem hdistinct (Scheme.state_subset_each hmem out hout)
  change SameFlow s scope ⟨scope.path, scope.startAt, Scheme.states r ctx scope.states⟩
  rw [heach]
  constructor
  case path => rfl
  case startAt => rfl
  case names => exact Scheme.keys_each scope.states
  case distinct => exact hdistinct
  case others =>
    intro name own hmem hkind
    obtain ⟨out, hstate, hexit, hrefs⟩ := Scheme.state_of_ne_parallel hr ctx name hkind
    have hout := hget hmem (name, out) (by simp [hstate])
    rw [Scheme.failureReferences_eq_nil hctx, List.append_nil] at hrefs
    exact ⟨out, hout, hexit, hrefs⟩
  case parallels =>
    intro name p branches hmem
    have hout := hget hmem (name, .parallel (r.parallel ctx name p) (r.machines branches))
      (by simp [Scheme.state])
    refine ⟨_, _, hout, rfl, ?_⟩
    rw [Scheme.references_parallel hr, Scheme.failureReferences_eq_nil hctx, List.append_nil]
  case helpers =>
    intro name p branches hmem
    have hout := hget hmem (mergeHelperName s name, .task (r.helper ctx name p))
      (by simp [Scheme.state, r])
    refine ⟨_, hout, Scheme.helper_exit hr p, ?_⟩
    rw [Scheme.references_helper hr, Scheme.failureReferences_eq_nil hctx, List.append_nil]

/-- Every scope of a document that breaks no rule and has no failure handler is paired, in depth
first order and place by place, with the scope of the lowered document that has its flow. -/
theorem lower_sameFlow (s : Settings) (d : Document) (hrules : ruleFindings s d = [])
    (hhandler : d.failureHandler? = none) :
    ∃ lowered, lower s d = .ok lowered ∧
      List.Forall₂ (SameFlow s) d.scopes (scopesOf d.startAt lowered) := by
  have hwell : WellFormed s d := breaches_eq_nil_iff.mp (List.map_eq_nil_iff.mp hrules)
  have hctx : (topContext d).failureHandler = false := by simp [topContext, hhandler]
  have hscopes : d.scopes = scopesOf d.startAt d.states := by
    simp [Document.scopes, scopesOf, hhandler, handlerScopes]
  have hapart := hwell.helpers
  rw [hscopes, scopesOf, List.forall_mem_cons] at hapart
  have hnested : nestedScopes "/States" (Scheme.states { settings := s } (topContext d) d.states) =
      (nestedScopes "/States" d.states).map (Scheme.scope { settings := s }) := by
    rw [Scheme.states, Scheme.ofPairs_each_eq (r := { settings := s }) hapart.1]
    exact Scheme.scopes_each _ "/States" d.states hapart.2
  refine ⟨_, lower_eq_ok_iff.mpr ⟨_, expand_of_none hhandler, rfl⟩, ?_⟩
  rw [hscopes, scopesOf, scopesOf, hnested]
  refine .cons (sameFlow_each hctx hapart.1) ?_
  rw [List.forall₂_map_right_iff, List.forall₂_same]
  intro scope hscope
  exact sameFlow_each rfl (hapart.2 scope hscope)

def fanOut : Document where
  name := "FanOut"
  comment := "Split, then loop"
  startAt := "Split"
  states :=
    [("Split", .parallel { exit := { next := some "Loop" } }
        [⟨none, "Left", [("Left", .pass { exit := { isEnd := some true } })], []⟩]),
      ("Loop", .map { exit := { isEnd := some true } }
        ⟨none, "Inner",
          [("Inner", .parallel { exit := { isEnd := some true } }
            [⟨none, "Leaf", [("Leaf", .succeed {})], []⟩])], []⟩)]
  decorators := none
  extra := []

theorem lower_sameFlow_fanOut :
    ruleFindings .production fanOut = [] ∧ fanOut.failureHandler? = none ∧
      ∃ lowered, lower .production fanOut = .ok lowered ∧
        List.Forall₂ (SameFlow .production) fanOut.scopes (scopesOf "Split" lowered) :=
  have hrules : ruleFindings .production fanOut = [] := by decide +kernel
  ⟨hrules, rfl, lower_sameFlow .production fanOut hrules rfl⟩

end StateFlow.Playbook
