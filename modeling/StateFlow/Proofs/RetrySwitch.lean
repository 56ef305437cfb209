import StateFlow.Proofs.FailureHandling

/-!
# Switching the default retry rule off

A document may switch the default retry rule off for some states or for all of them.  Two documents
that differ in nothing else are lowered alike up to the retry rules of top-level tasks
(`lower_upToTaskRetry`): whatever stands inside machines, and every other member of every state,
does not depend on the switch.  In a document that breaks no rule a state depends on the switch for
its own name only.
-/

namespace StateFlow.Playbook

structure Document.EqualButRetry (d e : Document) : Prop where
  name : d.name = e.name
  comment : d.comment = e.comment
  startAt : d.startAt = e.startAt
  states : d.states = e.states
  handler : d.failureHandler? = e.failureHandler?
  extra : d.extra = e.extra

/-- A state without its retry rules, if it is a task.  States inside it keep theirs. -/
def State.withoutTaskRetry : State → State
  | .task t => .task { t with recovery.retry := none }
  | s => s

/-- Lowered states that differ at most in the retry rules of tasks at the top level. -/
structure SameButTaskRetry (a b : Entries State) : Prop where
  names : Entries.keys a = Entries.keys b
  erased : Entries.mapValues State.withoutTaskRetry a = Entries.mapValues State.withoutTaskRetry b
  /-- States that are no tasks are the same, with their own retry rules. -/
  others : a.filter (fun entry => entry.2.kind ≠ .task) = b.filter fun entry => entry.2.kind ≠ .task
  /-- So is everything inside machines. -/
  scopes : nestedScopes "/States" a = nestedScopes "/States" b

theorem State.kind_withoutTaskRetry (s : State) : s.withoutTaskRetry.kind = s.kind := by
  cases s <;> rfl

theorem State.withoutTaskRetry_of_ne {s : State} (hkind : s.kind ≠ .task) :
    s.withoutTaskRetry = s := by
  cases s with
  | task t => exact absurd rfl hkind
  | _ => rfl

theorem scopes_withoutTaskRetry (path : String) (s : State) :
    State.scopes path s.withoutTaskRetry = State.scopes path s := by
  cases s with
  | task t => simp [State.withoutTaskRetry, State.scopes]
  | _ => rfl

theorem nestedScopes_withoutTaskRetry (path : String) (own : Entries State) :
    nestedScopes path (Entries.mapValues State.withoutTaskRetry own) = nestedScopes path own := by
  simp only [nestedScopes_eq_flatMap, Entries.mapValues, List.flatMap_map,
    scopes_withoutTaskRetry]

theorem filter_withoutTaskRetry (own : Entries State) :
    (Entries.mapValues State.withoutTaskRetry own).filter (fun entry => entry.2.kind ≠ .task) =
      own.filter fun entry => entry.2.kind ≠ .task := by
  induction own with
  | nil => rfl
  | cons entry own ih =>
      rw [Entries.mapValues_cons, List.filter_cons, List.filter_cons, ih]
      simp only [State.kind_withoutTaskRetry]
      split
      · next hkind =>
          rw [State.withoutTaskRetry_of_ne (of_decide_eq_true hkind)]
      · rfl

/-- It is enough that the states are the same without the retry rules of tasks. -/
theorem SameButTaskRetry.of_erased {a b : Entries State}
    (herased : Entries.mapValues State.withoutTaskRetry a =
      Entries.mapValues State.withoutTaskRetry b) : SameButTaskRetry a b where
  names := by
    rw [← Entries.keys_mapValues State.withoutTaskRetry a, herased, Entries.keys_mapValues]
  erased := herased
  others := by rw [← filter_withoutTaskRetry a, herased, filter_withoutTaskRetry]
  scopes := by
    rw [← nestedScopes_withoutTaskRetry _ a, herased, nestedScopes_withoutTaskRetry]

end StateFlow.Playbook

namespace StateFlow.Lowering

open StateFlow.Playbook

namespace Scheme

variable {r : Scheme} {ctx ctx' : Context} (hctx : ctx.failureHandler = ctx'.failureHandler)

include hctx

/-! ## Contexts that agree on the failure handler -/

theorem catchers_congr (name : String) (own : Option (List Catcher)) :
    r.catchers ctx name own = r.catchers ctx' name own := by
  unfold catchers catchesFailure
  rw [hctx]

theorem parallel_congr (name : String) (p : Parallel) :
    r.parallel ctx name p = r.parallel ctx' name p := by
  unfold parallel
  rw [catchers_congr hctx]

theorem withoutTaskRetry_state (name : String) (s : State) :
    Entries.mapValues State.withoutTaskRetry (r.state ctx name s) =
      Entries.mapValues State.withoutTaskRetry (r.state ctx' name s) := by
  cases s with
  | task t =>
      simp [state, Entries.mapValues, State.withoutTaskRetry, task, work, catchers_congr hctx]
  | interaction t =>
      simp [state, Entries.mapValues, State.withoutTaskRetry, interaction, work,
        catchers_congr hctx]
  | parallel p branches =>
      have hcatches : r.catchesFailure ctx name = r.catchesFailure ctx' name := by
        unfold catchesFailure
        rw [hctx]
      simp [state, Entries.mapValues, State.withoutTaskRetry, parallel_congr hctx, helper,
        mergeHelper, hcatches]
  | _ => simp only [state]

theorem withoutTaskRetry_each (own : Entries State) :
    Entries.mapValues State.withoutTaskRetry (r.each ctx own) =
      Entries.mapValues State.withoutTaskRetry (r.each ctx' own) := by
  induction own with
  | nil => simp
  | cons entry own ih =>
      rw [each_cons, each_cons, Entries.mapValues_append, Entries.mapValues_append, ih,
        withoutTaskRetry_state hctx]

theorem withoutTaskRetry_states (own : Entries State) :
    Entries.mapValues State.withoutTaskRetry (r.states ctx own) =
      Entries.mapValues State.withoutTaskRetry (r.states ctx' own) := by
  unfold states
  rw [Entries.mapValues_ofPairs, Entries.mapValues_ofPairs, withoutTaskRetry_each hctx]

/-- What a state itself becomes depends on the switch for its name only. -/
theorem state_congr {name : String} (hretry : ctx.retryDisabled name = ctx'.retryDisabled name)
    (s : State) : r.state ctx name s = r.state ctx' name s := by
  have hcatches : r.catchesFailure ctx name = r.catchesFailure ctx' name := by
    unfold catchesFailure
    rw [hctx]
  cases s with
  | task t => simp [state, task, work, catchers_congr hctx, hretry]
  | interaction t => simp [state, interaction, work, catchers_congr hctx, hretry]
  | parallel p branches => simp [state, parallel_congr hctx, helper, hretry, hcatches]
  | _ => simp only [state]

end Scheme

variable {s : Settings} {d : Document}

/-! ## States of the document in the output -/

/-- No state that a failure handler brings, helper included, has the name of a state of a document
that breaks no rule. -/
theorem own_not_mem_added {handler rewired : State} (hwell : WellFormed s d)
    (hsome : d.failureHandler? = some handler) (hrewired : rewireHandler s handler = .ok rewired)
    {name : String} (hname : name ∈ Entries.keys d.states) :
    name ∉ namesWithHelpers s (Entries.ofPairs (failureEntries s rewired)) := by
  intro hmem
  apply own_not_mem_failureNames hwell hsome hname
  rw [← namesWithHelpers_failureEntries hrewired]
  unfold namesWithHelpers at hmem ⊢
  obtain ⟨entry, hentry, hin⟩ := List.mem_flatMap.mp hmem
  exact List.mem_flatMap.mpr ⟨entry, Entries.mem_of_mem_ofPairs hentry, hin⟩

/-- A state of a document that breaks no rule stands in the output under its name. -/
theorem get?_states_own {x : Expanded} (hwell : WellFormed s d) (hexpand : expand s d = .ok x)
    {ctx : Context} {name : String} {own out : State} (hmem : (name, own) ∈ d.states)
    (hout : (name, out) ∈ Scheme.state { settings := s } ctx name own) :
    Entries.get? (Scheme.states { settings := s } ctx x.states) name = some out := by
  let r : Scheme := { settings := s }
  have hapart : (namesWithHelpers r.settings d.states).Nodup := hwell.helpers _ (topScope_mem d)
  have hdistinct : Entries.Distinct (r.each ctx d.states) := by
    rwa [Entries.Distinct, Scheme.keys_each]
  have hget : Entries.get? (r.each ctx d.states) name = some out :=
    Entries.get?_of_mem hdistinct (Scheme.state_subset_each hmem _ hout)
  obtain ⟨-, hstates⟩ | ⟨handler, rewired, hsome, hrewired, hstates⟩ :=
    expand_eq_append hwell hexpand
  · have hall : r.states ctx x.states = r.each ctx d.states := by
      rw [hstates]
      exact Scheme.ofPairs_each_eq hapart
    rw [hall, hget]
  · have hfree : name ∉
        Entries.keys (r.each ctx (Entries.ofPairs (failureEntries s rewired))) := by
      rw [Scheme.keys_each]
      exact own_not_mem_added hwell hsome hrewired (Entries.mem_keys_of_mem hmem)
    rw [hstates, Scheme.states_append hapart, Entries.get?_extend_of_not_mem hfree, hget]

theorem expand_congr {e : Document} (hsame : d.EqualButRetry e) :
    expand s e = (expand s d).map fun x => ⟨x.states, topContext e⟩ := by
  cases hhandler : d.failureHandler? with
  | none =>
      rw [expand_of_none hhandler, expand_of_none (hsame.handler ▸ hhandler), hsame.states]
      rfl
  | some handler =>
      rw [expand_of_some hhandler, expand_of_some (hsame.handler ▸ hhandler), hsame.states]
      cases rewireHandler s handler <;> rfl

end StateFlow.Lowering

namespace StateFlow

open StateFlow.Playbook StateFlow.Lowering

/-- What a document says about the default retry rule does not decide whether its states can be
lowered, and shows in the retry rules of top-level tasks only.  If no rule is broken, it shows in a
state of the document only if it says something else about that state. -/
theorem lower_upToTaskRetry (s : Settings) (d e : Document) (hsame : d.EqualButRetry e) :
    (∃ kind, lowerDocument s d = .error (.handlerKind kind) ∧
        lowerDocument s e = .error (.handlerKind kind)) ∨
      ∃ a b, lowerDocument s d = .ok a ∧ lowerDocument s e = .ok b ∧ SameButTaskRetry a b ∧
        (ruleFindings s d = [] → ∀ name own, (name, own) ∈ d.states →
          (topContext d).retryDisabled name = (topContext e).retryDisabled name →
            ∃ out, Entries.get? a name = some out ∧ Entries.get? b name = some out) := by
  have hcongr := expand_congr (s := s) hsame
  cases hexpand : expand s d with
  | error kind =>
      rw [hexpand] at hcongr
      exact Or.inl ⟨kind.name, lowerDocument_eq_error hexpand, lowerDocument_eq_error hcongr⟩
  | ok x =>
      rw [hexpand] at hcongr
      have hcontext : x.context = topContext d := (expand_eq_ok hexpand).1
      have hctx : (topContext d).failureHandler = (topContext e).failureHandler := by
        simp [topContext, hsame.handler]
      have hlower := lowerDocument_eq_ok hexpand
      rw [hcontext] at hlower
      refine Or.inr ⟨_, _, hlower, lowerDocument_eq_ok hcongr, ?_, ?_⟩
      · exact SameButTaskRetry.of_erased (Scheme.withoutTaskRetry_states hctx x.states)
      · intro hrules name own hmem hretry
        have hwell : WellFormed s d := ruleFindings_eq_nil_iff.mp hrules
        obtain ⟨out, hout, -⟩ :=
          Scheme.catchers_state (r := { settings := s }) rfl (topContext d) name own
        refine ⟨out, get?_states_own hwell hexpand hmem hout, ?_⟩
        apply get?_states_own hwell hexpand hmem
        rwa [← Scheme.state_congr hctx hretry]

def loadSave (switch : Option DisableDefaultRetry) : Document where
  name := "LoadSave"
  comment := "Load, then save"
  startAt := "Load"
  states :=
    [("Load", .task
        { resource := "load"
          recovery := { catchers := some [⟨["Timeout"], none, "Clean"⟩] }
          exit := { next := some "Save" } }),
      ("Save", .task { resource := "save", exit.isEnd := some true }),
      ("Clean", .parallel { exit.isEnd := some true }
        [{ comment := none, startAt := "Wipe", extra := [],
           states := [("Wipe", .task { resource := "wipe", exit.isEnd := some true })] }])]
  decorators := some
    { taskFailureHandler := some (.task { resource := "notify", exit.isEnd := some true })
      disableDefaultRetry := switch }
  extra := []

theorem lower_upToTaskRetry_loadSave :
    let d := loadSave none
    let e := loadSave (some { tasks := some ["Load", "Wipe"] })
    ∃ a b, lowerDocument .production d = .ok a ∧ lowerDocument .production e = .ok b ∧
      SameButTaskRetry a b ∧
        (∃ out, Entries.get? a "Save" = some out ∧ Entries.get? b "Save" = some out) ∧
          (Entries.get? a "Load").bind State.recovery? ≠
            (Entries.get? b "Load").bind State.recovery? := by
  intro d e
  have hsame : d.EqualButRetry e := ⟨rfl, rfl, rfl, rfl, rfl, rfl⟩
  have hlower : (lowerDocument .production d).isOk = true := by decide +kernel
  obtain ⟨kind, hkind, -⟩ | ⟨a, b, ha, hb, hupTo, hown⟩ :=
    lower_upToTaskRetry .production d e hsame
  · rw [hkind] at hlower
    cases hlower
  · have hrules : ruleFindings .production d = [] := by decide +kernel
    refine ⟨a, b, ha, hb, hupTo, hown hrules "Save" _ (.tail _ (.head _)) (by decide), ?_⟩
    have hloaded : ((lowerDocument .production d).toOption.bind fun a =>
        (Entries.get? a "Load").bind State.recovery?) ≠
          (lowerDocument .production e).toOption.bind fun b =>
            (Entries.get? b "Load").bind State.recovery? := by
      decide +kernel
    rwa [ha, hb] at hloaded

end StateFlow
