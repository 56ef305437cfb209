import StateFlow.Proofs.Lowering

/-!
# What decorators add

Without a failure handler the top-level states stay as they are.  With one, an entry, the handler
and a failing end are inserted behind them; the handler keeps its catch rules and its branches and
goes on to the failing end.
-/

namespace StateFlow.Lowering

open StateFlow.Playbook

variable {s : Settings} {d : Document}

/-- The states around a handler whose exit has been replaced. -/
def failureEntries (s : Settings) (rewired : State) : Entries State :=
  [(s.failure.entry, .pass { exit := { next := some s.failure.handler } }),
    (s.failure.handler, rewired),
    (s.failure.final, .fail {})]

def topContext (d : Document) : Context where
  failureHandler := d.failureHandler?.isSome
  disableDefaultRetry := d.decorators.bind Decorators.disableDefaultRetry

theorem rewireHandler_eq_ok {handler rewired : State}
    (hok : rewireHandler s handler = .ok rewired) :
    (∃ t, handler = .task t ∧ rewired = .task { t with exit := toFinal s }) ∨
      ∃ p branches, handler = .parallel p branches ∧
        rewired = .parallel { p with exit := toFinal s } branches := by
  cases handler with
  | task t =>
      cases hok
      exact Or.inl ⟨t, rfl, rfl⟩
  | parallel p branches =>
      cases hok
      exact Or.inr ⟨p, branches, rfl, rfl⟩
  | _ => cases hok

theorem references_rewired {handler rewired : State}
    (hok : rewireHandler s handler = .ok rewired) :
    rewired.references = ⟨s.failure.final, .next⟩ ::
      handler.catchers.map fun c => ⟨c.next, .catchNext⟩ := by
  obtain ⟨t, rfl, rfl⟩ | ⟨p, branches, rfl, rfl⟩ := rewireHandler_eq_ok hok
  · rfl
  · rfl

theorem scopes_rewired {handler rewired : State} (path : String)
    (hok : rewireHandler s handler = .ok rewired) :
    State.scopes path rewired = State.scopes path handler := by
  obtain ⟨t, rfl, rfl⟩ | ⟨p, branches, rfl, rfl⟩ := rewireHandler_eq_ok hok
  · simp [State.scopes]
  · simp [State.scopes]

theorem handlerScopes_eq {handler rewired : State}
    (hok : rewireHandler s handler = .ok rewired) :
    handlerScopes (some handler) = State.scopes "/Decorators/TaskFailureHandler" handler := by
  obtain ⟨t, rfl, rfl⟩ | ⟨p, branches, rfl, rfl⟩ := rewireHandler_eq_ok hok
  · simp [State.scopes, handlerScopes]
  · simp [State.scopes, handlerScopes]

theorem expand_of_none (hnone : d.failureHandler? = none) :
    expand s d = .ok ⟨d.states, topContext d⟩ := by
  simp only [expand, topContext, hnone]
  rfl

theorem expand_of_some {handler : State} (hsome : d.failureHandler? = some handler) :
    expand s d = (rewireHandler s handler).map fun rewired =>
      ⟨Entries.extend d.states (Entries.ofPairs (failureEntries s rewired)), topContext d⟩ := by
  simp only [expand, topContext, hsome, failureStates]
  cases rewireHandler s handler <;> rfl

/-- What decorators can do to the top-level states. -/
theorem expand_eq_ok {x : Expanded} (hok : expand s d = .ok x) :
    x.context = topContext d ∧
      ((d.failureHandler? = none ∧ x.states = d.states) ∨
        ∃ handler rewired, d.failureHandler? = some handler ∧
          rewireHandler s handler = .ok rewired ∧
            x.states =
              Entries.extend d.states (Entries.ofPairs (failureEntries s rewired))) := by
  cases hhandler : d.failureHandler? with
  | none =>
      rw [expand_of_none hhandler] at hok
      cases hok
      exact ⟨rfl, Or.inl ⟨rfl, rfl⟩⟩
  | some handler =>
      rw [expand_of_some hhandler] at hok
      cases hrewired : rewireHandler s handler with
      | error kind =>
          rw [hrewired] at hok
          cases hok
      | ok rewired =>
          rw [hrewired] at hok
          cases hok
          exact ⟨rfl, Or.inr ⟨handler, rewired, rfl, hrewired, rfl⟩⟩

/-- The states that a failure handler adds stand behind those of a document that breaks no rule,
whatever labels the settings choose. -/
theorem extend_failureEntries (hwell : WellFormed s d) (rewired : State) :
    Entries.extend d.states (Entries.ofPairs (failureEntries s rewired)) =
      d.states ++ Entries.ofPairs (failureEntries s rewired) := by
  apply Entries.extend_eq_append
  rw [Entries.Distinct, Entries.keys_append]
  refine List.nodup_append.mpr ⟨distinct_of_mem_scopes hwell.names _ (topScope_mem d),
    Entries.distinct_ofPairs _, ?_⟩
  rintro name hname _ hlabel rfl
  rw [Entries.mem_keys_ofPairs] at hlabel
  apply hwell.reserved name ?_ hname
  simp only [failureEntries, Entries.keys_cons, Entries.keys_nil, List.mem_cons,
    List.not_mem_nil, or_false] at hlabel
  simp only [Settings.reservedNames, List.mem_cons]
  tauto

theorem expand_eq_append {x : Expanded} (hwell : WellFormed s d) (hok : expand s d = .ok x) :
    (d.failureHandler? = none ∧ x.states = d.states) ∨
      ∃ handler rewired, d.failureHandler? = some handler ∧
        rewireHandler s handler = .ok rewired ∧
          x.states = d.states ++ Entries.ofPairs (failureEntries s rewired) := by
  obtain ⟨-, hnone | ⟨handler, rewired, hsome, hrewired, hstates⟩⟩ := expand_eq_ok hok
  · exact Or.inl hnone
  · exact Or.inr ⟨handler, rewired, hsome, hrewired, hstates.trans (extend_failureEntries hwell _)⟩

/-- The names at the top level: those of the document, and with a failure handler its labels. -/
theorem mem_keys_of_expand {x : Expanded} (hok : expand s d = .ok x) {name : String} :
    name ∈ Entries.keys x.states ↔ name ∈ Entries.keys d.states ∨
      (d.failureHandler?.isSome = true ∧
        name ∈ [s.failure.entry, s.failure.handler, s.failure.final]) := by
  obtain ⟨-, ⟨hnone, hstates⟩ | ⟨handler, rewired, hsome, -, hstates⟩⟩ := expand_eq_ok hok
  · simp [hnone, hstates]
  · rw [hstates, Entries.mem_keys_extend, Entries.mem_keys_ofPairs]
    simp [hsome, failureEntries]

/-- Decorators bring in no other states than those around the failure handler. -/
theorem mem_of_expand {x : Expanded} (hok : expand s d = .ok x) {entry : String × State}
    (hentry : entry ∈ x.states) : entry ∈ d.states ∨
      ∃ handler rewired, d.failureHandler? = some handler ∧
        rewireHandler s handler = .ok rewired ∧ entry ∈ failureEntries s rewired := by
  obtain ⟨-, ⟨-, hstates⟩ | ⟨handler, rewired, hsome, hrewired, hstates⟩⟩ := expand_eq_ok hok
  · exact Or.inl (hstates ▸ hentry)
  · rw [hstates] at hentry
    refine (Entries.mem_of_mem_extend hentry).imp_right fun hadded => ?_
    exact ⟨handler, rewired, hsome, hrewired, Entries.mem_of_mem_ofPairs hadded⟩

theorem lower_eq_map :
    lower s d = (expand s d).map fun x => Scheme.states { settings := s } x.context x.states := by
  unfold lower
  cases expand s d <;> rfl

theorem lower_eq_ok_iff {lowered : Entries State} :
    lower s d = .ok lowered ↔ ∃ x, expand s d = .ok x ∧
      lowered = Scheme.states { settings := s } x.context x.states := by
  rw [lower_eq_map]
  cases hx : expand s d with
  | error kind => simp [Except.map]
  | ok x =>
      simp only [Except.map, Except.ok.injEq, exists_eq_left']
      exact eq_comm

end StateFlow.Lowering
