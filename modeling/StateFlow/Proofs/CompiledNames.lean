import StateFlow.Proofs.ClosedReferences

/-!
# The names of a compiled document

The names of the top level come from the document, from the settings and from merge helpers.  Each
source keeps its own names apart; `compile_intact_iff` says when they all find a place of their own,
which is when no Parallel of the document has the merge helper of the failure handler.
-/

namespace StateFlow

open StateFlow.Playbook StateFlow.Lowering

variable {s : Settings} {d : Document}

/-! ## Labels and merge helpers -/

/-- The labels are distinct, and none of them can be the name of a merge helper. -/
structure Settings.LabelsApart (s : Settings) : Prop where
  nodup : s.reservedNames.Nodup
  helpers : ∀ name, mergeHelperName s name ∉ s.reservedNames

theorem head?_mergeHelperName (name : String) :
    (mergeHelperName .production name).toList.head? = some 'm' := by
  have hstem : (Settings.production.mergeHelperStem ++ Text.lowercase name).toList =
      'm' :: ("erge_".toList ++ (Text.lowercase name).toList) := by
    rw [String.toList_append]
    rfl
  rw [mergeHelperName, String.toList_ofList, hstem]
  rfl

theorem production_labelsApart : Settings.production.LabelsApart := by
  have hheads : ∀ label ∈ Settings.production.reservedNames, label.toList.head? ≠ some 'm' := by
    decide
  exact ⟨by decide, fun name hmem => hheads _ hmem (head?_mergeHelperName name)⟩

def Settings.bootstrapNames (s : Settings) : List String :=
  [s.bootstrap.invocationCheck, s.bootstrap.stateSetup, s.bootstrap.inputFormatter]

def Settings.failureLabels (s : Settings) : List String :=
  [s.failure.entry, s.failure.handler, s.failure.final]

theorem reservedNames_perm (s : Settings) :
    s.reservedNames.Perm (s.bootstrapNames ++ s.failureLabels) :=
  .cons _ (.cons _ (.cons _ (.swap _ _ _)))

theorem mem_reservedNames {name : String} :
    name ∈ s.reservedNames ↔ name ∈ s.bootstrapNames ∨ name ∈ s.failureLabels := by
  rw [(reservedNames_perm s).mem_iff, List.mem_append]

def failureNames (s : Settings) : Option State → List String
  | none => []
  | some handler =>
    [s.failure.entry, s.failure.handler]
      ++ (if handler.kind = .parallel then [mergeHelperName s s.failure.handler] else [])
      ++ [s.failure.final]

theorem mem_failureNames {handler : State} {name : String} :
    name ∈ failureNames s (some handler) ↔ name ∈ s.failureLabels ∨
      (handler.kind = .parallel ∧ name = mergeHelperName s s.failure.handler) := by
  simp only [failureNames, Settings.failureLabels, List.mem_append, List.mem_cons,
    List.not_mem_nil, or_false]
  split <;> simp_all
  all_goals tauto

/-! ## The top level -/

def topNames (s : Settings) (d : Document) : List String :=
  s.bootstrapNames ++ namesWithHelpers s d.states ++ failureNames s d.failureHandler?

theorem namesWithHelpers_append (s : Settings) (a b : Entries State) :
    namesWithHelpers s (a ++ b) = namesWithHelpers s a ++ namesWithHelpers s b := by
  simp [namesWithHelpers]

theorem namesWithHelpers_failureEntries {handler rewired : State}
    (hok : rewireHandler s handler = .ok rewired) :
    namesWithHelpers s (failureEntries s rewired) = failureNames s (some handler) := by
  obtain ⟨t, rfl, rfl⟩ | ⟨p, branches, rfl, rfl⟩ := rewireHandler_eq_ok hok
  · simp [failureEntries, failureNames, State.kind]
  · simp [failureEntries, failureNames, State.kind]

/-- Where labels are apart, decorators put their states behind those of the document. -/
theorem expand_append {x : Expanded} (hlabels : s.LabelsApart) (hwell : WellFormed s d)
    (hexpand : expand s d = .ok x) :
    (d.failureHandler? = none ∧ x.states = d.states) ∨
      ∃ handler rewired, d.failureHandler? = some handler ∧
        rewireHandler s handler = .ok rewired ∧
          x.states = d.states ++ failureEntries s rewired := by
  obtain ⟨-, hnone | ⟨handler, rewired, hsome, hrewired, hstates⟩⟩ := expand_eq_ok hexpand
  · exact Or.inl hnone
  · refine Or.inr ⟨handler, rewired, hsome, hrewired, ?_⟩
    have hkeys : Entries.keys (failureEntries s rewired) = s.failureLabels := rfl
    have hadded : Entries.Distinct (failureEntries s rewired) := by
      have hnodup := (reservedNames_perm s).nodup_iff.mp hlabels.nodup
      rw [Entries.Distinct, hkeys]
      exact (List.nodup_append.mp hnodup).2.1
    have hown : Entries.Distinct d.states :=
      distinct_of_mem_scopes hwell.names _ (topScope_mem d)
    rw [hstates, Entries.ofPairs_eq_self hadded, Entries.extend_eq_append]
    rw [Entries.Distinct, Entries.keys_append, hkeys]
    refine List.nodup_append.mpr ⟨hown, hkeys ▸ hadded, ?_⟩
    rintro name hname _ hlabel rfl
    exact hwell.reserved name (mem_reservedNames.mpr (Or.inr hlabel)) hname

theorem namesWithHelpers_expand {x : Expanded} (hlabels : s.LabelsApart)
    (hwell : WellFormed s d) (hexpand : expand s d = .ok x) :
    namesWithHelpers s x.states =
      namesWithHelpers s d.states ++ failureNames s d.failureHandler? := by
  obtain ⟨hnone, hstates⟩ | ⟨handler, rewired, hsome, hrewired, hstates⟩ :=
    expand_append hlabels hwell hexpand
  · simp [hnone, hstates, failureNames]
  · rw [hstates, namesWithHelpers_append, namesWithHelpers_failureEntries hrewired, hsome]

/-- At the top level of a compiled document every state has a place of its own: the names are those
of the bootstrap states, of the document's states with their helpers and of the failure handler's
states, and each helper goes on where its Parallel would have gone. -/
structure TopLevelIntact (s : Settings) (d : Document) (c : Definition) : Prop where
  names : Entries.keys c.states = topNames s d
  distinct : (Entries.keys c.states).Nodup
  helpers : ∀ name p branches, (name, .parallel p branches) ∈ d.states →
    ∃ t, Entries.get? c.states (mergeHelperName s name) = some (.task t) ∧
      t.exit = p.exit.continuation
  handlerHelper : ∀ p branches, d.failureHandler? = some (.parallel p branches) →
    ∃ t, Entries.get? c.states (mergeHelperName s s.failure.handler) = some (.task t) ∧
      t.exit = { next := some s.failure.final }

/-- The states of a compiled document whose names do not come together are the bootstrap states and
the lowered states, one behind the other. -/
theorem assemble_eq_append {x : Expanded} (hlabels : s.LabelsApart) (hwell : WellFormed s d)
    (hexpand : expand s d = .ok x) (hnodup : (topNames s d).Nodup) :
    ∃ boot, Entries.keys boot = s.bootstrapNames ∧
      (Definition.assemble s d (Scheme.states { settings := s } x.context x.states)).states =
        boot ++ Scheme.each { settings := s } x.context x.states := by
  have hkeys : Entries.keys (Scheme.each { settings := s } x.context x.states) =
      namesWithHelpers s d.states ++ failureNames s d.failureHandler? := by
    rw [Scheme.keys_each]
    exact namesWithHelpers_expand hlabels hwell hexpand
  rw [topNames, List.append_assoc, ← hkeys] at hnodup
  have hboot : Bootstrap.states s d.startAt =
      [(s.bootstrap.invocationCheck, .choice (Bootstrap.invocationCheck s d.startAt)),
        (s.bootstrap.stateSetup, .task (Bootstrap.stateSetup s)),
        (s.bootstrap.inputFormatter, .pass (Bootstrap.inputFormatter d.startAt))] :=
    Entries.ofPairs_eq_self (List.nodup_append.mp hnodup).1
  refine ⟨Bootstrap.states s d.startAt, by rw [hboot]; rfl, ?_⟩
  rw [Definition.assemble, Scheme.states,
    Entries.ofPairs_eq_self (List.nodup_append.mp hnodup).2.1, Entries.extend_eq_append]
  rw [Entries.Distinct, Entries.keys_append, hboot]
  exact hnodup

theorem intact_iff_nodup {x : Expanded} (hlabels : s.LabelsApart) (hwell : WellFormed s d)
    (hexpand : expand s d = .ok x) :
    TopLevelIntact s d
        (Definition.assemble s d (Scheme.states { settings := s } x.context x.states)) ↔
      (topNames s d).Nodup := by
  constructor
  · intro hintact
    rw [← hintact.names]
    exact hintact.distinct
  · intro hnodup
    let r : Scheme := { settings := s }
    obtain ⟨boot, hboot, hstates⟩ := assemble_eq_append hlabels hwell hexpand hnodup
    have hnames : Entries.keys (boot ++ r.each x.context x.states) = topNames s d := by
      rw [Entries.keys_append, hboot, Scheme.keys_each, topNames, List.append_assoc]
      exact congrArg _ (namesWithHelpers_expand hlabels hwell hexpand)
    -- The helper of a Parallel of the expanded top level stands in the output as it was made.
    have hhelper : ∀ {name p branches}, (name, State.parallel p branches) ∈ x.states →
        Entries.get? (boot ++ r.each x.context x.states) (mergeHelperName s name) =
          some (.task (r.helper x.context name p)) := by
      intro name p branches hmem
      have hout : (mergeHelperName s name, State.task (r.helper x.context name p)) ∈
          r.each x.context x.states :=
        Scheme.state_subset_each hmem _ (by simp [Scheme.state, r])
      refine Entries.get?_of_mem ?_ (List.mem_append_right _ hout)
      rwa [Entries.Distinct, hnames]
    constructor
    case names => rw [hstates, hnames]
    case distinct => rwa [hstates, hnames]
    case helpers =>
      intro name p branches hmem
      have hexpanded : (name, State.parallel p branches) ∈ x.states := by
        obtain ⟨-, heq⟩ | ⟨_, _, -, -, heq⟩ := expand_append hlabels hwell hexpand
        · rwa [heq]
        · exact heq ▸ List.mem_append_left _ hmem
      rw [hstates]
      exact ⟨_, hhelper hexpanded, Scheme.helper_exit rfl p⟩
    case handlerHelper =>
      intro p branches hsome
      obtain ⟨hnone, -⟩ | ⟨handler, rewired, hsome', hrewired, heq⟩ :=
        expand_append hlabels hwell hexpand
      · simp [hnone] at hsome
      · obtain rfl : State.parallel p branches = handler := by simpa [hsome] using hsome'
        cases hrewired
        have hexpanded : (s.failure.handler, State.parallel { p with exit := toFinal s } branches) ∈
            x.states := by simp [heq, failureEntries]
        rw [hstates]
        exact ⟨_, hhelper hexpanded, Scheme.helper_exit rfl _⟩

/-- The failure handler is a Parallel, and a Parallel of the top level has the same merge helper. -/
def HandlerHelperShared (s : Settings) (d : Document) : Prop :=
  ∃ p branches, d.failureHandler? = some (.parallel p branches) ∧
    ∃ name q inner, (name, State.parallel q inner) ∈ d.states ∧
      mergeHelperName s name = mergeHelperName s s.failure.handler

/-- The names of the document's own states and of their helpers are no labels. -/
theorem label_not_mem_own (hlabels : s.LabelsApart) (hwell : WellFormed s d) {label : String}
    (hlabel : label ∈ s.reservedNames) : label ∉ namesWithHelpers s d.states := by
  intro hmem
  rcases mem_namesWithHelpers.mp hmem with hkey | ⟨name, _, _, -, rfl⟩
  · exact hwell.reserved label hlabel hkey
  · exact hlabels.helpers name hlabel

theorem failureNames_perm (s : Settings) (handler : State) :
    (failureNames s (some handler)).Perm (s.failureLabels ++
      if handler.kind = .parallel then [mergeHelperName s s.failure.handler] else []) := by
  rw [failureNames, Settings.failureLabels]
  split
  · exact .cons _ (.cons _ (.swap _ _ _))
  · exact .refl _

/-- Labels, and the helper of a failure handler, never come together. -/
theorem nodup_failureNames (hlabels : s.LabelsApart) (handler : Option State) :
    (s.bootstrapNames ++ failureNames s handler).Nodup := by
  have hnodup := (reservedNames_perm s).nodup_iff.mp hlabels.nodup
  cases handler with
  | none => simpa [failureNames] using (List.nodup_append.mp hnodup).1
  | some handler =>
      rw [((failureNames_perm s handler).append_left _).nodup_iff, ← List.append_assoc]
      refine List.nodup_append.mpr ⟨hnodup, by split <;> simp, ?_⟩
      rintro label hlabel _ hhelper rfl
      split at hhelper
      · rw [List.mem_singleton] at hhelper
        subst hhelper
        exact hlabels.helpers _ ((reservedNames_perm s).mem_iff.mpr hlabel)
      · simp at hhelper

/-- Where labels are apart, names come together at the top level only by a Parallel that has the
merge helper of a failure handler. -/
theorem nodup_topNames_iff (hlabels : s.LabelsApart) (hwell : WellFormed s d) :
    (topNames s d).Nodup ↔ ¬ HandlerHelperShared s d := by
  have hown : (namesWithHelpers s d.states).Nodup :=
    hwell.helpers _ (topScope_mem d)
  have hothers := nodup_failureNames hlabels d.failureHandler?
  have hmove : (topNames s d).Perm
      ((s.bootstrapNames ++ failureNames s d.failureHandler?) ++ namesWithHelpers s d.states) := by
    rw [topNames, List.append_assoc, List.append_assoc]
    exact List.Perm.append_left _ List.perm_append_comm
  rw [hmove.nodup_iff, List.nodup_append']
  constructor
  · rintro ⟨-, -, hdisjoint⟩ ⟨p, branches, hsome, name, q, inner, hmem, hshared⟩
    refine hdisjoint (a := mergeHelperName s name) ?_ ?_
    · rw [List.mem_append, hsome, mem_failureNames, hshared]
      exact Or.inr (Or.inr ⟨rfl, rfl⟩)
    · exact mem_namesWithHelpers.mpr (Or.inr ⟨name, q, inner, hmem, rfl⟩)
  · intro hnot
    refine ⟨hothers, hown, fun name hname hmem => ?_⟩
    rcases List.mem_append.mp hname with hboot | hfailure
    · exact label_not_mem_own hlabels hwell (mem_reservedNames.mpr (Or.inl hboot)) hmem
    · cases hhandler : d.failureHandler? with
      | none => simp [hhandler, failureNames] at hfailure
      | some handler =>
          rw [hhandler, mem_failureNames] at hfailure
          rcases hfailure with hlabel | ⟨hkind, rfl⟩
          · exact label_not_mem_own hlabels hwell (mem_reservedNames.mpr (Or.inr hlabel)) hmem
          · cases handler with
            | parallel p branches =>
                rcases mem_namesWithHelpers.mp hmem with hkey | ⟨other, q, inner, hother, heq⟩
                · exact hwell.handlerHelper p branches hhandler hkey
                · exact hnot ⟨p, branches, hhandler, other, q, inner, hother, heq⟩
            | _ => cases hkind

/-- With the settings of production every state at the top level of a compiled playbook has a place
of its own, exactly if no Parallel of the top level has the merge helper of a failure handler. -/
theorem compile_intact_iff (options : Options) (v : Json) (c : Compiled)
    (hok : compile .production options v = .ok c) :
    ∃ d, Document.ofJson v = .ok d ∧
      (TopLevelIntact .production d c.definition ↔ ¬ HandlerHelperShared .production d) := by
  obtain ⟨d, x, hread, hwell, hexpand, hdefinition⟩ := compile_eq_ok hok
  refine ⟨d, hread, ?_⟩
  rw [hdefinition, intact_iff_nodup production_labelsApart hwell hexpand]
  exact nodup_topNames_iff production_labelsApart hwell

theorem compile_intact_iff_handledFan :
    ∃ c, compile .production {} (handledFan "Split" "Left") = .ok c ∧
      ∃ d, Document.ofJson (handledFan "Split" "Left") = .ok d ∧
        ¬ HandlerHelperShared .production d ∧ TopLevelIntact .production d c.definition := by
  let v := handledFan "Split" "Left"
  let helper := mergeHelperName .production
  obtain ⟨c, hc⟩ := exists_of_isOk (x := compile .production {} v) (by decide +kernel)
  obtain ⟨d, hd, hiff⟩ := compile_intact_iff {} v c hc
  have hhelpers : (Document.ofJson v).toOption.map (fun d => (Entries.keys d.states).all
      fun name => helper name ≠ helper Settings.production.failure.handler) = some true := by
    decide +kernel
  simp only [hd, Except.toOption, Option.map_some, Option.some.injEq, List.all_eq_true,
    decide_eq_true_eq] at hhelpers
  have hapart : ¬ HandlerHelperShared .production d := by
    rintro ⟨p, branches, -, name, q, inner, hmem, hshared⟩
    exact hhelpers name (Entries.mem_keys_of_mem hmem) hshared
  exact ⟨c, hc, d, hd, hapart, hiff.mpr hapart⟩

/-- The helper of a Parallel that ends is lost to that of the failure handler: the Parallel comes to
go on to the failing end. -/
theorem shared_helper_overwritten :
    ∃ c d, compile .production {} (handledFan "_handle_task_failure" "Left") = .ok c ∧
      Document.ofJson (handledFan "_handle_task_failure" "Left") = .ok d ∧
        ¬ TopLevelIntact .production d c.definition ∧
          (Entries.get? c.definition.states
            (mergeHelperName .production "_handle_task_failure")).bind State.next? =
              some "_End_With_Failure" := by
  let v := handledFan "_handle_task_failure" "Left"
  obtain ⟨c, hc⟩ := exists_of_isOk (x := compile .production {} v) (by decide +kernel)
  obtain ⟨d, hd⟩ := exists_of_isOk (x := Document.ofJson v) (by decide +kernel)
  have hcompiled : (compile .production {} v).toOption.map (fun c =>
      ((Entries.keys c.definition.states).length, (Entries.get? c.definition.states
        (mergeHelperName .production "_handle_task_failure")).bind State.next?)) =
          some (8, some "_End_With_Failure") := by decide +kernel
  have htop : (Document.ofJson v).toOption.map (fun d => (topNames .production d).length) =
      some 9 := by decide +kernel
  simp only [hc, Except.toOption, Option.map_some, Option.some.injEq, Prod.mk.injEq] at hcompiled
  simp only [hd, Except.toOption, Option.map_some, Option.some.injEq] at htop
  refine ⟨c, d, hc, hd, fun hintact => ?_, hcompiled.2⟩
  -- One of the two helpers has no place, so a name is missing.
  have hlength := congrArg List.length hintact.names
  omega

end StateFlow
