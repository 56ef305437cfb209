import StateFlow.Proofs.UniqueNames

/-!
# Failures reach the failure handler

With a failure handler, every task, interaction and Parallel of the top level ends its catch rules
with one that leads to the handler.  The handler itself, Maps and everything inside machines keep
the catch rules they were written with.  `compile_failureHandling` says so of compiled playbooks,
also of those in which a helper takes another one's place.
-/

namespace StateFlow

open StateFlow.Playbook StateFlow.Lowering

namespace Lowering.Scheme

variable {r : Scheme} {ctx : Context} {name : String}

def failureCatchers (r : Scheme) (ctx : Context) (name : String) (kind : Kind) : List Catcher :=
  if r.catchesFailure ctx name ∧ kind ∈ catchingKinds then [failureCatch r.settings name] else []

theorem getD_catchers (hr : r.rename = id) {kind : Kind} (hkind : kind ∈ catchingKinds)
    (own : Option (List Catcher)) :
    (r.catchers ctx name own).getD [] = own.getD [] ++ r.failureCatchers ctx name kind := by
  unfold catchers failureCatchers
  rw [renameCatchers_eq hr]
  by_cases hcatches : r.catchesFailure ctx name = true
  · simp [hcatches, hkind, appendCatch]
  · simp [hcatches]

/-- A state comes out under its name with its own catch rules, and behind them the one for failures
where it applies. -/
theorem catchers_state (hr : r.rename = id) (ctx : Context) (name : String) (own : State) :
    ∃ out, (name, out) ∈ r.state ctx name own ∧
      out.catchers = own.catchers ++ r.failureCatchers ctx name own.kind := by
  have hnone : ∀ kind ∉ catchingKinds, r.failureCatchers ctx name kind = [] := by
    intro kind hnot
    simp [failureCatchers, hnot]
  have htask : Kind.task ∈ catchingKinds := by simp [catchingKinds]
  have hinteraction : Kind.interaction ∈ catchingKinds := by simp [catchingKinds]
  have hparallel : Kind.parallel ∈ catchingKinds := by simp [catchingKinds]
  cases own with
  | pass p =>
      refine ⟨.pass { p with exit := r.exit p.exit }, by simp [state], ?_⟩
      simp [hnone, State.kind, State.catchers, State.recovery?, catchingKinds]
  | succeed h =>
      refine ⟨.succeed h, by simp [state], ?_⟩
      simp [hnone, State.kind, catchingKinds]
  | fail f =>
      refine ⟨.fail f, by simp [state], ?_⟩
      simp [hnone, State.kind, catchingKinds]
  | wait w =>
      refine ⟨.wait { w with exit := r.exit w.exit }, by simp [state], ?_⟩
      simp [hnone, State.kind, State.catchers, State.recovery?, catchingKinds]
  | task t =>
      exact ⟨.task (r.task ctx name t), by simp [state], getD_catchers hr htask t.recovery.catchers⟩
  | interaction t =>
      exact ⟨.task (r.interaction ctx name t), by simp [state],
        getD_catchers hr hinteraction t.recovery.catchers⟩
  | choice c =>
      refine ⟨.choice (r.choice c), by simp [state], ?_⟩
      simp [hnone, State.kind, State.catchers, State.recovery?, catchingKinds]
  | parallel p branches =>
      exact ⟨.parallel (r.parallel ctx name p) (r.machines branches), by simp [state],
        getD_catchers hr hparallel p.recovery.catchers⟩
  | map m iterator =>
      refine ⟨.map (r.mapOver m) (r.machine iterator), by simp [state], ?_⟩
      simp [hnone, State.kind, State.catchers, State.recovery?, mapOver, renameCatchers_eq hr,
        catchingKinds]

theorem failureCatchers_of_not_handled (hctx : r.catchesFailure ctx name = false) (kind : Kind) :
    r.failureCatchers ctx name kind = [] := by
  simp [failureCatchers, hctx]

theorem catchers_of_not_handled (hr : r.rename = id) (hctx : r.catchesFailure ctx name = false)
    (own : Option (List Catcher)) : r.catchers ctx name own = own := by
  simp [catchers, hctx, renameCatchers_eq hr]

theorem catchers_helper_of_not_handled (hctx : r.catchesFailure ctx name = false) (p : Parallel) :
    (r.helper ctx name p).recovery.catchers = none := by
  simp [helper, mergeHelper, hctx]

end Lowering.Scheme

/-! ## Inside machines -/

/-- Every state of a lowered scope has the catch rules of its source, and merge helpers have
none. -/
structure KeepsCatchers (s : Settings) (source compiled : Scope) : Prop where
  names : Entries.keys compiled.states = namesWithHelpers s source.states
  states : ∀ name own, (name, own) ∈ source.states →
    ∃ out, Entries.get? compiled.states name = some out ∧ out.catchers = own.catchers
  helpers : ∀ name p branches, (name, .parallel p branches) ∈ source.states →
    ∃ t, Entries.get? compiled.states (mergeHelperName s name) = some (.task t) ∧
      t.recovery.catchers = none

variable {s : Settings} {d : Document}

theorem keepsCatchers_scope {source compiled : Scope} (hapart : source.Apart s)
    (hcontent : (Scheme.scope { settings := s } source).content = compiled.content) :
    KeepsCatchers s source compiled := by
  let r : Scheme := { settings := s }
  have hstates : r.each {} source.states = compiled.states := by
    have hpairs : Entries.ofPairs (r.each {} source.states) = compiled.states :=
      congrArg Prod.snd hcontent
    rwa [Scheme.ofPairs_each_eq (r := r) hapart] at hpairs
  have hdistinct : Entries.Distinct compiled.states := by
    rw [← hstates, Entries.Distinct, Scheme.keys_each]
    exact hapart
  have hget : ∀ {name own}, (name, own) ∈ source.states → ∀ out ∈ r.state {} name own,
      Entries.get? compiled.states out.1 = some out.2 := by
    intro name own hmem out hout
    have hcompiled : out ∈ compiled.states := hstates ▸ Scheme.state_subset_each hmem out hout
    exact Entries.get?_of_mem hdistinct hcompiled
  constructor
  case names =>
    rw [← hstates]
    exact Scheme.keys_each source.states
  case states =>
    intro name own hmem
    obtain ⟨out, hout, hcatchers⟩ := Scheme.catchers_state (r := r) rfl {} name own
    rw [Scheme.failureCatchers_of_not_handled rfl, List.append_nil] at hcatchers
    exact ⟨out, hget hmem _ hout, hcatchers⟩
  case helpers =>
    intro name p branches hmem
    have hout := hget hmem (mergeHelperName s name, .task (r.helper {} name p))
      (by rw [Scheme.state]; simp [r])
    exact ⟨_, hout, Scheme.catchers_helper_of_not_handled rfl p⟩

/-! ## The top level -/

/-- The names of a document's own states are no names that a failure handler brings. -/
theorem own_not_mem_failureNames (hwell : WellFormed s d) {handler : State}
    (hhandler : d.failureHandler? = some handler) {name : String}
    (hname : name ∈ Entries.keys d.states) : name ∉ failureNames s (some handler) := by
  intro hmem
  rcases mem_failureNames.mp hmem with hlabel | ⟨hkind, rfl⟩
  · exact hwell.reserved name (mem_reservedNames.mpr (Or.inr hlabel)) hname
  · cases handler with
    | parallel p branches => exact hwell.handlerHelper p branches hhandler hname
    | _ => cases hkind

/-- A name at the top level of a compiled document stands for what the failure handler's states are
lowered to, else for what the document's own states are lowered to, else for a bootstrap state. -/
theorem get?_assemble {x : Expanded} {added : Entries State}
    (hwell : WellFormed s d) (hstates : x.states = d.states ++ added)
    (hadded : (namesWithHelpers s added).Nodup) (name : String) :
    Entries.get?
        (Definition.assemble s d (Scheme.states { settings := s } x.context x.states)).states name =
      (Entries.get? (Scheme.each { settings := s } x.context added) name).or
        ((Entries.get? (Scheme.each { settings := s } x.context d.states) name).or
          (Entries.get? (Bootstrap.states s d.startAt) name)) := by
  let r : Scheme := { settings := s }
  have hlast : Entries.Distinct (r.each x.context added) := by
    rw [Entries.Distinct, Scheme.keys_each]
    exact hadded
  have hsplit : Scheme.states r x.context x.states =
      Entries.extend (r.each x.context d.states) (r.each x.context added) := by
    rw [hstates]
    exact Scheme.states_append (r := r) (hwell.helpers _ (topScope_mem d)) added
  have hdistinct : Entries.Distinct (Scheme.states r x.context x.states) :=
    Entries.distinct_ofPairs _
  calc Entries.get? (Entries.extend (Bootstrap.states s d.startAt)
        (Scheme.states r x.context x.states)) name
      = (Entries.get? (Scheme.states r x.context x.states) name).or
          (Entries.get? (Bootstrap.states s d.startAt) name) :=
        Entries.get?_extend hdistinct name
    _ = _ := by
        rw [hsplit, Entries.get?_extend hlast, Option.or_assoc]

section Handler

variable {x : Expanded} {handler rewired : State} (hlabels : s.LabelsApart) (hwell : WellFormed s d)
  (hhandler : d.failureHandler? = some handler) (hrewired : rewireHandler s handler = .ok rewired)
  (hstates : x.states = d.states ++ failureEntries s rewired)

include hlabels hrewired in
theorem nodup_failureEntries : (namesWithHelpers s (failureEntries s rewired)).Nodup := by
  rw [namesWithHelpers_failureEntries hrewired]
  exact (List.nodup_append.mp (nodup_failureNames hlabels (some handler))).2.1

include hlabels hwell hrewired hstates in
/-- What the handler's states are lowered to stands where it was put, whatever has its name. -/
theorem get?_failureEntries {name : String} {own : State}
    (hmem : (name, own) ∈ failureEntries s rewired) (out : String × State)
    (hout : out ∈ Scheme.state { settings := s } x.context name own) :
    Entries.get? (Definition.assemble s d
      (Scheme.states { settings := s } x.context x.states)).states out.1 = some out.2 := by
  have hnodup := nodup_failureEntries hlabels hrewired
  have hdistinct : Entries.Distinct
      (Scheme.each { settings := s } x.context (failureEntries s rewired)) := by
    rw [Entries.Distinct, Scheme.keys_each]
    exact hnodup
  rw [get?_assemble hwell hstates hnodup,
    Entries.get?_of_mem hdistinct (Scheme.state_subset_each hmem out hout)]
  rfl

include hlabels hwell hhandler hrewired hstates in
/-- A state of the document stands under its own name, with its own catch rules and the one for
failures where it applies. -/
theorem get?_own {name : String} {own : State} (hmem : (name, own) ∈ d.states) :
    ∃ out, Entries.get? (Definition.assemble s d
        (Scheme.states { settings := s } x.context x.states)).states name = some out ∧
      out.catchers = own.catchers ++
        Scheme.failureCatchers { settings := s } x.context name own.kind := by
  obtain ⟨out, hout, hcatchers⟩ :=
    Scheme.catchers_state (r := { settings := s }) rfl x.context name own
  have hlast : Entries.get?
      (Scheme.each { settings := s } x.context (failureEntries s rewired)) name = none := by
    rw [Entries.get?_eq_none, Scheme.keys_each, namesWithHelpers_failureEntries hrewired]
    exact own_not_mem_failureNames hwell hhandler (Entries.mem_keys_of_mem hmem)
  have hdistinct : Entries.Distinct (Scheme.each { settings := s } x.context d.states) := by
    rw [Entries.Distinct, Scheme.keys_each]
    exact hwell.helpers _ (topScope_mem d)
  refine ⟨out, ?_, hcatchers⟩
  rw [get?_assemble hwell hstates (nodup_failureEntries hlabels hrewired), hlast,
    Entries.get?_of_mem hdistinct (Scheme.state_subset_each hmem _ hout)]
  rfl

end Handler

theorem keepsCatchers_assemble {x : Expanded} (hlabels : s.LabelsApart) (hwell : WellFormed s d)
    (hexpand : expand s d = .ok x) :
    List.Forall₂ (KeepsCatchers s) (innerScopes d) (nestedScopes "/States"
      (Definition.assemble s d (Scheme.states { settings := s } x.context x.states)).states) := by
  have hapart : ∀ source ∈ innerScopes d, source.Apart s := by
    intro source hsource
    refine hwell.helpers source ?_
    rw [scopes_eq_cons]
    exact List.mem_cons_of_mem _ hsource
  have hpaired := (List.forall₂_and_left _ _).mpr
    ⟨hapart, scopes_assemble hlabels hwell hexpand⟩
  exact hpaired.imp fun source compiled h => keepsCatchers_scope h.1 h.2

/-- What a failure handler makes of the states of a document: the catch rules of every state, and
the way from a caught failure to the failing end. -/
structure FailureHandling (s : Settings) (d : Document) (handler : State) (c : Definition) :
    Prop where
  /-- Tasks, interactions and Parallels of the top level end with a catch rule for failures. -/
  catching : ∀ name own, (name, own) ∈ d.states → own.kind ∈ [.task, .interaction, .parallel] →
    ∃ out, Entries.get? c.states name = some out ∧
      out.catchers =
        own.catchers ++ [⟨[s.taskFailedError], some ("$.errors." ++ name), s.failure.entry⟩]
  /-- Other states of the top level, Maps among them, have their own catch rules only. -/
  others : ∀ name own, (name, own) ∈ d.states → own.kind ∉ [.task, .interaction, .parallel] →
    ∃ out, Entries.get? c.states name = some out ∧ out.catchers = own.catchers
  /-- So do the states of every machine, those of the handler's branches included. -/
  nested : List.Forall₂ (KeepsCatchers s) (innerScopes d) (nestedScopes "/States" c.states)
  entry : ∃ p, Entries.get? c.states s.failure.entry = some (.pass p) ∧
    p.exit = { next := some s.failure.handler }
  final : ∃ f, Entries.get? c.states s.failure.final = some (.fail f)
  /-- A Task as handler goes on to the end itself. -/
  task : ∀ t, handler = .task t →
    ∃ out, Entries.get? c.states s.failure.handler = some (.task out) ∧
      (State.task out).catchers = handler.catchers ∧
        out.exit = { next := some s.failure.final }
  /-- A Parallel as handler goes on to its merge helper, which catches nothing and goes on to the
  end. -/
  parallel : ∀ p branches, handler = .parallel p branches →
    ∃ out inner t, Entries.get? c.states s.failure.handler = some (.parallel out inner) ∧
      (State.parallel out inner).catchers = handler.catchers ∧
        out.exit = { next := some (mergeHelperName s s.failure.handler) } ∧
          Entries.get? c.states (mergeHelperName s s.failure.handler) = some (.task t) ∧
            t.recovery.catchers = none ∧ t.exit = { next := some s.failure.final }
  /-- There are no other handlers. -/
  kind : handler.kind ∈ [.task, .parallel]

theorem failureHandling_assemble {x : Expanded} {handler : State} (hlabels : s.LabelsApart)
    (hwell : WellFormed s d) (hexpand : expand s d = .ok x)
    (hhandler : d.failureHandler? = some handler) :
    FailureHandling s d handler
      (Definition.assemble s d (Scheme.states { settings := s } x.context x.states)) := by
  let r : Scheme := { settings := s }
  obtain ⟨hnone, -⟩ | ⟨_, rewired, hsome, hrewired, hstates⟩ := expand_append hlabels hwell hexpand
  · simp [hhandler] at hnone
  obtain rfl : handler = _ := Option.some.inj (hhandler.symm.trans hsome)
  have hctx : x.context.failureHandler = true := by
    rw [(expand_eq_ok hexpand).1]
    simp [topContext, hhandler]
  have hself : r.catchesFailure x.context s.failure.handler = false := by
    simp [Scheme.catchesFailure, r]
  have hcatches : ∀ name ∈ Entries.keys d.states, r.catchesFailure x.context name = true := by
    intro name hkey
    have hne : name ≠ s.failure.handler := by
      rintro rfl
      exact hwell.reserved _ (by simp [Settings.reservedNames]) hkey
    simp [Scheme.catchesFailure, hctx, r, hne]
  have hlookup := @get?_failureEntries s d x handler rewired hlabels hwell hrewired hstates
  constructor
  case catching =>
    intro name own hmem hkind
    obtain ⟨out, hout, hcatchers⟩ := get?_own hlabels hwell hhandler hrewired hstates hmem
    have hrule : r.failureCatchers x.context name own.kind = [failureCatch s name] :=
      if_pos ⟨hcatches name (Entries.mem_keys_of_mem hmem), hkind⟩
    exact ⟨out, hout, hrule ▸ hcatchers⟩
  case others =>
    intro name own hmem hkind
    obtain ⟨out, hout, hcatchers⟩ := get?_own hlabels hwell hhandler hrewired hstates hmem
    have hrule : r.failureCatchers x.context name own.kind = [] := if_neg fun h => hkind h.2
    have hkept : out.catchers = own.catchers := by simpa [r, hrule] using hcatchers
    exact ⟨out, hout, hkept⟩
  case nested => exact keepsCatchers_assemble hlabels hwell hexpand
  case entry =>
    let p : Pass := { exit := { next := some s.failure.handler } }
    have hmem : (s.failure.entry, State.pass p) ∈ failureEntries s rewired := by
      simp [failureEntries, p]
    refine ⟨p, hlookup hmem (_, _) ?_, rfl⟩
    simp [Scheme.state, Scheme.exit, p]
  case final =>
    have hmem : (s.failure.final, State.fail {}) ∈ failureEntries s rewired := by
      simp [failureEntries]
    refine ⟨{}, hlookup hmem (_, _) ?_⟩
    simp [Scheme.state]
  case task =>
    rintro t rfl
    cases hrewired
    let rewired : Task := { t with exit := toFinal s }
    have hmem : (s.failure.handler, State.task rewired) ∈ failureEntries s (.task rewired) := by
      simp [failureEntries]
    refine ⟨r.task x.context s.failure.handler rewired, hlookup hmem (_, _) ?_, ?_, ?_⟩
    · simp [Scheme.state, r]
    · have hkept := Scheme.catchers_of_not_handled (r := r) rfl hself t.recovery.catchers
      exact congrArg (Option.getD · []) hkept
    · exact Scheme.exit_eq (r := r) rfl (toFinal s)
  case parallel =>
    rintro p branches rfl
    cases hrewired
    let rewired : Parallel := { p with exit := toFinal s }
    have hmem : (s.failure.handler, State.parallel rewired branches) ∈
        failureEntries s (.parallel rewired branches) := by
      simp [failureEntries]
    refine ⟨r.parallel x.context s.failure.handler rewired, r.machines branches,
      r.helper x.context s.failure.handler rewired, hlookup hmem (_, _) ?_, ?_, rfl,
      hlookup hmem (mergeHelperName s s.failure.handler, _) ?_,
      Scheme.catchers_helper_of_not_handled hself rewired, Scheme.helper_exit rfl rewired⟩
    · simp [Scheme.state, r]
    · have hkept := Scheme.catchers_of_not_handled (r := r) rfl hself p.recovery.catchers
      exact congrArg (Option.getD · []) hkept
    · simp [Scheme.state, r]
  case kind =>
    obtain ⟨t, rfl, -⟩ | ⟨p, branches, rfl, -⟩ := rewireHandler_eq_ok hrewired
    · simp [State.kind]
    · simp [State.kind]

/-- With the settings of production: where a compiled playbook has a failure handler, failures of
the top level reach it, failures inside machines and in the handler itself do not, and it leads to
the failing end. -/
theorem compile_failureHandling (options : Options) (v : Json) (c : Compiled)
    (hok : compile .production options v = .ok c) :
    ∃ d, Document.ofJson v = .ok d ∧ ∀ handler, d.failureHandler? = some handler →
      FailureHandling .production d handler c.definition := by
  obtain ⟨d, x, hread, hwell, hexpand, hdefinition⟩ := compile_eq_ok hok
  refine ⟨d, hread, fun handler hhandler => ?_⟩
  rw [hdefinition]
  exact failureHandling_assemble production_labelsApart hwell hexpand hhandler

theorem compile_failureHandling_handledFan :
    ∃ c, compile .production {} (handledFan "_handle_task_failure" "Left") = .ok c ∧
      ∃ d handler, Document.ofJson (handledFan "_handle_task_failure" "Left") = .ok d ∧
        d.failureHandler? = some handler ∧
          FailureHandling .production d handler c.definition := by
  let v := handledFan "_handle_task_failure" "Left"
  obtain ⟨c, hc⟩ := exists_of_isOk (x := compile .production {} v) (by decide +kernel)
  obtain ⟨d, hd, hhandling⟩ := compile_failureHandling {} v c hc
  have hsome :
      (Document.ofJson v).toOption.map (fun d => d.failureHandler?.isSome) = some true := by
    decide +kernel
  rw [hd] at hsome
  obtain ⟨handler, hhandler⟩ := Option.isSome_iff_exists.mp (by simpa [Except.toOption] using hsome)
  exact ⟨c, hc, d, handler, hd, hhandler, hhandling handler hhandler⟩

end StateFlow
