import StateFlow.Proofs.Content
import StateFlow.Proofs.LoweredMembers
import StateFlow.Proofs.Reread

/-!
# Lowering adds nothing that could be unwrapped

The envelopes, rules and helpers that lowering writes around what it is given hold no wrapper of
their own.  So states that are readable are lowered to readable ones, unless the name of a state or
of a merge helper is taken for a wrapper (`Lowering.Scheme.readable_lowered_each`).
-/

namespace StateFlow.Literal

open StateFlow.Json StateFlow.Playbook StateFlow.Lowering

abbrev mark : String := Settings.production.literalMarker

def Fine (entry : String × Json) : Prop :=
  (¬ Wraps mark entry.1.toList ∧ (Opens mark entry.1.toList → ¬ EndsClosed entry.2)) ∧
    Readable mark entry.2

theorem readable_obj {members : Entries Json} :
    Readable mark (.obj members) ↔ Entries.Distinct members ∧ ∀ entry ∈ members, Fine entry :=
  consists_obj

theorem readable_list {β : Type} {write : β → Json} {xs : List β} :
    Readable mark (Json.ofList write xs) ↔ ∀ x ∈ xs, Readable mark (write x) := by
  rw [Json.ofList, Readable, consists_arr, List.forall_mem_map]

theorem not_wraps_of_unmarked {text : String} (htext : ¬ mark.toList <:+: text.toList) :
    ¬ Wraps mark text.toList :=
  fun hwraps => htext (infix_of_opens (opens_of_wraps hwraps))

theorem Fine.of_name {key : String} {v : Json} (hkey : ¬ mark.toList <:+: key.toList)
    (hv : Readable mark v) : Fine (key, v) :=
  ⟨⟨not_wraps_of_unmarked hkey, fun hopens => absurd (infix_of_opens hopens) hkey⟩, hv⟩

theorem fine_of_unmarked {members : Entries Json} (hmembers : Unmarked mark (.obj members)) :
    ∀ entry ∈ members, Fine entry :=
  (readable_obj.mp hmembers.readable).2

/-! ## Constants -/

def writtenNames : List String :=
  ["Type", "Comment", "StartAt", "States", "ErrorEquals", "IntervalSeconds", "MaxAttempts",
    "BackoffRate", "ResultPath", "Next", "End", "Resource", "Parameters", "Retry", "Catch",
    "Branches", "Iterator", "execution_id.$", "artifacts.$", "errors.$", "results.$",
    "State_Config", "Name", "FunctionName", "Payload", "sfn_context", "task_token.$", "Choices",
    "Default", "And", "Variable", "IsPresent", "results", "errors", "playbook_name.$",
    "playbook_event_details.$"]

theorem unmarked_writtenNames : ∀ name ∈ writtenNames, ¬ mark.toList <:+: name.toList := by
  decide +kernel

theorem fine_written {key : String} {v : Json} (hkey : key ∈ writtenNames)
    (hv : Readable mark v) : Fine (key, v) :=
  .of_name (unmarked_writtenNames key hkey) hv

def writtenTexts : List String :=
  Settings.production.reservedNames ++ Settings.production.defaultRetry.errorEquals ++
    [Settings.production.taskFailedError, Settings.production.tokenWaitResource,
      Settings.production.mergeHelperResource, Settings.production.stateSetupResource,
      "$.execution_id", "$.artifacts", "$.errors", "$.results", "$$.Task.Token",
      "$$.Execution.Name", "$$.StateMachine.Name", "$$.Execution.Input"] ++
    Playbook.Kind.all.map Playbook.Kind.name

theorem unmarked_writtenTexts : ∀ text ∈ writtenTexts, ¬ mark.toList <:+: text.toList := by
  decide +kernel

theorem readable_written {text : String} (htext : text ∈ writtenTexts) :
    Readable mark (.str text) :=
  not_wraps_of_unmarked (unmarked_writtenTexts text htext)

/-! ## Envelopes -/

theorem readable_taskEnvelope {name : String} {parameters : Option Json}
    (hname : ¬ Wraps mark name.toList)
    (hparameters : ∀ v, parameters = some v → Readable mark v) :
    Readable mark (taskEnvelope name parameters) := by
  have hconfig : Readable mark
      (.obj ([("Name", .str name)] ++ optionalEntry "Parameters" id parameters)) := by
    refine readable_obj.mpr ⟨?_, List.forall_mem_append.mpr ⟨List.forall_mem_singleton.mpr ?_, ?_⟩⟩
    · cases parameters <;> simp [Entries.Distinct, optionalEntry]
    · exact fine_written (by decide) hname
    · intro entry hentry
      obtain ⟨v, hv, rfl⟩ := mem_optionalEntry.mp hentry
      exact fine_written (by decide) (hparameters v hv)
  refine readable_obj.mpr ⟨by simp [Entries.Distinct], ?_⟩
  simp only [List.forall_mem_cons, List.not_mem_nil, false_imp_iff, implies_true, and_true]
  exact ⟨fine_written (by decide) (readable_written (by decide)),
    fine_written (by decide) (readable_written (by decide)),
    fine_written (by decide) (readable_written (by decide)),
    fine_written (by decide) (readable_written (by decide)), fine_written (by decide) hconfig⟩

theorem readable_interactionEnvelope {name function : String} {parameters : Option Json}
    (hname : ¬ Wraps mark name.toList) (hfunction : ¬ Wraps mark function.toList)
    (hparameters : ∀ v, parameters = some v → Readable mark v) :
    Readable mark (interactionEnvelope name parameters function) := by
  have hpayload : Readable mark (.obj
      [("sfn_context", taskEnvelope name parameters), ("task_token.$", .str "$$.Task.Token")]) := by
    refine readable_obj.mpr ⟨by simp [Entries.Distinct], ?_⟩
    rw [List.forall_mem_cons, List.forall_mem_singleton]
    exact ⟨fine_written (by decide) (readable_taskEnvelope hname hparameters),
      fine_written (by decide) (readable_written (by decide))⟩
  refine readable_obj.mpr ⟨by simp [Entries.Distinct], ?_⟩
  rw [List.forall_mem_cons, List.forall_mem_singleton]
  exact ⟨fine_written (by decide) hfunction, fine_written (by decide) hpayload⟩

/-! ## Retry and catch rules -/

theorem readable_defaultRetry {errors : List String}
    (herrors : errors ⊆ Settings.production.defaultRetry.errorEquals) :
    Readable mark { Settings.production.defaultRetry with errorEquals := errors }.toJson := by
  have htexts : Readable mark (texts errors) :=
    readable_list.mpr fun error herror => readable_written
      (by simp [writtenTexts, herrors herror])
  refine readable_obj.mpr ⟨by simp [Entries.Distinct, optionalEntry, Settings.production], ?_⟩
  simp only [optionalEntry, Settings.production, List.cons_append, List.nil_append,
    List.forall_mem_cons, List.not_mem_nil, false_imp_iff, implies_true, and_true]
  exact ⟨fine_written (by decide) htexts, fine_written (by decide) (consists_ofWord _),
    fine_written (by decide) (consists_ofWord _),
    fine_written (by decide) (by simp [Readable, Settings.small])⟩

/-- The path under which an error is kept opens nothing that the name of the state does not open. -/
theorem not_wraps_errorPath {label : String} (hlabel : ¬ Wraps mark label.toList) :
    ¬ Wraps mark ("$.errors." ++ label).toList := by
  have hmark : mark.toList = 'a' :: "pb_render_nonstring_value".toList := rfl
  have hpath : ("$.errors." ++ label).toList =
      '$' :: '.' :: 'e' :: 'r' :: 'r' :: 'o' :: 'r' :: 's' :: '.' :: label.toList := by
    rw [String.toList_append]
    rfl
  rintro ⟨inner, hsuffix⟩
  rw [hpath] at hsuffix
  -- A quote stands only in front of the path, where no marker follows, or in the name.
  have hname : opening mark ++ inner ++ [')'] <:+ label.toList := by
    simpa [List.suffix_cons_iff, opening, hmark] using hsuffix
  exact hlabel ⟨inner, hname.trans (List.suffix_cons _ _)⟩

theorem readable_failureCatch {label : String} (hlabel : ¬ Wraps mark label.toList) :
    Readable mark (failureCatch .production label).toJson := by
  refine readable_obj.mpr ⟨by simp [Entries.Distinct, optionalEntry, failureCatch], ?_⟩
  simp only [failureCatch, optionalEntry, List.cons_append, List.nil_append, List.forall_mem_cons,
    List.not_mem_nil, false_imp_iff, implies_true, and_true]
  refine ⟨fine_written (by decide) (readable_list.mpr ?_),
    fine_written (by decide) (not_wraps_errorPath hlabel),
    fine_written (by decide) (readable_written (by decide))⟩
  exact List.forall_mem_singleton.mpr (readable_written (by decide))

theorem readable_own_rules {β : Type} {key : String} {write : β → Json} {own : Option (List β)}
    (hown : ∀ entry ∈ optionalEntry key (Json.ofList write) own, Fine entry) :
    ∀ rule ∈ own.getD [], Readable mark (write rule) := by
  cases own with
  | none => simp
  | some rules => exact readable_list.mp (hown (key, Json.ofList write rules) (by simp)).2

theorem readable_recovery {own : Recovery} (hown : ∀ entry ∈ own.entries, Fine entry) :
    (∀ rule ∈ own.retry.getD [], Readable mark rule.toJson) ∧
      ∀ rule ∈ own.catchers.getD [], Readable mark rule.toJson := by
  rw [Recovery.entries, List.forall_mem_append] at hown
  exact ⟨readable_own_rules hown.1, readable_own_rules hown.2⟩

/-! ## States -/

theorem readable_state {s : State} :
    Readable mark s.toJson ↔ ∀ entry ∈ s.entries, Fine entry := by
  have hkind : Fine ("Type", .str s.kind.name) :=
    fine_written (by decide) (readable_written (by cases s.kind <;> decide))
  rw [State.toJson, readable_obj, List.forall_mem_cons]
  exact ⟨fun h => h.2.2, fun h => ⟨s.distinct_entries, hkind, h⟩⟩

theorem readable_states {own : Entries State} :
    Readable mark (statesToJson own) ↔ Entries.Distinct own ∧
      ∀ entry ∈ own, ¬ Wraps mark entry.1.toList ∧ Readable mark entry.2.toJson := by
  rw [statesToJson, namedToJson_eq, readable_obj, Entries.Distinct, Entries.keys_mapValues,
    Entries.mapValues, List.forall_mem_map]
  refine and_congr Iff.rfl (forall₂_congr fun entry _ => ?_)
  exact ⟨fun h => ⟨h.1.1, h.2⟩, fun h => ⟨⟨h.1, fun _ => by simp [State.toJson, EndsClosed]⟩, h.2⟩⟩

theorem readable_machine_parts {comment : Option String} {startAt : String} {own : Entries State}
    {extra : Entries Json}
    (hmachine : Readable mark (Machine.toJson ⟨comment, startAt, own, extra⟩)) :
    Readable mark (.str startAt) ∧ Readable mark (statesToJson own) := by
  rw [Machine.toJson, machineObject, readable_obj] at hmachine
  exact ⟨(hmachine.2 ("StartAt", .str startAt) (by simp)).2,
    (hmachine.2 ("States", statesToJson own) (by simp [statesToJson])).2⟩

/-- A readable machine stays so if its start and its states are replaced by readable ones. -/
theorem readable_machine {comment : Option String} {startAt startAt' : String}
    {own own' : Entries State} {extra : Entries Json}
    (hmachine : Readable mark (Machine.toJson ⟨comment, startAt, own, extra⟩))
    (hstart : Readable mark (.str startAt')) (hown : Readable mark (statesToJson own')) :
    Readable mark (Machine.toJson ⟨comment, startAt', own', extra⟩) := by
  rw [Machine.toJson, machineObject, readable_obj] at hmachine ⊢
  simp only [Entries.Distinct, Entries.keys_append, Entries.keys_cons, List.forall_mem_append,
    List.forall_mem_cons] at hmachine ⊢
  obtain ⟨hdistinct, ⟨hcomment, -, -, hnone⟩, hextra⟩ := hmachine
  exact ⟨hdistinct, ⟨hcomment, fine_written (by decide) hstart, fine_written (by decide) hown,
    hnone⟩, hextra⟩

end StateFlow.Literal

namespace StateFlow.Lowering.Scheme

open StateFlow.Json StateFlow.Playbook StateFlow.Literal

variable {r : Scheme} {ctx : Context} {name : String} (hr : r.rename = id)
  (hs : r.settings = .production)

include hs in
theorem readable_mergeRetry {own : Option (List Retrier)} {disabled : Bool} {rules : List Retrier}
    (hown : ∀ rule ∈ own.getD [], Readable mark rule.toJson)
    (hrules : mergeRetry own disabled r.settings.defaultRetry = some rules) :
    Readable mark (Json.ofList Retrier.toJson rules) := by
  refine readable_list.mpr fun rule hrule => ?_
  rw [hs] at hrules
  rcases mem_mergeRetry hrules hrule with hmem | ⟨errors, -, herrors, rfl⟩
  · exact hown rule hmem
  · exact readable_defaultRetry herrors

include hr hs

theorem readable_catchers (hname : ¬ Wraps mark name.toList) {own : Option (List Catcher)}
    {rules : List Catcher} (hown : ∀ rule ∈ own.getD [], Readable mark rule.toJson)
    (hrules : r.catchers ctx name own = some rules) :
    Readable mark (Json.ofList Catcher.toJson rules) := by
  refine readable_list.mpr fun rule hrule => ?_
  rcases mem_catchers hr hrules hrule with hmem | ⟨-, rfl⟩
  · exact hown rule hmem
  · rw [hs]
    exact readable_failureCatch hname

theorem fine_task {t : Task} (hname : ¬ Wraps mark name.toList)
    (hown : ∀ entry ∈ t.entries, Fine entry) :
    ∀ entry ∈ (r.task ctx name t).entries, Fine entry := by
  intro entry hentry
  obtain ⟨hretry, hcatchers⟩ := readable_recovery fun entry h => hown entry (t.recovery_subset h)
  rcases mem_entries_task hr hentry with
    hmem | ⟨v, hv, rfl⟩ | ⟨rules, hrules, rfl⟩ | ⟨rules, hrules, rfl⟩
  · exact hown entry hmem
  · refine fine_written (by decide) (readable_taskEnvelope hname fun u hu => ?_)
    cases hu
    exact (hown ("Parameters", v) (by simp [Task.entries, Effects.entries, hv])).2
  · exact fine_written (by decide) (readable_mergeRetry hs hretry hrules)
  · exact fine_written (by decide) (readable_catchers hr hs hname hcatchers hrules)

theorem fine_interaction {t : Task} (hname : ¬ Wraps mark name.toList)
    (hown : ∀ entry ∈ t.entries, Fine entry) :
    ∀ entry ∈ (r.interaction ctx name t).entries, Fine entry := by
  intro entry hentry
  obtain ⟨hretry, hcatchers⟩ := readable_recovery fun entry h => hown entry (t.recovery_subset h)
  rcases mem_entries_interaction hr hentry with
    hmem | rfl | rfl | ⟨rules, hrules, rfl⟩ | ⟨rules, hrules, rfl⟩
  · exact hown entry hmem
  · rw [hs]
    exact fine_written (by decide) (readable_written (by decide))
  · have hresource := (hown ("Resource", .str t.resource) (by simp [Task.entries])).2
    refine fine_written (by decide) (readable_interactionEnvelope hname hresource fun v hv => ?_)
    exact (hown ("Parameters", v) (by simp [Task.entries, Effects.entries, hv])).2
  · exact fine_written (by decide) (readable_mergeRetry hs hretry hrules)
  · exact fine_written (by decide) (readable_catchers hr hs hname hcatchers hrules)

theorem fine_parallel {p : Parallel} {own branches : Json} (hname : ¬ Wraps mark name.toList)
    (hhelper : ¬ Wraps mark (mergeHelperName r.settings name).toList)
    (hown : ∀ entry ∈ p.entries own, Fine entry) (hbranches : Readable mark branches) :
    ∀ entry ∈ (r.parallel ctx name p).entries branches, Fine entry := by
  intro entry hentry
  obtain ⟨-, hcatchers⟩ := readable_recovery fun entry h => hown entry (p.recovery_subset own h)
  rcases mem_entries_parallel own hentry with hmem | rfl | rfl | ⟨rules, hrules, rfl⟩
  · exact hown entry hmem
  · exact fine_written (by decide) hbranches
  · exact fine_written (by decide) hhelper
  · exact fine_written (by decide) (readable_catchers hr hs hname hcatchers hrules)

theorem fine_helper {p : Parallel} {own : Json}
    (hhelper : ¬ Wraps mark (mergeHelperName r.settings name).toList)
    (hown : ∀ entry ∈ p.entries own, Fine entry) :
    ∀ entry ∈ (r.helper ctx name p).entries, Fine entry := by
  intro entry hentry
  rcases mem_entries_helper hr hentry with rfl | rfl | ⟨-, rfl⟩ | hexit
  · rw [hs]
    exact fine_written (by decide) (readable_written (by decide))
  · rw [hs]
    refine fine_written (by decide) (readable_list.mpr (List.forall_mem_singleton.mpr ?_))
    exact readable_defaultRetry (List.Subset.refl _)
  · rw [hs] at hhelper ⊢
    refine fine_written (by decide) (readable_list.mpr (List.forall_mem_singleton.mpr ?_))
    exact readable_failureCatch hhelper
  · rcases Exit.mem_continuation hexit with rfl | ⟨next, rfl, hmem⟩
    · exact fine_written (by decide) (consists_bool true)
    · exact hown _ (p.exit_subset own hmem)

omit hr hs

/-! ## Scopes -/

/-- No name of a scope, merge helpers included, is taken for a wrapper. -/
def NamesPlain (s : Settings) (scopes : List Scope) : Prop :=
  ∀ scope ∈ scopes, ∀ name ∈ namesWithHelpers s scope.states, ¬ Wraps mark name.toList

mutual

theorem readable_lowered_state (hr : r.rename = id) (hs : r.settings = .production)
    (ctx : Context) (path name : String) : (st : State) → Readable mark st.toJson →
    (∀ n ∈ namesWithHelpers r.settings [(name, st)], ¬ Wraps mark n.toList) →
    NamesPlain r.settings (State.scopes path st) →
      ∀ out ∈ r.state ctx name st, ¬ Wraps mark out.1.toList ∧ Readable mark out.2.toJson
  | .pass s => by
      intro hown hnames _
      rw [state, exit_eq hr, List.forall_mem_singleton]
      exact ⟨hnames name (by simp [State.kind]), hown⟩
  | .succeed _ | .fail _ => by
      intro hown hnames _
      rw [state, List.forall_mem_singleton]
      exact ⟨hnames name (by simp [State.kind]), hown⟩
  | .wait s => by
      intro hown hnames _
      rw [state, exit_eq hr, List.forall_mem_singleton]
      exact ⟨hnames name (by simp [State.kind]), hown⟩
  | .choice c => by
      intro hown hnames _
      rw [state, choice_eq hr, List.forall_mem_singleton]
      exact ⟨hnames name (by simp [State.kind]), hown⟩
  | .task t => by
      intro hown hnames _
      have hname := hnames name (by simp [State.kind])
      rw [readable_state] at hown
      rw [state, List.forall_mem_singleton]
      exact ⟨hname, readable_state.mpr (fine_task hr hs hname hown)⟩
  | .interaction t => by
      intro hown hnames _
      have hname := hnames name (by simp [State.kind])
      rw [readable_state] at hown
      rw [state, List.forall_mem_singleton]
      exact ⟨hname, readable_state.mpr (fine_interaction hr hs hname hown)⟩
  | .parallel p branches => by
      intro hown hnames hscopes
      rw [State.scopes] at hscopes
      have hname := hnames name (by simp [State.kind])
      have hhelper := hnames (mergeHelperName r.settings name) (by simp [State.kind])
      rw [readable_state] at hown
      have hbranches := (hown _ (p.branches_mem (.arr (Machine.listToJson branches)))).2
      rw [listToJson_eq, Readable, consists_arr, List.forall_mem_map] at hbranches
      have hlowered := readable_lowered_machines hr hs path 0 branches hbranches hscopes
      rw [state, List.forall_mem_cons, List.forall_mem_singleton]
      refine ⟨⟨hname, readable_state.mpr (fine_parallel hr hs hname hhelper hown ?_)⟩,
        hhelper, readable_state.mpr (fine_helper hr hs hhelper hown)⟩
      rwa [listToJson_eq, Readable, consists_arr, List.forall_mem_map]
  | .map m iterator => by
      intro hown hnames hscopes
      rw [State.scopes] at hscopes
      have hname := hnames name (by simp [State.kind])
      rw [readable_state] at hown
      have hiterator := (hown _ (m.iterator_mem iterator.toJson)).2
      have hlowered := readable_lowered_machine hr hs _ iterator hiterator hscopes
      rw [state, mapOver_eq hr, List.forall_mem_singleton]
      refine ⟨hname, readable_state.mpr fun entry hentry => ?_⟩
      rcases MapOver.mem_entries iterator.toJson hentry with hmem | rfl
      · exact hown entry hmem
      · exact fine_written (by decide) hlowered

theorem readable_lowered_machine (hr : r.rename = id) (hs : r.settings = .production)
    (path : String) : (m : Machine) → Readable mark m.toJson →
    NamesPlain r.settings (Machine.scopes path m) → Readable mark (r.machine m).toJson
  | ⟨comment, startAt, own, extra⟩ => by
      intro hmachine hscopes
      rw [Machine.scopes, NamesPlain, List.forall_mem_cons] at hscopes
      obtain ⟨hstart, hstates⟩ := readable_machine_parts hmachine
      rw [readable_states] at hstates
      have hlowered := readable_lowered_each hr hs {} path own
        (fun entry hentry => (hstates.2 entry hentry).2) hscopes.1 hscopes.2
      rw [machine, hr]
      refine readable_machine hmachine hstart (readable_states.mpr
        ⟨Entries.distinct_ofPairs _, fun entry hentry => ?_⟩)
      exact hlowered entry (Entries.mem_of_mem_ofPairs hentry)

theorem readable_lowered_machines (hr : r.rename = id) (hs : r.settings = .production)
    (path : String) (n : Nat) : (ms : List Machine) → (∀ m ∈ ms, Readable mark m.toJson) →
    NamesPlain r.settings (branchScopes path n ms) →
      ∀ m ∈ r.machines ms, Readable mark m.toJson
  | [] => by simp [machines]
  | m :: rest => by
      intro hown hscopes
      rw [List.forall_mem_cons] at hown
      rw [branchScopes, NamesPlain, List.forall_mem_append] at hscopes
      rw [machines, List.forall_mem_cons]
      exact ⟨readable_lowered_machine hr hs _ m hown.1 hscopes.1,
        readable_lowered_machines hr hs path (n + 1) rest hown.2 hscopes.2⟩

theorem readable_lowered_each (hr : r.rename = id) (hs : r.settings = .production)
    (ctx : Context) (path : String) : (own : List (String × State)) →
    (∀ entry ∈ own, Readable mark entry.2.toJson) →
    (∀ n ∈ namesWithHelpers r.settings own, ¬ Wraps mark n.toList) →
    NamesPlain r.settings (nestedScopes path own) →
      ∀ out ∈ r.each ctx own, ¬ Wraps mark out.1.toList ∧ Readable mark out.2.toJson
  | [] => by simp
  | (name, s) :: rest => by
      intro hown hnames hscopes
      rw [List.forall_mem_cons] at hown
      rw [nestedScopes, NamesPlain, List.forall_mem_append] at hscopes
      rw [namesWithHelpers_cons, List.forall_mem_append] at hnames
      rw [each_cons, List.forall_mem_append]
      refine ⟨readable_lowered_state hr hs ctx _ name s hown.1 ?_ hscopes.1,
        readable_lowered_each hr hs ctx path rest hown.2 hnames.2 hscopes.2⟩
      simpa using hnames.1

end

end StateFlow.Lowering.Scheme
