import StateFlow.Proofs.CompiledShape
import StateFlow.Proofs.LoweredText
import StateFlow.Proofs.TextCost
import StateFlow.Proofs.UniqueNames

/-!
# Definitions that read back

A playbook in which the literal marker occurs nowhere compiles to a definition in which only the
names of states can be taken for wrappers, since merge helpers get theirs in lower case.  The text
of the definition reads back as the definition exactly if no name is (`compile_reads_back_iff`).  In
one direction the literal pass then finds nothing to unwrap; in the other it takes away a
parenthesis that the reader would miss (`not_wrapped_of_parse`).
-/

namespace StateFlow.Literal

open StateFlow.Json StateFlow.Playbook StateFlow.Lowering

variable {marker : String}

/-! ## Unwrapped text -/

theorem textCost_opening (marker : String) : 0 < textCost (opening marker) :=
  List.countP_pos_iff.mpr ⟨'(', by simp [opening], rfl⟩

/-- Unwrapping takes away the costly characters of the opening. -/
theorem textCost_unwrapped {inner : List Char} {c : Char} {rest : List Char}
    (hwrapper : wrapper marker inner <+: c :: rest) :
    textCost inner + textCost (rest.drop ((opening marker).length + inner.length + 1)) <
      textCost (c :: rest) := by
  obtain ⟨after, heq⟩ := hwrapper
  have hlength :
      (wrapper marker inner).length = (opening marker).length + inner.length + 1 + 1 := by
    simp [wrapper, Nat.add_assoc]
  have hafter : rest.drop ((opening marker).length + inner.length + 1) = after := by
    rw [← List.drop_succ_cons (a := c), ← hlength, ← heq, List.drop_left]
  have hopening := textCost_opening marker
  rw [hafter, ← heq, wrapper, textCost_append, textCost_append, textCost_append]
  omega

theorem textCost_stripFrom_le (marker : String) (skip : Nat) (text : List Char) :
    textCost (stripFrom (opening marker) skip text) ≤ textCost (text.drop skip) := by
  fun_induction stripFrom (opening marker) skip text with
  | case1 => simp
  | case2 skip c rest ih => exact ih
  | case3 c rest inner hwrapped ih =>
      have hless := textCost_unwrapped (wrapped?_eq_some hwrapped).2
      rw [textCost_append, List.drop_zero]
      omega
  | case4 c rest hnone ih =>
      rw [List.drop_zero] at ih ⊢
      rw [textCost_cons, textCost_cons c rest]
      omega

theorem textCost_strip_lt {text : List Char} (hwrapper : HasWrapper marker text) :
    textCost (strip marker text) < textCost text := by
  unfold strip
  induction text with
  | nil =>
      obtain ⟨inner, -, hwithin⟩ := hwrapper
      have hnil := List.infix_nil.mp hwithin
      simp [wrapper] at hnil
  | cons c rest ih =>
      rw [stripFrom]
      split
      · next inner hwrapped =>
          have hless := textCost_unwrapped (wrapped?_eq_some hwrapped).2
          have hrest := textCost_stripFrom_le marker
            ((opening marker).length + inner.length + 1) rest
          rw [textCost_append]
          omega
      · next hnone =>
          rcases hasWrapper_cons.mp hwrapper with ⟨inner, hline, hprefix⟩ | hrest
          · exact absurd hprefix (wrapped?_eq_none hnone hline)
          · rw [textCost_cons, textCost_cons c rest]
            exact Nat.add_lt_add_left (ih hrest) _

/-- Where a value reads back, the literal pass took nothing in it for a wrapper. -/
theorem not_wrapped_of_parse (hplain : Plain marker) {unit : Nat} {v : Json}
    (hparse : parse (String.ofList (strip marker (v.pretty unit))) = .ok v) :
    ¬ Wrapped marker v := by
  rw [← strip_pretty_eq_self_iff hplain unit v, strip_eq_self_iff]
  intro hwrapper
  have hcost := cost_le_of_parse hparse
  rw [String.toList_ofList, ← textCost_prettyAt unit 0 v] at hcost
  exact Nat.not_le_of_lt (textCost_strip_lt hwrapper) hcost

/-! ## Names of states -/

theorem not_wrapped_obj {members : Entries Json} (hnone : ¬ Wrapped marker (.obj members)) :
    ∀ entry ∈ members, ¬ Wraps marker entry.1.toList ∧ ¬ Wrapped marker entry.2 := by
  intro entry hentry
  rw [Wrapped, wrappedMembers_iff] at hnone
  exact ⟨fun hname => hnone ⟨entry, hentry, Or.inl hname⟩,
    fun hvalue => hnone ⟨entry, hentry, Or.inr (Or.inr hvalue)⟩⟩

theorem not_wrapped_arr {items : List Json} (hnone : ¬ Wrapped marker (.arr items)) :
    ∀ item ∈ items, ¬ Wrapped marker item := by
  rw [Wrapped] at hnone
  induction items with
  | nil => simp
  | cons item items ih =>
      rw [WrappedItems, not_or] at hnone
      exact List.forall_mem_cons.mpr ⟨hnone.1, ih hnone.2⟩

def PlainScope (marker : String) (scope : Scope) : Prop :=
  ∀ name ∈ Entries.keys scope.states, ¬ Wraps marker name.toList

theorem keys_of_not_wrapped {own : Entries State} (hnone : ¬ Wrapped marker (statesToJson own)) :
    (∀ name ∈ Entries.keys own, ¬ Wraps marker name.toList) ∧
      ∀ entry ∈ own, ¬ Wrapped marker entry.2.toJson := by
  rw [statesToJson, namedToJson_eq] at hnone
  have hmembers := not_wrapped_obj hnone
  rw [Entries.mapValues, List.forall_mem_map] at hmembers
  refine ⟨fun name hname => ?_, fun entry hentry => (hmembers entry hentry).2⟩
  obtain ⟨entry, hentry, rfl⟩ := List.mem_map.mp hname
  exact (hmembers entry hentry).1

mutual

theorem plainScope_machine (path : String) : (m : Machine) → ¬ Wrapped marker m.toJson →
    ∀ scope ∈ Machine.scopes path m, PlainScope marker scope
  | ⟨comment, startAt, own, extra⟩ => by
      intro hnone
      rw [Machine.toJson, machineObject] at hnone
      have hstates := (not_wrapped_obj hnone ("States", statesToJson own)
        (by simp [statesToJson])).2
      obtain ⟨hnames, hown⟩ := keys_of_not_wrapped hstates
      rw [Machine.scopes, List.forall_mem_cons]
      exact ⟨hnames, plainScope_nested path own hown⟩

theorem plainScope_branches (path : String) (n : Nat) : (ms : List Machine) →
    (∀ m ∈ ms, ¬ Wrapped marker m.toJson) →
      ∀ scope ∈ branchScopes path n ms, PlainScope marker scope
  | [] => by simp [branchScopes]
  | m :: rest => by
      intro hnone
      rw [List.forall_mem_cons] at hnone
      rw [branchScopes, List.forall_mem_append]
      exact ⟨plainScope_machine _ m hnone.1, plainScope_branches path (n + 1) rest hnone.2⟩

theorem plainScope_state (path : String) : (st : State) → ¬ Wrapped marker st.toJson →
    ∀ scope ∈ State.scopes path st, PlainScope marker scope
  | .pass _ | .succeed _ | .fail _ | .wait _ | .task _ | .interaction _ | .choice _ => by
      simp [State.scopes]
  | .parallel p branches => by
      intro hnone
      have hbranches := (not_wrapped_obj hnone _ (List.mem_cons_of_mem _
        (p.branches_mem (.arr (Machine.listToJson branches))))).2
      have hitems := not_wrapped_arr hbranches
      rw [listToJson_eq, List.forall_mem_map] at hitems
      rw [State.scopes]
      exact plainScope_branches path 0 branches hitems
  | .map m iterator => by
      intro hnone
      have hiterator := (not_wrapped_obj hnone _ (List.mem_cons_of_mem _
        (m.iterator_mem iterator.toJson))).2
      rw [State.scopes]
      exact plainScope_machine _ iterator hiterator

theorem plainScope_nested (path : String) : (own : List (String × State)) →
    (∀ entry ∈ own, ¬ Wrapped marker entry.2.toJson) →
      ∀ scope ∈ nestedScopes path own, PlainScope marker scope
  | [] => by simp [nestedScopes]
  | (name, s) :: rest => by
      intro hnone
      rw [List.forall_mem_cons] at hnone
      rw [nestedScopes, List.forall_mem_append]
      exact ⟨plainScope_state _ s hnone.1, plainScope_nested path rest hnone.2⟩

end

theorem plainScope_definition {c : Definition} (hnone : ¬ Wrapped marker c.toJson) :
    ∀ scope ∈ c.scopes, PlainScope marker scope := by
  have hstates := (not_wrapped_obj hnone ("States", statesToJson c.states) (by simp)).2
  obtain ⟨hnames, hown⟩ := keys_of_not_wrapped hstates
  exact List.forall_mem_cons.mpr ⟨hnames, plainScope_nested "/States" c.states hown⟩

/-! ## Bootstrap states -/

theorem readable_isPresent {place : String} (hplace : place ∈ writtenTexts) (present : Bool) :
    Readable mark (Bootstrap.isPresent place present) := by
  refine readable_obj.mpr ⟨by simp [Entries.Distinct], ?_⟩
  rw [List.forall_mem_cons, List.forall_mem_singleton]
  exact ⟨fine_written (by decide) (readable_written hplace),
    fine_written (by decide) (consists_bool present)⟩

theorem readable_contextRule {bags : Bool} {next : String} (hnext : ¬ Wraps mark next.toList) :
    Readable mark (Bootstrap.contextRule bags next).toJson := by
  refine readable_obj.mpr ⟨by simp [Entries.Distinct, Bootstrap.contextRule], ?_⟩
  simp only [Bootstrap.contextRule, List.cons_append, List.nil_append, List.forall_mem_cons,
    List.not_mem_nil, false_imp_iff, implies_true, and_true]
  refine ⟨fine_written (by decide) (consists_arr.mpr ?_), fine_written (by decide) hnext⟩
  simp only [List.forall_mem_cons, List.not_mem_nil, false_imp_iff, implies_true, and_true]
  exact ⟨readable_isPresent (by decide) _, readable_isPresent (by decide) _,
    readable_isPresent (by decide) _, readable_isPresent (by decide) _⟩

theorem not_wraps_label {label : String} (hlabel : label ∈ Settings.production.reservedNames) :
    ¬ Wraps mark label.toList :=
  readable_written (by simp [writtenTexts, hlabel])

theorem readable_invocationCheck {start : String} (hstart : ¬ Wraps mark start.toList) :
    Readable mark (State.choice (Bootstrap.invocationCheck .production start)).toJson := by
  refine readable_state.mpr ?_
  change ∀ entry ∈ [("Choices", Json.ofList ChoiceRule.toJson [_, _]), ("Default", Json.str _)], _
  rw [List.forall_mem_cons, List.forall_mem_singleton]
  refine ⟨fine_written (by decide) (readable_list.mpr ?_),
    fine_written (by decide) (readable_written (by decide))⟩
  rw [List.forall_mem_cons, List.forall_mem_singleton]
  exact ⟨readable_contextRule (not_wraps_label (by decide)), readable_contextRule hstart⟩

theorem readable_stateSetup :
    Readable mark (State.task (Bootstrap.stateSetup .production)).toJson := by
  refine readable_state.mpr ?_
  change ∀ entry ∈ [("Resource", Json.str _), ("Parameters", Json.obj _), ("Next", Json.str _)], _
  simp only [List.forall_mem_cons, List.not_mem_nil, false_imp_iff, implies_true, and_true]
  refine ⟨fine_written (by decide) (readable_written (by decide)),
    fine_written (by decide) (readable_obj.mpr ⟨by simp [Entries.Distinct], ?_⟩),
    fine_written (by decide) (readable_written (by decide))⟩
  simp only [List.forall_mem_cons, List.not_mem_nil, false_imp_iff, implies_true, and_true]
  exact ⟨fine_written (by decide) (readable_written (by decide)),
    fine_written (by decide) (readable_written (by decide)),
    fine_written (by decide) (readable_written (by decide))⟩

theorem readable_inputFormatter {start : String} (hstart : ¬ Wraps mark start.toList) :
    Readable mark (State.pass (Bootstrap.inputFormatter start)).toJson := by
  have hempty : Readable mark (.obj []) := readable_obj.mpr ⟨by simp [Entries.Distinct], by simp⟩
  refine readable_state.mpr ?_
  change ∀ entry ∈ [("Parameters", Json.obj _), ("Next", Json.str start)], _
  rw [List.forall_mem_cons, List.forall_mem_singleton]
  refine ⟨fine_written (by decide) (readable_obj.mpr ⟨by simp [Entries.Distinct], ?_⟩),
    fine_written (by decide) hstart⟩
  simp only [List.forall_mem_cons, List.not_mem_nil, false_imp_iff, implies_true, and_true]
  exact ⟨fine_written (by decide) (readable_written (by decide)),
    fine_written (by decide) (readable_written (by decide)),
    fine_written (by decide) hempty, fine_written (by decide) hempty⟩

/-- The bootstrap states are readable if the name of the playbook's start is. -/
theorem readable_bootstrap {start : String} (hstart : ¬ Wraps mark start.toList) :
    ∀ entry ∈ Bootstrap.states .production start,
      ¬ Wraps mark entry.1.toList ∧ Readable mark entry.2.toJson := by
  intro entry hentry
  have hpairs := Entries.mem_of_mem_ofPairs hentry
  simp only [List.mem_cons, List.not_mem_nil, or_false] at hpairs
  rcases hpairs with rfl | rfl | rfl
  · exact ⟨not_wraps_label (by simp [Settings.reservedNames]), readable_invocationCheck hstart⟩
  · exact ⟨not_wraps_label (by simp [Settings.reservedNames]), readable_stateSetup⟩
  · exact ⟨not_wraps_label (by simp [Settings.reservedNames]), readable_inputFormatter hstart⟩

/-! ## Documents -/

theorem unmarked_member {members : Entries Json} (hunmarked : Unmarked marker (.obj members))
    {key : String} {v : Json} (hv : Entries.get? members key = some v) : Unmarked marker v :=
  ((consists_obj.mp hunmarked).2 (key, v) (Entries.mem_of_get? hv)).2

theorem not_wraps_text {members : Entries Json} (hunmarked : Unmarked mark (.obj members))
    {key text : String} (hread : MustRead members key readString text) :
    ¬ Wraps mark text.toList := by
  obtain ⟨v, hv, hstring⟩ := hread
  rw [readString_eq_ok hstring] at hv
  exact (unmarked_member hunmarked hv).readable

variable {members : Entries Json} {d : Document}

theorem readable_own (hunmarked : Unmarked mark (.obj members))
    (hshape : Schema.Accepts (Shape.state mark) Shape.playbook (.obj members))
    (hfrom : d.ReadFrom members) : ∀ entry ∈ d.states, Readable mark entry.2.toJson := by
  obtain ⟨v, hv, hread⟩ := hfrom.states
  have haccepts : Shape.states.Accepts (Shape.state mark) v :=
    accepts_member (closed_of_playbook hshape) hv rfl
  have hkept := ((rereads mark v).states d.states hread haccepts).kept
  have hstates := ((unmarked_member hunmarked hv).kept hkept).readable
  exact fun entry hentry => ((readable_states.mp hstates).2 entry hentry).2

theorem readable_handler (hunmarked : Unmarked mark (.obj members))
    (hshape : Schema.Accepts (Shape.state mark) Shape.playbook (.obj members))
    (hfrom : d.ReadFrom members) {handler : State} (hsome : d.failureHandler? = some handler)
    (hkind : handler.kind = .task ∨ handler.kind = .parallel) : Readable mark handler.toJson := by
  obtain ⟨decorators, value, hdecorators, hvalue, hread⟩ := hfrom.handler hsome
  have haccepts : Shape.decorators.Accepts (Shape.state mark) (.obj decorators) :=
    accepts_member (closed_of_playbook hshape) hdecorators rfl
  rw [Shape.decorators, accepts_inner, List.forall_mem_cons, List.forall_mem_singleton] at haccepts
  have hhandler : Schema.Inner.Accepts (Shape.state mark) (.schema Shape.handler) value :=
    accepts_member haccepts.2 hvalue rfl
  have hmember := unmarked_member (unmarked_member hunmarked hdecorators) hvalue
  have hkept := (rewritten_handler hread (hkind.imp_right Or.inr) hhandler).kept
  exact (hmember.kept hkept).readable

/-- A handler stays readable when its exit is replaced. -/
theorem readable_rewired {handler rewired : State}
    (hrewired : rewireHandler .production handler = .ok rewired)
    (hhandler : Readable mark handler.toJson) : Readable mark rewired.toJson := by
  have hexit : ∀ entry ∈ (toFinal .production).entries, Fine entry := by
    change ∀ entry ∈ [("Next", Json.str _)], _
    exact List.forall_mem_singleton.mpr
      (fine_written (by decide) (readable_written (by decide)))
  rw [readable_state] at hhandler ⊢
  obtain ⟨t, rfl, rfl⟩ | ⟨p, branches, rfl, rfl⟩ := rewireHandler_eq_ok hrewired
  · simp only [State.entries, Task.entries, List.forall_mem_append] at hhandler ⊢
    exact ⟨hhandler.1, hexit⟩
  · simp only [State.entries, Parallel.entries, List.forall_mem_append] at hhandler ⊢
    exact ⟨hhandler.1, hexit⟩

/-- Decorators add readable states only. -/
theorem readable_expanded (hunmarked : Unmarked mark (.obj members))
    (hshape : Schema.Accepts (Shape.state mark) Shape.playbook (.obj members))
    (hfrom : d.ReadFrom members) {x : Expanded} (hexpand : expand .production d = .ok x) :
    ∀ entry ∈ x.states, Readable mark entry.2.toJson := by
  intro entry hentry
  rcases mem_of_expand hexpand hentry with hown | ⟨handler, rewired, hsome, hrewired, hadded⟩
  · exact readable_own hunmarked hshape hfrom entry hown
  · simp only [failureEntries, List.mem_cons, List.not_mem_nil, or_false] at hadded
    rcases hadded with rfl | rfl | rfl
    · refine readable_state.mpr ?_
      change ∀ entry ∈ [("Next", Json.str _)], _
      exact List.forall_mem_singleton.mpr (fine_written (by decide) (not_wraps_label (by decide)))
    · have hkind : handler.kind = .task ∨ handler.kind = .parallel := by
        obtain ⟨t, rfl, -⟩ | ⟨p, branches, rfl, -⟩ := rewireHandler_eq_ok hrewired
        · exact Or.inl rfl
        · exact Or.inr rfl
      exact readable_rewired hrewired (readable_handler hunmarked hshape hfrom hsome hkind)
    · refine readable_state.mpr ?_
      change ∀ entry ∈ [], _
      simp

/-! ## Definitions -/

theorem distinct_definition {c : Definition}
    (hextra : c.extra = others Document.knownMembers members)
    (hdistinct : Entries.Distinct members) :
    Entries.Distinct (c.extra ++ [("Comment", .str c.comment), ("StartAt", .str c.startAt),
      ("States", statesToJson c.states)]) := by
  rw [Entries.Distinct, Entries.keys_append, hextra, keys_others, List.nodup_append']
  refine ⟨hdistinct.filter _, by simp, fun name hname hknown => ?_⟩
  have hother : name ∉ Document.knownMembers := by simpa using (List.mem_filter.mp hname).2
  refine hother ?_
  simp only [Entries.keys_cons, Entries.keys_nil, List.mem_cons, List.not_mem_nil, or_false]
    at hknown
  rcases hknown with rfl | rfl | rfl <;> decide

/-- The members of a definition are readable if its states and their names are. -/
theorem readable_definition {c : Definition} (hunmarked : Unmarked mark (.obj members))
    (hextra : c.extra = others Document.knownMembers members)
    (hcomment : ¬ Wraps mark c.comment.toList) (hstart : ¬ Wraps mark c.startAt.toList)
    (hstates : Readable mark (statesToJson c.states)) : Readable mark c.toJson := by
  refine readable_obj.mpr ⟨distinct_definition hextra (consists_obj.mp hunmarked).1,
    List.forall_mem_append.mpr ⟨fun entry hentry => ?_, ?_⟩⟩
  · rw [hextra] at hentry
    exact fine_of_unmarked hunmarked entry (mem_others.mp hentry).1
  · simp only [List.forall_mem_cons, List.not_mem_nil, false_imp_iff, implies_true, and_true]
    exact ⟨fine_written (by decide) hcomment, fine_written (by decide) hstart,
      fine_written (by decide) hstates⟩

end StateFlow.Literal

namespace StateFlow

open StateFlow.Json StateFlow.Playbook StateFlow.Lowering StateFlow.Literal

/-- Names that are plain in the compiled scopes were plain before lowering, helpers included. -/
theorem namesPlain_of_compiled {d : Document} {x : Expanded} (hwell : WellFormed .production d)
    (hexpand : expand .production d = .ok x)
    (hplain : ∀ scope ∈ (Definition.assemble .production d (Scheme.states
      { settings := .production } x.context x.states)).scopes, PlainScope mark scope) :
    (∀ name ∈ namesWithHelpers .production x.states, ¬ Wraps mark name.toList) ∧
      Scheme.NamesPlain .production (nestedScopes "/States" x.states) := by
  rw [Definition.scopes, scopesOf, List.forall_mem_cons,
    nestedScopes_assemble production_labelsApart hwell hexpand, List.forall_mem_map] at hplain
  constructor
  · intro name hname
    refine hplain.1 name (Entries.mem_keys_extend.mpr (Or.inr ?_))
    rwa [Scheme.states, Entries.mem_keys_ofPairs, Scheme.keys_each]
  · intro scope hscope name hname
    refine hplain.2 scope hscope name ?_
    rwa [Scheme.scope, Entries.mem_keys_ofPairs, Scheme.keys_each]

/-- What a playbook without the literal marker compiles to is readable, unless the name of a state
is taken for a wrapper. -/
theorem readable_compiled {options : Options} {v : Json} {c : Compiled}
    (hok : compile .production options v = .ok c) (hunmarked : Unmarked mark v)
    (hplain : ∀ scope ∈ c.definition.scopes, PlainScope mark scope) :
    Readable mark c.definition.toJson := by
  obtain ⟨d, x, hcheck, hexpand, rfl⟩ := compile_eq_assemble hok
  obtain ⟨hfindings, hread, hwell⟩ := checkDocument_eq_ok hcheck
  obtain ⟨members, rfl, hfrom⟩ := Document.ofJson_eq_ok hread
  have hshape := accepts_of_shapeFindings hfindings
  obtain ⟨hnames, hnested⟩ := namesPlain_of_compiled hwell hexpand hplain
  have hlowered := Scheme.readable_lowered_each (r := { settings := .production }) rfl rfl x.context
    "/States" x.states (readable_expanded hunmarked hshape hfrom hexpand) hnames hnested
  have hstates : Readable mark (statesToJson (assemble .production options d
      (Scheme.states { settings := .production } x.context x.states)).definition.states) := by
    refine readable_states.mpr
      ⟨Entries.distinct_extend _ (Entries.distinct_ofPairs _), fun entry hentry => ?_⟩
    rcases Entries.mem_of_mem_extend hentry with hboot | hmem
    · exact readable_bootstrap (not_wraps_text hunmarked hfrom.startAt) entry hboot
    · exact hlowered entry (Entries.mem_of_mem_ofPairs hmem)
  exact readable_definition hunmarked hfrom.extra (not_wraps_text hunmarked hfrom.comment)
    (not_wraps_label (by simp [assemble, Definition.assemble, Settings.reservedNames])) hstates

/-- Names are plain in a definition whose text reads back. -/
theorem plainScope_of_reads_back {d : Definition}
    (hparse : Json.parse (d.text .production) = .ok d.toJson) :
    ∀ scope ∈ d.scopes, PlainScope mark scope :=
  plainScope_definition (not_wrapped_of_parse production_plain hparse)

/-- The text of a compiled playbook, in which the literal marker occurred nowhere and all numbers
were integers, reads back as the definition exactly if no state at any depth has a name that the
literal pass takes for a wrapper. -/
theorem compile_reads_back_iff (options : Options) (v : Json) (c : Compiled)
    (hok : compile .production options v = .ok c) (hwell : v.WellFormed)
    (hmarker : ∀ text ∈ v.allTexts, ¬ Settings.production.literalMarker.toList <:+: text.toList)
    (hints : ∀ x, .float x ∉ v.numbers) (hdepth : c.definition.toJson.depth ≤ 127) :
    Json.parse c.text = .ok c.definition.toJson ↔
      ∀ scope ∈ c.definition.scopes, ∀ name ∈ Entries.keys scope.states,
        ¬ Wraps Settings.production.literalMarker name.toList := by
  rw [compile_text hok]
  refine ⟨plainScope_of_reads_back, fun hplain => ?_⟩
  have hunmarked : Unmarked mark v := consists_of_allTexts v hwell hints hmarker
  exact parse_strip_of_readable production_plain 4 (readable_compiled hok hunmarked hplain) hdepth

theorem wellFormed_handledFan (name inside : String) : (handledFan name inside).WellFormed := by
  simp [handledFan, Json.WellFormed, Json.WellFormedMembers, Json.WellFormedItems,
    Entries.Distinct]

theorem compile_reads_back_handledFan :
    ∃ c, compile .production {} (handledFan "Split" "Left") = .ok c ∧
      Json.parse c.text = .ok c.definition.toJson := by
  have hfacts : ((compile .production {} (handledFan "Split" "Left")).map fun c =>
      (decide (c.definition.toJson.depth ≤ 127), c.definition.scopes.all fun scope =>
        (Entries.keys scope.states).all fun name =>
          !decide (Settings.production.literalMarker.toList <:+: name.toList))).toOption =
      some (true, true) := by decide +kernel
  cases hc : compile .production {} (handledFan "Split" "Left") with
  | error e => simp [hc, Except.map, Except.toOption] at hfacts
  | ok c =>
      simp only [hc, Except.map, Except.toOption, Option.some.injEq, Prod.mk.injEq,
        decide_eq_true_eq, List.all_eq_true, Bool.not_eq_true', decide_eq_false_iff_not] at hfacts
      obtain ⟨hdepth, hnames⟩ := hfacts
      refine ⟨c, rfl, (compile_reads_back_iff {} _ c hc (wellFormed_handledFan _ _)
        (by decide +kernel) (fun x => List.not_mem_nil) hdepth).mpr ?_⟩
      exact fun scope hscope name hname => not_wraps_of_unmarked (hnames scope hscope name hname)

/-- The merge helper of a Parallel may have a name with the marker in it, though the marker occurs
nowhere in the playbook.  Its text is unwrapped and does not read back. -/
theorem helper_name_unwrapped :
    let v := handledFan "X\"APB_RENDER_NONSTRING_VALUE(1)" "Left"
    v.WellFormed ∧
      (∀ text ∈ v.allTexts, ¬ Settings.production.literalMarker.toList <:+: text.toList) ∧
      (∀ x, .float x ∉ v.numbers) ∧
      ∃ c, compile .production {} v = .ok c ∧ c.definition.toJson.depth ≤ 127 ∧
        Json.parse c.text ≠ .ok c.definition.toJson := by
  intro v
  let helper := "merge_x\"apb_render_nonstring_value(1)"
  have hfacts : ((compile .production {} v).map fun c =>
      (decide (c.definition.toJson.depth ≤ 127),
        decide (helper ∈ Entries.keys c.definition.states))).toOption = some (true, true) := by
    decide +kernel
  cases hc : compile .production {} v with
  | error e => simp [hc, Except.map, Except.toOption] at hfacts
  | ok c =>
      simp only [hc, Except.map, Except.toOption, Option.some.injEq, Prod.mk.injEq,
        decide_eq_true_eq] at hfacts
      obtain ⟨hdepth, hhelper⟩ := hfacts
      refine ⟨wellFormed_handledFan _ _, by decide +kernel, fun x => List.not_mem_nil,
        c, rfl, hdepth, fun hparse => ?_⟩
      rw [compile_text hc] at hparse
      have hplain := plainScope_of_reads_back hparse _ List.mem_cons_self helper hhelper
      exact hplain ⟨['1'], '"' :: "merge_x".toList, by decide +kernel⟩

end StateFlow
