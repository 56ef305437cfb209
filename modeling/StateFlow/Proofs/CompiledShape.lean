import StateFlow.Proofs.CompiledNames
import StateFlow.Proofs.LoweredShape

/-!
# The shape of what playbooks compile to

A playbook without a failure handler compiles to a machine that is of the right shape again, so that
it could stand inside another playbook (`compile_shaped`).  The states of the document have their
shape because nothing is lost when they are read, lowering keeps it, and the bootstrap states have
it.
-/

namespace StateFlow

open StateFlow.Schema StateFlow.Json StateFlow.Playbook StateFlow.Lowering

/-! ## Settings and bootstrap states -/

variable {target : Schema}

theorem accepts_stateName_of_head? {text : String} {c : Char}
    (hhead : text.toList.head? = some c) (hc : (Pattern.isAlphanumeric c || c = '_') = true) :
    Pattern.stateName.accepts text = true := by
  cases htext : text.toList with
  | nil => simp [htext] at hhead
  | cons d rest =>
      rw [htext, List.head?_cons, Option.some.injEq] at hhead
      rw [Pattern.accepts, htext, hhead]
      exact hc

theorem production_shaped : Settings.production.Shaped target where
  retry errors hsome := by
    rw [Shape.retrier, accepts_inner]
    simp only [List.forall_mem_cons, List.not_mem_nil, false_imp_iff, implies_true, and_true]
    refine ⟨rfl, rfl, accepts_closed.mpr ?_⟩
    simp only [optionalEntry, Settings.production, List.cons_append, List.nil_append,
      List.forall_mem_cons, List.not_mem_nil, false_imp_iff, implies_true, and_true]
    refine ⟨⟨_, rfl, ?_⟩, ⟨_, rfl, rfl⟩, ⟨_, rfl, rfl⟩, _, rfl, rfl⟩
    rw [Shape.errorEquals, accepts_inner]
    simpa [texts, Json.ofList, TypeName.accepts, Shape.accepts_text, Nat.one_le_iff_ne_zero]
      using hsome
  errors := by decide
  helpers name := accepts_stateName_of_head? (head?_mergeHelperName name) (by decide)

theorem accepts_isPresent (place : String) (present : Bool) :
    Accepts target Shape.dataTest (Bootstrap.isPresent place present) := by
  rw [Shape.dataTest, accepts_all, Bootstrap.isPresent]
  simp only [List.forall_mem_cons, List.not_mem_nil, false_imp_iff, implies_true, and_true]
  refine ⟨rfl, rfl, accepts_closed.mpr ?_, Shape.accepts_exactlyOne.mpr ?_⟩
  · simp only [List.forall_mem_cons, List.not_mem_nil, false_imp_iff, implies_true, and_true]
    exact ⟨⟨_, rfl, rfl⟩, _, rfl, rfl⟩
  · change List.countP (fun name => name ∈ ["Variable", "IsPresent"]) _ = 1
    decide +kernel

theorem accepts_contextRule {bags : Bool} {next : String}
    (hnext : Pattern.stateName.accepts next = true) :
    Accepts target Shape.booleanExpression (Bootstrap.contextRule bags next).toJson := by
  rw [Shape.booleanExpression, accepts_all, ChoiceRule.toJson, Bootstrap.contextRule]
  simp only [List.forall_mem_cons, List.not_mem_nil, false_imp_iff, implies_true, and_true]
  refine ⟨rfl, rfl, accepts_closed.mpr ?_, rfl⟩
  simp only [List.cons_append, List.nil_append, List.forall_mem_cons, List.not_mem_nil,
    false_imp_iff, implies_true, and_true]
  refine ⟨⟨_, rfl, ?_⟩, _, rfl, Shape.accepts_stateName.mpr hnext⟩
  rw [Shape.nestedTests, accepts_inner]
  simp [TypeName.accepts, Inner.Accepts, Inner.resolve, accepts_isPresent]

theorem production_labels :
    ∀ name ∈ Settings.production.reservedNames, Pattern.stateName.accepts name = true := by
  decide

theorem accepts_invocationCheck {start : String} (hstart : Pattern.stateName.accepts start = true) :
    Accepts target Shape.choice (.obj (("Type", .str Kind.choice.name) ::
      (Bootstrap.invocationCheck .production start).entries)) := by
  refine (Shape.accepts_kindObject_cons (by simp [Choice.entries])).mpr
    ⟨Shape.accepts_isKind.mpr rfl, ?_, by simp⟩
  change ∀ entry ∈ [("Choices", Json.ofList ChoiceRule.toJson _), ("Default", Json.str _)], _
  rw [List.forall_mem_cons, List.forall_mem_singleton]
  refine ⟨⟨_, rfl, ?_⟩, _, rfl, Shape.accepts_stateName.mpr (production_labels _ (by decide))⟩
  rw [accepts_inner, Json.ofList]
  simp [TypeName.accepts, Inner.Accepts, Inner.resolve, Bootstrap.invocationCheck,
    accepts_contextRule hstart, accepts_contextRule (production_labels _
      (by decide : Settings.production.bootstrap.inputFormatter ∈ _))]

theorem accepts_stateSetup :
    Accepts target (Shape.task .required) (.obj (("Type", .str Kind.task.name) ::
      (Bootstrap.stateSetup .production).entries)) := by
  refine Shape.accepts_task.mpr ⟨Or.inl rfl, ?_, by simp [Bootstrap.stateSetup, Exit.Decided]⟩
  change ∀ entry ∈ [("Resource", Json.str _), ("Parameters", Json.obj _), ("Next", Json.str _)], _
  rw [List.forall_mem_cons, List.forall_mem_cons, List.forall_mem_singleton]
  exact ⟨⟨_, rfl, Shape.accepts_text⟩, ⟨_, rfl, Shape.accepts_anyObject⟩,
    _, rfl, Shape.accepts_stateName.mpr (production_labels _ (by decide))⟩

theorem accepts_inputFormatter {start : String} (hstart : Pattern.stateName.accepts start = true) :
    Accepts target Shape.pass (.obj (("Type", .str Kind.pass.name) ::
      (Bootstrap.inputFormatter start).entries)) := by
  refine Shape.accepts_pass.mpr ⟨rfl, ?_, by simp [Bootstrap.inputFormatter, Exit.Decided]⟩
  change ∀ entry ∈ [("Parameters", Json.obj _), ("Next", Json.str start)], _
  rw [List.forall_mem_cons, List.forall_mem_singleton]
  exact ⟨⟨_, rfl, Shape.accepts_anyObject⟩, _, rfl, Shape.accepts_stateName.mpr hstart⟩

/-- The bootstrap states have the right shape if the playbook's start has a state's name. -/
theorem shaped_bootstrap {marker start : String} (hstart : Pattern.stateName.accepts start = true) :
    ∀ entry ∈ Bootstrap.states .production start, Shape.Shaped (Shape.state marker) entry := by
  intro entry hentry
  have hpairs := Entries.mem_of_mem_ofPairs hentry
  simp only [List.mem_cons, List.not_mem_nil, or_false] at hpairs
  rcases hpairs with rfl | rfl | rfl
  · exact ⟨production_labels _ (by simp [Settings.reservedNames]),
      Shape.accepts_toJson.mpr (accepts_invocationCheck hstart)⟩
  · exact ⟨production_labels _ (by simp [Settings.reservedNames]),
      Shape.accepts_toJson.mpr accepts_stateSetup⟩
  · exact ⟨production_labels _ (by simp [Settings.reservedNames]),
      Shape.accepts_toJson.mpr (accepts_inputFormatter hstart)⟩

/-! ## Documents -/

theorem accepts_of_shapeFindings {s : Settings} {v : Json} (hfindings : shapeFindings s v = []) :
    Accepts (Shape.state s.literalMarker) Shape.playbook v :=
  check_eq_nil.mp (List.map_eq_nil_iff.mp hfindings)

theorem closed_of_playbook {members : Entries Json}
    (hshape : Accepts target Shape.playbook (.obj members)) :
    Accepts target (.closed (Shape.knownMembers Shape.playbook)) (.obj members) := by
  rw [Shape.playbook, accepts_all] at hshape
  exact hshape _ (by simp [Shape.knownMembers, Shape.playbook])

/-- A playbook carries along only members that a machine may have too. -/
theorem fits_extra {members : Entries Json}
    (hshape : Accepts target Shape.playbook (.obj members)) :
    ∀ entry ∈ others Document.knownMembers members,
      Shape.Fits target (Shape.machine.resolve target) entry := by
  intro entry hentry
  obtain ⟨hmem, hother⟩ := mem_others.mp hentry
  obtain ⟨inner, hinner, haccepts⟩ := accepts_closed.mp (closed_of_playbook hshape) entry hmem
  -- Without the members that a document gives a meaning to, both know the same ones.
  have hknown : (!Document.knownMembers.contains entry.1) = true := by simpa using hother
  refine ⟨inner, ?_, haccepts⟩
  rw [← Entries.get?_filterKeys (fun key => !Document.knownMembers.contains key) hknown]
    at hinner ⊢
  exact hinner

/-- What a document is compiled from has the right shape. -/
theorem shaped_document {marker : String} {members : Entries Json} {d : Document}
    (hshape : Accepts (Shape.state marker) Shape.playbook (.obj members))
    (hfrom : d.ReadFrom members) :
    Pattern.stateName.accepts d.startAt = true ∧
      ∀ entry ∈ d.states, Shape.Shaped (Shape.state marker) entry := by
  have hclosed := closed_of_playbook hshape
  constructor
  · obtain ⟨v, hv, hread⟩ := hfrom.startAt
    rw [readString_eq_ok hread] at hv
    exact Shape.accepts_stateName.mp (accepts_member hclosed hv rfl)
  · obtain ⟨v, hv, hread⟩ := hfrom.states
    have haccepts : Shape.states.Accepts (Shape.state marker) v := accepts_member hclosed hv rfl
    have hkept := ((rereads marker v).states d.states hread haccepts).kept
    exact Shape.accepts_states.mp
      (accepts_of_similar (Shape.similar_of_kept hkept) _ rfl haccepts)

/-! ## Definitions -/

theorem accepts_definition {c : Definition}
    (hstart : Pattern.stateName.accepts c.startAt = true)
    (hstates : ∀ entry ∈ c.states, Shape.Shaped target entry)
    (hextra : ∀ entry ∈ c.extra, Shape.Fits target (Shape.machine.resolve target) entry) :
    Shape.machine.Accepts target c.toJson := by
  rw [Definition.toJson, Shape.accepts_machine, List.forall_mem_append]
  refine ⟨by simp, hextra, ?_⟩
  rw [List.forall_mem_cons, List.forall_mem_cons, List.forall_mem_singleton]
  exact ⟨⟨_, rfl, Shape.accepts_text⟩, Shape.fits_startAt.mpr hstart, Shape.fits_states.mpr hstates⟩

/-- The shape of what a document is compiled to, if the states that decorators make of it have
theirs and the catch rules for failures too. -/
theorem shaped_assemble {members : Entries Json} {d : Document} {x : Expanded}
    (hshape : Accepts (Shape.state Settings.production.literalMarker) Shape.playbook (.obj members))
    (hfrom : d.ReadFrom members)
    (hstates : ∀ entry ∈ x.states,
      Shape.Shaped (Shape.state Settings.production.literalMarker) entry)
    (hcatch : ∀ entry ∈ x.states, entry.2.kind ∈ Scheme.catchingKinds →
      Scheme.CatchShaped (Shape.state Settings.production.literalMarker)
        { settings := .production } x.context entry.1) {c : Definition}
    (hc : c = Definition.assemble .production d
      (Scheme.states { settings := .production } x.context x.states)) :
    Pattern.stateName.accepts c.startAt = true ∧
      (∀ entry ∈ c.states, Shape.Shaped (Shape.state Settings.production.literalMarker) entry) ∧
      ∀ entry ∈ c.extra, Shape.Fits (Shape.state Settings.production.literalMarker)
        (Shape.machine.resolve (Shape.state Settings.production.literalMarker)) entry := by
  subst hc
  refine ⟨production_labels _ (by simp [Definition.assemble, Settings.reservedNames]),
    fun entry hentry => ?_, ?_⟩
  · rcases Entries.mem_of_mem_extend hentry with hboot | hlowered
    · exact shaped_bootstrap (shaped_document hshape hfrom).1 entry hboot
    · exact Scheme.shaped_each rfl production_shaped _ x.states hstates hcatch entry
        (Entries.mem_of_mem_ofPairs hlowered)
  · rw [Definition.assemble, hfrom.extra]
    exact fits_extra hshape

/-- The states that a playbook without a failure handler compiles to have the right shape. -/
theorem shaped_compiled {options : Options} {v : Json} {c : Compiled}
    (hok : compile .production options v = .ok c) (hnone : failureHandlerMember? v = none) :
    Pattern.stateName.accepts c.definition.startAt = true ∧
      (∀ entry ∈ c.definition.states,
        Shape.Shaped (Shape.state Settings.production.literalMarker) entry) ∧
      ∀ entry ∈ c.definition.extra, Shape.Fits (Shape.state Settings.production.literalMarker)
        (Shape.machine.resolve (Shape.state Settings.production.literalMarker)) entry := by
  obtain ⟨d, x, hcheck, hexpand, rfl⟩ := compile_eq_assemble hok
  obtain ⟨hfindings, hread, -⟩ := checkDocument_eq_ok hcheck
  obtain ⟨members, rfl, hfrom⟩ := Document.ofJson_eq_ok hread
  have hshape := accepts_of_shapeFindings hfindings
  have hhandler := hfrom.failureHandler?_eq_none hnone
  rw [expand_of_none hhandler] at hexpand
  cases hexpand
  refine shaped_assemble (x := ⟨d.states, topContext d⟩) hshape hfrom
    (shaped_document hshape hfrom).2 (fun _ _ _ => ?_) rfl
  exact Scheme.catchShaped_of_not_handled (by simp [topContext, hhandler])

/-! ## Checked states -/

theorem checkState_eq_nil {s : Settings} {members : Entries Json} (kind : Playbook.Kind)
    (hkind : Entries.get? members "Type" = some (.str kind.name)) :
    checkState s (.obj members) = [] ↔
      Accepts (Shape.state s.literalMarker) (Shape.ofKind s.literalMarker kind) (.obj members) := by
  have hname : (((Json.obj members).get? "Type").bind asString?).getD "" = kind.name := by
    simp [Json.get?, hkind, asString?]
  simp only [checkState, Json.kind, ne_eq, not_true_eq_false, if_false, hname,
    Shape.ofName?_name, List.map_eq_nil_iff, Shape.checkState]
  exact check_eq_nil

def asIterator (machine : Json) : Json := .obj
  [("Type", .str "Map"), ("Iterator", machine), ("End", .bool true)]

theorem checkState_asIterator {s : Settings} {machine : Json}
    (hmachine : Shape.machine.Accepts (Shape.state s.literalMarker) machine) :
    checkState s (asIterator machine) = [] := by
  refine (checkState_eq_nil .map rfl).mpr ?_
  change Accepts _ Shape.map (.obj (("Type", .str Kind.map.name) ::
    MapOver.entries { exit := { isEnd := some true } } machine))
  refine Shape.accepts_map.mpr ⟨rfl, ?_, by simp [Exit.Decided]⟩
  change ∀ entry ∈ [("Iterator", machine), ("End", Json.bool true)], _
  rw [List.forall_mem_cons, List.forall_mem_singleton]
  exact ⟨⟨_, rfl, hmachine⟩, _, rfl, Shape.accepts_ending⟩

/-- A playbook of all kinds of states that do work, with machines inside machines. -/
def nestedWork : Json := .obj
  [("Playbook", .str "Nested"), ("Comment", .str "Machines inside machines"),
    ("StartAt", .str "Ask"),
    ("States", .obj
      [("Ask", .obj
        [("Type", .str "Interaction"), ("Resource", .str "ask"),
          ("Retry", .arr [.obj [("ErrorEquals", .arr [.str "Lambda.ServiceException"])]]),
          ("Next", .str "Fan")]),
        ("Fan", .obj
          [("Type", .str "Parallel"),
            ("Branches", .arr [.obj
              [("StartAt", .str "Each"),
                ("States", .obj [("Each", .obj
                  [("Type", .str "Map"),
                    ("Iterator", .obj
                      [("StartAt", .str "Work"),
                        ("States", .obj [("Work", .obj
                          [("Type", .str "Task"), ("Resource", .str "work"),
                            ("Parameters", .obj [("Item.$", .str "$")]),
                            ("End", .bool true)])])]),
                    ("End", .bool true)])])]]),
            ("End", .bool true)])])]

/-- A playbook without a failure handler compiles to a machine of the right shape: every state at
any depth has the shape of its kind, and where it can be left, it goes on to one state or ends. -/
theorem compile_shaped (options : Options) (v : Json) (c : Compiled)
    (hok : compile .production options v = .ok c) (hnone : failureHandlerMember? v = none) :
    checkState .production (asIterator c.definition.toJson) = [] ∧
      ∀ scope ∈ c.definition.scopes, ∀ entry ∈ scope.states,
        checkState .production entry.2.toJson = [] ∧
          ∀ e, entry.2.exit? = some e →
            (∃ next, e = { next := some next }) ∨ e = { isEnd := some true } := by
  obtain ⟨hstart, hstates, hextra⟩ := shaped_compiled hok hnone
  refine ⟨checkState_asIterator (accepts_definition hstart hstates hextra),
    fun scope hscope entry hentry => ?_⟩
  have hentry : Shape.Shaped (Shape.state Settings.production.literalMarker) entry := by
    rcases List.mem_cons.mp hscope with rfl | hnested
    · exact hstates entry hentry
    · exact Shape.scopes_nested "/States" _ hstates scope hnested entry hentry
  refine ⟨(checkState_eq_nil entry.2.kind rfl).mpr (Shape.accepts_toJson.mp hentry.2), ?_⟩
  exact fun e he => Shape.exit_of_accepts hentry.2 he

theorem compile_shaped_nestedWork :
    ∃ c, compile .production {} nestedWork = .ok c ∧
      checkState .production (asIterator c.definition.toJson) = [] := by
  obtain ⟨c, hc⟩ := exists_of_isOk (x := compile .production {} nestedWork) (by decide +kernel)
  exact ⟨c, hc, (compile_shaped {} _ c hc rfl).1⟩

end StateFlow
