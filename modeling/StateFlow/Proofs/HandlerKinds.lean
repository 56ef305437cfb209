import StateFlow.Proofs.DefinitionText
import StateFlow.Proofs.Lossless
import StateFlow.Proofs.StateFindings

/-!
# Failure handlers of kinds that cannot handle failures

A playbook that compiles is given a failure handler of a kind that cannot be one.  Unless it is an
interaction, the shape asks nothing of such a handler but to name its kind, so what happens is
decided when it is read: if it reads as a state, the kind is refused when decorators are applied,
and if it does not, the playbook is refused as invalid (`compile_with_handler_iff`).
-/

namespace StateFlow

open StateFlow.Playbook StateFlow.Json StateFlow.Schema StateFlow.Lowering

/-! ## Adding a handler -/

def membersOf : Option Json → Entries Json
  | some (.obj members) => members
  | _ => []

def withFailureHandler : Json → Json → Json
  | .obj members, h => .obj <| Entries.insert members "Decorators" <| .obj <|
      Entries.insert (membersOf (Entries.get? members "Decorators")) "TaskFailureHandler" h
  | v, _ => v

variable {members own : Entries Json} {d : Document} {h : Json}

theorem mustRead_insert {β : Type} {key name : String} {w : Json}
    {read : Json → Except Mismatch β} {x : β} (hread : MustRead members key read x)
    (hne : name ≠ key) : MustRead (Entries.insert members name w) key read x := by
  obtain ⟨v, hv, hx⟩ := hread
  exact ⟨v, by rw [Entries.get?_insert, if_neg hne, hv], hx⟩

/-- What else the decorators of a document say can be read. -/
theorem exists_disableDefaultRetry (hfrom : d.ReadFrom members) :
    (Members.optional (membersOf (Entries.get? members "Decorators")) "DisableDefaultRetry"
      (readOptional DisableDefaultRetry.ofJson)).Succeeds := by
  rcases hfrom.decorators with ⟨hnone, -⟩ | ⟨v, hv, hread⟩
  · rw [hnone]
    exact ⟨none, rfl⟩
  · rw [hv]
    cases v with
    | obj own =>
        rw [readOptional_of_ne_null (by simp)] at hread
        cases hdecorators : Decorators.ofJson (.obj own) with
        | error m => simp [hdecorators] at hread
        | ok found =>
            have hsucceeds := Reading.exists_toExcept_eq_ok.mp ⟨found, hdecorators⟩
            simp only [Reading.succeeds_seq, Reading.succeeds_map] at hsucceeds
            exact hsucceeds.2
    | _ => exact ⟨none, rfl⟩

theorem get?_insert_disable (own : Entries Json) (h : Json) :
    Entries.get? (Entries.insert own "TaskFailureHandler" h) "DisableDefaultRetry" =
      Entries.get? own "DisableDefaultRetry" := by
  rw [Entries.get?_insert, if_neg (by decide)]

section Decorators

variable (hdisable : (Members.optional own "DisableDefaultRetry"
  (readOptional DisableDefaultRetry.ofJson)).Succeeds) (hnull : h ≠ .null)

include hdisable hnull

theorem decorators_of_handler {state : State} (hstate : State.ofJson h = .ok state) :
    ∃ disable, Decorators.ofJson (.obj (Entries.insert own "TaskFailureHandler" h)) =
      .ok ⟨some state, disable⟩ := by
  obtain ⟨disable, hdisable⟩ := hdisable
  refine ⟨disable, Reading.toExcept_eq_ok.mpr ?_⟩
  simp only [Reading.gives_seq, Reading.gives_map]
  refine ⟨_, disable, ⟨some state, ?_, rfl⟩, ?_, rfl⟩
  · rw [Members.optional_gives, Entries.get?_insert, if_pos rfl]
    exact Or.inr ⟨h, rfl, by rw [readOptional_of_ne_null hnull, hstate]; rfl⟩
  · rw [Members.optional_gives, get?_insert_disable]
    exact Members.optional_gives.mp hdisable

theorem decorators_of_mismatch {m : Mismatch} (hstate : State.ofJson h = .error m) :
    Decorators.ofJson (.obj (Entries.insert own "TaskFailureHandler" h)) = .error m := by
  refine Reading.toExcept_of_fails (Reading.fails_seq_left (Reading.fails_map ?_) ?_)
  · refine Members.optional_fails (by rw [Entries.get?_insert, if_pos rfl]) ?_
    rw [readOptional_of_ne_null hnull, hstate]
    rfl
  · rw [Members.optional_succeeds, get?_insert_disable]
    exact Members.optional_succeeds.mp hdisable

end Decorators

/-! ## Reading the playbook with the handler -/

theorem document_of_handler (hfrom : d.ReadFrom members) (hnull : h ≠ .null) {state : State}
    (hstate : State.ofJson h = .ok state) :
    ∃ d', Document.ofJson (withFailureHandler (.obj members) h) = .ok d' ∧
      d'.startAt = d.startAt ∧ d'.states = d.states ∧ d'.failureHandler? = some state := by
  obtain ⟨disable, hdecorators⟩ :=
    decorators_of_handler (exists_disableDefaultRetry hfrom) hnull hstate
  refine ⟨⟨d.name, d.comment, d.startAt, d.states, some ⟨some state, disable⟩, _⟩,
    Document.ofJson_obj_eq_ok.mpr ⟨?_, ?_, ?_, ?_, ?_, rfl⟩, rfl, rfl, rfl⟩
  · exact mustRead_insert hfrom.name (by decide)
  · exact mustRead_insert hfrom.comment (by decide)
  · exact mustRead_insert hfrom.startAt (by decide)
  · exact mustRead_insert hfrom.states (by decide)
  · refine Or.inr ⟨_, by rw [Entries.get?_insert, if_pos rfl], ?_⟩
    rw [readOptional_of_ne_null (by simp), hdecorators]
    rfl

theorem document_of_mismatch (hfrom : d.ReadFrom members) (hnull : h ≠ .null) {m : Mismatch}
    (hstate : State.ofJson h = .error m) :
    Document.ofJson (withFailureHandler (.obj members) h) = .error m := by
  have hdecorators := decorators_of_mismatch (exists_disableDefaultRetry hfrom) hnull hstate
  -- All other members still read as before, so the mismatch of the handler is the only one.
  refine Reading.toExcept_of_fails
    (Reading.fails_seq_left (Reading.fails_seq_right ?_ ?_) (Reading.succeeds_pure _))
  · simp only [Reading.succeeds_seq, Reading.succeeds_map]
    refine ⟨⟨⟨⟨d.name, ?_⟩, ⟨d.comment, ?_⟩⟩, ⟨d.startAt, ?_⟩⟩, ⟨d.states, ?_⟩⟩
    · exact Members.required_gives.mpr (mustRead_insert hfrom.name (by decide))
    · exact Members.required_gives.mpr (mustRead_insert hfrom.comment (by decide))
    · exact Members.required_gives.mpr (mustRead_insert hfrom.startAt (by decide))
    · exact Members.required_gives.mpr (mustRead_insert hfrom.states (by decide))
  · refine Members.optional_fails (by rw [Entries.get?_insert, if_pos rfl]) ?_
    rw [readOptional_of_ne_null (by simp), hdecorators]
    rfl

/-! ## Checking and lowering it -/

theorem catchers_of_recovery {r : Recovery}
    (hgives : (Fields.recovery (Part.ofMembers members)).Gives r)
    (hcatch : Entries.get? members "Catch" = none) : r.catchers = none := by
  simp only [Fields.recovery, Reading.gives_seq, Reading.gives_map, optionalPart_gives] at hgives
  obtain ⟨_, _, ⟨_, -, rfl⟩, hcatchers, rfl⟩ := hgives
  rcases hcatchers with ⟨-, hnone⟩ | ⟨v, hv, -⟩
  · exact hnone
  · rw [hcatch] at hv
    cases hv

variable {s : Settings} {state : State}

/-- A state that is read from an object without catch rules has none. -/
theorem catchers_of_no_member (hread : State.ofJson h = .ok state)
    (hcatch : h.get? "Catch" = none) : state.catchers = [] := by
  cases h with
  | obj members =>
      obtain ⟨kind, -, hgives⟩ := ofMembers_eq_ok hread
      unfold State.catchers
      cases hown : state.recovery? with
      | none => rfl
      | some own =>
          rw [Option.bind_some, catchers_of_recovery (recovery_of_gives hgives hown) hcatch]
          rfl
  | _ => cases hread

theorem handlerScopes_of_kind (hparallel : state.kind ≠ .parallel) :
    handlerScopes (some state) = [] := by
  cases state with
  | parallel p branches => exact absurd rfl hparallel
  | _ => rfl

/-- A handler without scopes and catch rules breaks no rule. -/
theorem wellFormed_of_handler {d' : Document} (hwell : WellFormed s d)
    (hnone : d.failureHandler? = none) (hstart : d'.startAt = d.startAt)
    (hstates : d'.states = d.states) (hsome : d'.failureHandler? = some state)
    (hparallel : state.kind ≠ .parallel) (hcatchers : state.catchers = []) : WellFormed s d' := by
  have hscopes : d'.scopes = d.scopes := by
    rw [Document.scopes, Document.scopes, hstart, hstates, hsome, hnone,
      handlerScopes_of_kind hparallel]
    rfl
  refine ⟨?_, ?_, ?_, ?_, ?_, ?_⟩
  · rw [Document.stateNames, hscopes]
    exact hwell.names
  · rw [hscopes]
    exact hwell.closed
  · intro handler hhandler c hc
    rw [hsome, Option.mem_some_iff] at hhandler
    rw [← hhandler, hcatchers] at hc
    cases hc
  · rw [hstates]
    exact hwell.reserved
  · rw [hscopes]
    exact hwell.helpers
  · intro p branches hhandler
    rw [hsome] at hhandler
    cases hhandler
    exact absurd rfl hparallel

theorem rewireHandler_of_kind (htask : state.kind ≠ .task) (hparallel : state.kind ≠ .parallel) :
    rewireHandler s state = .error state.kind := by
  cases state with
  | task t => exact absurd rfl htask
  | parallel p branches => exact absurd rfl hparallel
  | _ => rfl

theorem lowerDocument_of_kind (hsome : d.failureHandler? = some state)
    (htask : state.kind ≠ .task) (hparallel : state.kind ≠ .parallel) :
    lowerDocument s d = .error (.handlerKind state.kind.name) := by
  rw [lowerDocument, lower, expand_of_some hsome, rewireHandler_of_kind htask hparallel]
  rfl

theorem checkDocument_of_ok {v : Json} (hshape : shapeFindings s v = [])
    (hread : Document.ofJson v = .ok d) (hwell : WellFormed s d) : checkDocument s v = .ok d := by
  obtain ⟨members, rfl, -⟩ := Document.ofJson_eq_ok hread
  have hrules : ruleFindings s d = [] := ruleFindings_eq_nil_iff.mpr hwell
  simp [checkDocument, Json.kind, hshape, hread, hrules]

theorem checkDocument_of_mismatch {m : Mismatch} (hshape : shapeFindings s (.obj members) = [])
    (hread : Document.ofJson (.obj members) = .error m) :
    checkDocument s (.obj members) = .error [mismatchFinding m] := by
  simp [checkDocument, Json.kind, hshape, hread]

/-! ## Compiling it -/

/-- The handler of a playbook of the right shape has the shape of a handler. -/
theorem accepts_handler (hshape : shapeFindings s (withFailureHandler (.obj members) h) = []) :
    Accepts (Shape.state s.literalMarker) Shape.handler h := by
  have hclosed := closed_of_playbook (accepts_of_shapeFindings hshape)
  have hdecorators : Shape.decorators.Accepts (Shape.state s.literalMarker) (.obj
      (Entries.insert (membersOf (Entries.get? members "Decorators")) "TaskFailureHandler" h)) :=
    accepts_member hclosed (by rw [Entries.get?_insert, if_pos rfl]) rfl
  obtain ⟨own, heq, hclosed⟩ := closed_of_decorators hdecorators
  cases heq
  have hhandler : Inner.Accepts (Shape.state s.literalMarker) (.schema Shape.handler) h :=
    accepts_member hclosed (by rw [Entries.get?_insert, if_pos rfl]) rfl
  exact hhandler

theorem compile_of_mismatch {options : Options} {m : Mismatch} (hfrom : d.ReadFrom members)
    (hshape : shapeFindings s (withFailureHandler (.obj members) h) = []) (hnull : h ≠ .null)
    (hstate : State.ofJson h = .error m) :
    compile s options (withFailureHandler (.obj members) h) =
      .error (.invalid [mismatchFinding m]) := by
  rw [compile, withFailureHandler,
    checkDocument_of_mismatch hshape (document_of_mismatch hfrom hnull hstate)]
  rfl

theorem compile_of_kind {options : Options} (hfrom : d.ReadFrom members) (hwell : WellFormed s d)
    (hnone : failureHandlerMember? (.obj members) = none)
    (hshape : shapeFindings s (withFailureHandler (.obj members) h) = []) (hnull : h ≠ .null)
    (hstate : State.ofJson h = .ok state) (htask : state.kind ≠ .task)
    (hparallel : state.kind ≠ .parallel) (hcatch : h.get? "Catch" = none) :
    compile s options (withFailureHandler (.obj members) h) =
      .error (.handlerKind state.kind.name) := by
  obtain ⟨d', hread, hstart, hstates, hsome⟩ := document_of_handler hfrom hnull hstate
  have hwell' := wellFormed_of_handler hwell (hfrom.failureHandler?_eq_none hnone) hstart
    hstates hsome hparallel (catchers_of_no_member hstate hcatch)
  rw [compile, checkDocument_of_ok hshape hread hwell']
  change lowerDocument s d' >>= _ = _
  rw [lowerDocument_of_kind hsome htask hparallel]
  rfl

/-- A failure handler that cannot handle failures, added to a playbook that compiles, is refused
for its kind exactly if it reads as a state, as every interaction does and every handler that passes
as a state on its own; otherwise the playbook is refused for the mismatch. -/
theorem compile_with_handler_iff (s : Settings) (options : Options) (v h : Json) (c : Compiled)
    (kind : Playbook.Kind) (hok : compile s options v = .ok c)
    (hnone : failureHandlerMember? v = none)
    (hshape : shapeFindings s (withFailureHandler v h) = [])
    (hkind : h.get? "Type" = some (.str kind.name)) (htask : kind ≠ .task)
    (hparallel : kind ≠ .parallel) (hcatch : h.get? "Catch" = none) :
    (compile s options (withFailureHandler v h) = .error (.handlerKind kind.name) ↔
        ∃ state, State.ofJson h = .ok state) ∧
      (kind = .interaction → ∃ state, State.ofJson h = .ok state) ∧
      (checkState s h = [] → h.WellFormed → ConcurrencyFits .state h →
        ∃ state, State.ofJson h = .ok state) ∧
      ∀ m, State.ofJson h = .error m →
        compile s options (withFailureHandler v h) = .error (.invalid [mismatchFinding m]) := by
  obtain ⟨d, x, hcheck, -, -⟩ := compile_eq_assemble hok
  obtain ⟨-, hread, hwell⟩ := checkDocument_eq_ok hcheck
  obtain ⟨members, rfl, hfrom⟩ := Document.ofJson_eq_ok hread
  have hnull : h ≠ .null := by
    rintro rfl
    cases hkind
  refine ⟨⟨fun herror => ?_, ?_⟩, ?_, fun hnone hwell hfits => ?_,
    fun m hm => compile_of_mismatch hfrom hshape hnull hm⟩
  · cases hstate : State.ofJson h with
    | ok state => exact ⟨state, rfl⟩
    | error m =>
        rw [compile_of_mismatch hfrom hshape hnull hstate] at herror
        cases herror
  · rintro ⟨state, hstate⟩
    cases Shape.kind_unique hkind (get?_type_of_ofJson hstate)
    exact compile_of_kind hfrom hwell hnone hshape hnull hstate htask hparallel hcatch
  · rintro rfl
    exact exists_interaction (accepts_handler hshape) hkind
  · exact (taken s.literalMarker hwell).state (checkState_eq_nil_iff.mp hnone) hfits

theorem compile_with_handler_askAgain :
    let v := commented "Ask again"
    let h : Json := .obj [("Type", .str "Interaction"), ("Resource", .str "ask")]
    failureHandlerMember? v = none ∧ shapeFindings .production (withFailureHandler v h) = [] ∧
      compile .production {} (withFailureHandler v h) = .error (.handlerKind "Interaction") := by
  intro v h
  have hshape : shapeFindings .production (withFailureHandler v h) = [] := by decide +kernel
  obtain ⟨c, hc⟩ := exists_of_isOk (x := compile .production {} v) (by decide +kernel)
  have hlaw := compile_with_handler_iff .production {} v h c .interaction hc rfl hshape rfl
    (by decide) (by decide) rfl
  exact ⟨rfl, hshape, hlaw.1.mpr (hlaw.2.1 rfl)⟩

/-- A handler that is a Choice without choices has the shape that is asked of it, and declares no
catch rules.  It is refused as invalid, and not for its kind. -/
theorem empty_choice_handler_invalid :
    let v := commented "Choose"
    let h : Json := .obj [("Type", .str "Choice")]
    (compile .production {} v).toOption.isSome = true ∧ failureHandlerMember? v = none ∧
      shapeFindings .production (withFailureHandler v h) = [] ∧
      h.get? "Type" = some (.str Kind.choice.name) ∧ h.get? "Catch" = none ∧
      compile .production {} (withFailureHandler v h) =
        .error (.invalid [mismatchFinding (.missing "Choices")]) := by
  intro v h
  refine ⟨by decide +kernel, rfl, by decide +kernel, rfl, rfl, rfl⟩

end StateFlow
