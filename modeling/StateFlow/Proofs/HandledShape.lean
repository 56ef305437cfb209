import StateFlow.Proofs.CompiledShape
import StateFlow.Proofs.FailureHandling
import StateFlow.Proofs.Lossless

/-!
# The shape of playbooks with a failure handler

The catch rules for failures keep the error under a path that ends with the name of the state.  A
path stays on one line, a name need not.  `compile_handled_shaped_iff` says that a playbook with a
failure handler compiles to a machine of the right shape exactly if the names of the states that
catch failures stay on one line; everything else that the handler brings has the right shape.
-/

namespace StateFlow

open StateFlow.Schema StateFlow.Json StateFlow.Playbook StateFlow.Lowering

/-! ## Names on one line -/

namespace Text

theorem oneLine_iff {text : List Char} : Pattern.oneLine text = true ↔ '\n' ∉ text := by
  rw [Pattern.oneLine, List.all_eq_true]
  constructor
  · intro hall hmem
    simpa using hall '\n' hmem
  · intro hnot c hc
    have hne : c ≠ '\n' := fun heq => hnot (heq ▸ hc)
    simpa using hne

theorem eq_ten_of_ofNat_eq {n : Nat} (h : Char.ofNat n = '\n') : n = 10 := by
  by_cases hvalid : n.isValidChar
  · rw [Char.ofNat, dif_pos hvalid] at h
    exact congrArg Char.toNat h
  · rw [Char.ofNat, dif_neg hvalid] at h
    exact absurd h (by decide)

theorem eq_newline_of_toLower {c : Char} (h : c.toLower = '\n') : c = '\n' := by
  unfold Char.toLower at h
  split at h
  · next hupper =>
      have hval : (c.val + 32).toNat = 10 := congrArg (fun d : Char => d.val.toNat) h
      have hsum : (c.val + 32).toNat = (c.val.toNat + 32) % 2 ^ 32 := UInt32.toNat_add c.val 32
      have hlow : 65 ≤ c.val.toNat := UInt32.le_iff_toNat_le.mp hupper.1
      have hhigh : c.val.toNat ≤ 90 := UInt32.le_iff_toNat_le.mp hupper.2
      omega
  · exact h

/-- The lower-case letters of the table lie behind the line break. -/
theorem newline_lt_lowerRuns :
    (lowerRuns.all fun run => decide (10 < run.first + run.shift)) = true := by
  decide +kernel

theorem eq_newline_of_mem_lowerChar {c : Char} (hmem : '\n' ∈ lowerChar c) : c = '\n' := by
  unfold lowerChar at hmem
  split at hmem
  · exact eq_newline_of_toLower (List.mem_singleton.mp hmem).symm
  · split at hmem
    · exact absurd hmem (by decide)
    · split at hmem
      · next shift hshift =>
          obtain ⟨run, hrun, hfound⟩ := List.exists_of_findSome?_eq_some hshift
          have hfirst : run.first ≤ c.toNat ∧ run.shift = shift := by
            change (if run.first ≤ c.toNat ∧ _ then some run.shift else none) = some shift at hfound
            rw [Option.ite_none_right_eq_some] at hfound
            exact ⟨hfound.1.1, Option.some.inj hfound.2⟩
          have htable := List.all_eq_true.mp newline_lt_lowerRuns run hrun
          have hten := eq_ten_of_ofNat_eq (List.mem_singleton.mp hmem).symm
          simp only [decide_eq_true_eq] at htable
          omega
      · exact (List.mem_singleton.mp hmem).symm

theorem newline_mem_of_lowerFrom {before text : List Char} (hmem : '\n' ∈ lowerFrom before text) :
    '\n' ∈ text := by
  induction text generalizing before with
  | nil => exact hmem
  | cons c rest ih =>
      rw [lowerFrom, List.mem_append] at hmem
      rcases hmem with hform | hrest
      · apply List.mem_cons.mpr
        left
        split at hform
        · -- Both forms of the capital sigma are letters.
          exact absurd (List.mem_singleton.mp hform) (by split <;> decide)
        · exact (eq_newline_of_mem_lowerChar hform).symm
      · exact List.mem_cons_of_mem c (ih hrest)

end Text

theorem oneLine_mergeHelperName {s : Settings} {name : String}
    (hstem : Pattern.oneLine s.mergeHelperStem.toList = true)
    (hname : Pattern.oneLine name.toList = true) :
    Pattern.oneLine (mergeHelperName s name).toList = true := by
  rw [Text.oneLine_iff] at hstem hname ⊢
  intro hmem
  rw [mergeHelperName, String.toList_ofList] at hmem
  have hwhole := List.mem_of_mem_take hmem
  rw [String.toList_append, List.mem_append, Text.lowercase, String.toList_ofList] at hwhole
  rcases hwhole with hleft | hright
  · exact hstem hleft
  · exact hname (Text.newline_mem_of_lowerFrom hright)

/-! ## Catch rules for failures -/

variable {target : Schema} {marker : String}

theorem accepts_path_iff {text : String} :
    Shape.path.Accepts target (.str text) ↔ Pattern.path.accepts text = true := by
  rw [Shape.path, accepts_inner]
  simp [TypeName.accepts]

/-- The catch rule for failures has the right shape exactly if the name of its state stays on one
line. -/
theorem accepts_failureCatch_iff {name : String} :
    Shape.catcher.Accepts target (failureCatch .production name).toJson ↔
      Pattern.oneLine name.toList = true := by
  have hpath : ("$.errors." ++ name).toList = '$' :: (".errors.".toList ++ name.toList) := by
    rw [String.toList_append]
    rfl
  have hline : Pattern.path.accepts ("$.errors." ++ name) = Pattern.oneLine name.toList := by
    simp only [Pattern.accepts, hpath, Pattern.oneLine, List.all_append]
    rfl
  rw [← hline, Shape.catcher, accepts_inner]
  simp only [List.forall_mem_cons, List.not_mem_nil, false_imp_iff, implies_true, and_true]
  constructor
  · rintro ⟨-, -, hmembers⟩
    obtain ⟨inner, hinner, haccepts⟩ :=
      accepts_closed.mp hmembers ("ResultPath", .str ("$.errors." ++ name)) (by simp [failureCatch])
    cases hinner
    exact accepts_path_iff.mp haccepts
  · intro haccepts
    refine ⟨rfl, rfl, accepts_closed.mpr ?_⟩
    simp only [failureCatch, optionalEntry, List.cons_append, List.nil_append,
      List.forall_mem_cons, List.not_mem_nil, false_imp_iff, implies_true, and_true]
    refine ⟨⟨_, rfl, ?_⟩, ⟨_, rfl, accepts_path_iff.mpr haccepts⟩, _, rfl,
      Shape.accepts_stateName.mpr (production_labels _ (by decide))⟩
    rw [Shape.errorEquals, accepts_inner]
    simp [texts, Json.ofList, TypeName.accepts, Shape.accepts_text]

theorem catchShaped_of_oneLine {ctx : Context} {name : String}
    (hname : Pattern.oneLine name.toList = true) :
    Scheme.CatchShaped target { settings := .production } ctx name := by
  intro _
  exact ⟨accepts_failureCatch_iff.mpr hname,
    accepts_failureCatch_iff.mpr (oneLine_mergeHelperName (by decide) hname)⟩

/-! ## Handlers -/

/-- A handler of a kind that can handle failures has the shape of its kind, its exit apart. -/
def HandlerFits (target : Schema) (handler : State) : Prop :=
  ∀ shape, (handler.kind, shape) ∈
      [(Kind.task, Shape.task .optional), (.parallel, Shape.parallel .optional)] →
    Accepts target shape handler.toJson

/-- The handler of a playbook of the right shape fits. -/
theorem handlerFits_of_shape {members : Entries Json} {d : Document} {handler : State}
    (hshape : Accepts (Shape.state marker) Shape.playbook (.obj members))
    (hfrom : d.ReadFrom members) (hsome : d.failureHandler? = some handler) :
    HandlerFits (Shape.state marker) handler := by
  obtain ⟨decorators, value, hdecorators, hvalue, hread⟩ := hfrom.handler hsome
  have haccepts : Shape.decorators.Accepts (Shape.state marker) (.obj decorators) :=
    accepts_member (closed_of_playbook hshape) hdecorators rfl
  obtain ⟨own, heq, hclosed⟩ := closed_of_decorators haccepts
  cases heq
  have hhandler : Inner.Accepts (Shape.state marker) (.schema Shape.handler) value :=
    accepts_member hclosed hvalue rfl
  intro shape hkind
  have hcases : (handler.kind = .task ∨ handler.kind = .parallel) ∧ shape.robust = true := by
    simp only [List.mem_cons, Prod.mk.injEq, List.not_mem_nil, or_false] at hkind
    rcases hkind with ⟨hkind, rfl⟩ | ⟨hkind, rfl⟩
    · exact ⟨Or.inl hkind, rfl⟩
    · exact ⟨Or.inr hkind, rfl⟩
  have hkept := (rewritten_handler hread (hcases.1.imp_right Or.inr) hhandler).kept
  obtain ⟨members, rfl, -, hown⟩ := shape_of_handler hhandler (get?_type_of_ofJson hread)
    (List.Sublist.subset (.cons_cons _ (.cons _ (.refl _))) hkind)
  exact accepts_of_similar (Shape.similar_of_kept hkept) _ hcases.2 hown

theorem HandlerFits.task {t : Task} (hfits : HandlerFits target (.task t)) :
    ∀ entry ∈ t.entries, Shape.Fits target (Shape.task .required) entry := by
  have hshape := hfits _ List.mem_cons_self
  rw [State.toJson] at hshape
  exact ((Shape.accepts_kindObject_cons (by simp [State.entries, Task.entries])).mp hshape).2.1

theorem HandlerFits.parallel {p : Parallel} {branches : List Machine}
    (hfits : HandlerFits target (.parallel p branches)) :
    ∀ entry ∈ p.entries (.arr (Machine.listToJson branches)),
      Shape.Fits target (Shape.parallel .required) entry := by
  have hshape := hfits _ (List.mem_cons_of_mem _ List.mem_cons_self)
  rw [State.toJson] at hshape
  exact ((Shape.accepts_kindObject_cons
    (by simp [State.entries, Parallel.entries])).mp hshape).2.1

/-- A handler that goes on to the failing end has the shape of a state, whatever exit it had. -/
theorem accepts_rewired {handler rewired : State}
    (hrewired : rewireHandler .production handler = .ok rewired)
    (hhandler : HandlerFits (Shape.state marker) handler) :
    Accepts (Shape.state marker) (Shape.state marker) rewired.toJson := by
  have hfinal : Pattern.stateName.accepts Settings.production.failure.final = true :=
    production_labels _ (by decide)
  rw [Shape.accepts_toJson]
  obtain ⟨t, rfl, rfl⟩ | ⟨p, branches, rfl, rfl⟩ := rewireHandler_eq_ok hrewired
  · have hfits := hhandler.task
    refine Shape.accepts_task.mpr ⟨Or.inl rfl, ?_, by simp [toFinal, Exit.Decided]⟩
    simp only [Task.entries, List.forall_mem_append] at hfits ⊢
    refine ⟨hfits.1, ?_⟩
    change ∀ entry ∈ [("Next", Json.str _)], _
    exact List.forall_mem_singleton.mpr ⟨_, rfl, Shape.accepts_stateName.mpr hfinal⟩
  · have hfits := hhandler.parallel
    refine Shape.accepts_parallel.mpr ⟨rfl, ?_, by simp [toFinal, Exit.Decided]⟩
    simp only [Parallel.entries, List.forall_mem_append] at hfits ⊢
    refine ⟨hfits.1, ?_⟩
    change ∀ entry ∈ [("Next", Json.str _)], _
    exact List.forall_mem_singleton.mpr ⟨_, rfl, Shape.accepts_stateName.mpr hfinal⟩

/-- A member for the failure handler is read, if the playbook has the right shape. -/
theorem exists_failureHandler {members : Entries Json} {d : Document}
    (hshape : Accepts target Shape.playbook (.obj members)) (hfrom : d.ReadFrom members)
    (hmember : failureHandlerMember? (.obj members) ≠ none) :
    ∃ handler, d.failureHandler? = some handler := by
  obtain ⟨h, hh⟩ := Option.ne_none_iff_exists'.mp hmember
  obtain ⟨v, hv, hget⟩ := Option.bind_eq_some_iff.mp hh
  have haccepts : Shape.decorators.Accepts target v :=
    accepts_member (closed_of_playbook hshape) hv rfl
  obtain ⟨own, rfl, hclosed⟩ := closed_of_decorators haccepts
  have hnull : h ≠ .null := by
    intro heq
    rw [heq] at hget
    exact not_accepts_null Shape.handler rfl (accepts_member hclosed hget rfl)
  rcases hfrom.decorators with ⟨hnone, -⟩ | ⟨w, hw, hread⟩
  · exact absurd (hnone.symm.trans hv) (by simp)
  · obtain rfl : .obj own = w := Option.some.inj (hv.symm.trans hw)
    cases hdecorators : d.decorators with
    | none =>
        rw [hdecorators] at hread
        cases readOptional_eq_none.mp hread
    | some decorators =>
        rw [hdecorators] at hread
        obtain ⟨_, heq, hgives⟩ := readRecord_eq_ok (readOptional_eq_some hread)
        cases heq
        simp only [Reading.gives_seq, Reading.gives_map, Members.optional_gives] at hgives
        obtain ⟨_, _, ⟨found, hfound, rfl⟩, -, rfl⟩ := hgives
        rcases hfound with ⟨hnone, -⟩ | ⟨w, hw, hstate⟩
        · exact absurd (hnone.symm.trans hget) (by simp)
        · obtain rfl : h = w := Option.some.inj (hget.symm.trans hw)
          cases found with
          | none => exact absurd (readOptional_eq_none.mp hstate) hnull
          | some handler => exact ⟨handler, by simp [Document.failureHandler?, hdecorators]⟩

/-- The states around a handler have the right shape if the handler has it. -/
theorem shaped_failureEntries {rewired : State}
    (hrewired : Accepts (Shape.state marker) (Shape.state marker) rewired.toJson) :
    ∀ entry ∈ failureEntries .production rewired, Shape.Shaped (Shape.state marker) entry := by
  have hlabel : ∀ label ∈ Settings.production.failureLabels,
      Pattern.stateName.accepts label = true := by
    decide
  simp only [Settings.failureLabels, List.forall_mem_cons] at hlabel
  obtain ⟨hentry, hhandler, hfinal, -⟩ := hlabel
  rw [failureEntries, List.forall_mem_cons, List.forall_mem_cons, List.forall_mem_singleton]
  refine ⟨⟨hentry, Shape.accepts_toJson.mpr ?_⟩, ⟨hhandler, hrewired⟩,
    hfinal, Shape.accepts_toJson.mpr ?_⟩
  · refine Shape.accepts_pass.mpr ⟨rfl, ?_, by simp [Exit.Decided]⟩
    change ∀ entry ∈ [("Next", Json.str _)], _
    exact List.forall_mem_singleton.mpr ⟨_, rfl, Shape.accepts_stateName.mpr hhandler⟩
  · refine (Shape.accepts_kindObject_cons (by simp)).mpr ⟨Shape.accepts_isKind.mpr rfl, ?_, by simp⟩
    change ∀ entry ∈ [], _
    simp

/-! ## Compiled playbooks -/

section Compiled

variable {members : Entries Json} {d : Document} {x : Expanded}
  (hshape : Accepts (Shape.state Settings.production.literalMarker) Shape.playbook (.obj members))
  (hfrom : d.ReadFrom members) (hexpand : expand .production d = .ok x)

include hshape hfrom hexpand

theorem shaped_expanded : ∀ entry ∈ x.states,
    Shape.Shaped (Shape.state Settings.production.literalMarker) entry := by
  intro entry hentry
  rcases mem_of_expand hexpand hentry with hown | ⟨handler, rewired, hsome, hrewired, hadded⟩
  · exact (shaped_document hshape hfrom).2 entry hown
  · have hfits := handlerFits_of_shape hshape hfrom hsome
    exact shaped_failureEntries (accepts_rewired hrewired hfits) entry hadded

omit hshape hfrom in
theorem catchShaped_expanded
    (hlines : ∀ name own, (name, own) ∈ d.states → own.kind ∈ Scheme.catchingKinds →
      Pattern.oneLine name.toList = true) :
    ∀ entry ∈ x.states, entry.2.kind ∈ Scheme.catchingKinds →
      Scheme.CatchShaped (Shape.state Settings.production.literalMarker)
        { settings := .production } x.context entry.1 := by
  intro entry hentry hkind
  rcases mem_of_expand hexpand hentry with hown | ⟨handler, rewired, -, -, hadded⟩
  · exact catchShaped_of_oneLine (hlines entry.1 entry.2 hown hkind)
  · rw [failureEntries, List.mem_cons, List.mem_cons, List.mem_singleton] at hadded
    rcases hadded with rfl | rfl | rfl
    · simp [State.kind, Scheme.catchingKinds] at hkind
    · -- The handler does not catch its own failures.
      intro hcatches
      simp [Scheme.catchesFailure] at hcatches
    · simp [State.kind, Scheme.catchingKinds] at hkind

end Compiled

theorem shaped_of_checkState {s : Settings} {c : Definition}
    (hcheck : checkState s (asIterator c.toJson) = []) :
    ∀ entry ∈ c.states, Shape.Shaped (Shape.state s.literalMarker) entry := by
  have hmap := (checkState_eq_nil .map rfl).mp hcheck
  have hmachine : Shape.machine.Accepts (Shape.state s.literalMarker) c.toJson :=
    Shape.iterator_of_accepts (m := { exit := { isEnd := some true } }) hmap
  rw [Definition.toJson, Shape.accepts_machine] at hmachine
  exact Shape.fits_states.mp (hmachine.2 ("States", statesToJson c.states) (by simp))

/-- A playbook with a failure handler compiles to a machine of the right shape exactly if the names
of the states that catch failures stay on one line: the last catch rule of such a state is of the
right shape exactly then. -/
theorem compile_handled_shaped_iff (options : Options) (v : Json) (c : Compiled)
    (hok : compile .production options v = .ok c) (hhandled : failureHandlerMember? v ≠ none) :
    ∃ d, Document.ofJson v = .ok d ∧
      (∀ name own, (name, own) ∈ d.states → own.kind ∈ [.task, .interaction, .parallel] →
        ∃ out rule, Entries.get? c.definition.states name = some out ∧
          out.catchers = own.catchers ++ [rule] ∧
            (Shape.catcher.Accepts (Shape.state Settings.production.literalMarker) rule.toJson ↔
              Pattern.oneLine name.toList = true)) ∧
      (checkState .production (asIterator c.definition.toJson) = [] ↔
        ∀ name own, (name, own) ∈ d.states → own.kind ∈ [.task, .interaction, .parallel] →
          Pattern.oneLine name.toList = true) := by
  obtain ⟨d, x, hcheck, hexpand, rfl⟩ := compile_eq_assemble hok
  obtain ⟨hfindings, hread, hwell⟩ := checkDocument_eq_ok hcheck
  obtain ⟨members, rfl, hfrom⟩ := Document.ofJson_eq_ok hread
  have hshape := accepts_of_shapeFindings hfindings
  obtain ⟨handler, hhandler⟩ := exists_failureHandler hshape hfrom hhandled
  have hhandling := failureHandling_assemble production_labelsApart hwell hexpand hhandler
  refine ⟨d, hread, fun name own hmem hkind => ?_, fun hvalid name own hmem hkind => ?_,
    fun hlines => ?_⟩
  · obtain ⟨out, hout, hcatchers⟩ := hhandling.catching name own hmem hkind
    exact ⟨out, failureCatch .production name, hout, hcatchers, accepts_failureCatch_iff⟩
  · obtain ⟨out, hout, hcatchers⟩ := hhandling.catching name own hmem hkind
    have hshaped := shaped_of_checkState hvalid _ (Entries.mem_of_get? hout)
    have hrules := Shape.catchers_of_accepts hshaped.2
    rw [hcatchers] at hrules
    exact accepts_failureCatch_iff.mp (hrules _ (List.mem_append_right _ List.mem_cons_self))
  · obtain ⟨hstart, hstates, hextra⟩ := shaped_assemble hshape hfrom
      (shaped_expanded hshape hfrom hexpand) (catchShaped_expanded hexpand hlines) rfl
    exact checkState_asIterator (accepts_definition hstart hstates hextra)

theorem compile_handled_shaped_handledFan :
    ∃ c, compile .production {} (handledFan "Split" "Left") = .ok c ∧
      failureHandlerMember? (handledFan "Split" "Left") ≠ none ∧
        checkState .production (asIterator c.definition.toJson) = [] := by
  let v := handledFan "Split" "Left"
  obtain ⟨c, hc⟩ := exists_of_isOk (x := compile .production {} v) (by decide +kernel)
  have hhandled : failureHandlerMember? v ≠ none := nofun
  obtain ⟨d, hd, -, hiff⟩ := compile_handled_shaped_iff {} v c hc hhandled
  have hlines : (Document.ofJson v).toOption.map
      (fun d => d.states.all fun entry => Pattern.oneLine entry.1.toList) = some true := by
    decide +kernel
  rw [hd, Except.toOption, Option.map_some, Option.some.injEq, List.all_eq_true] at hlines
  exact ⟨c, hc, hhandled, hiff.mpr fun name own hmem _ => hlines (name, own) hmem⟩

/-- A Parallel whose name has a line break is compiled, with a catch rule of the wrong shape. -/
theorem name_breaks_errorPath :
    ∃ c, compile .production {} (handledFan "Split\nJoin" "Left") = .ok c ∧
      checkState .production (asIterator c.definition.toJson) ≠ [] := by
  let v := handledFan "Split\nJoin" "Left"
  obtain ⟨c, hc⟩ := exists_of_isOk (x := compile .production {} v) (by decide +kernel)
  have hfindings : (compile .production {} v).toOption.map
      (fun c => (checkState .production (asIterator c.definition.toJson)).isEmpty) =
        some false := by
    decide +kernel
  rw [hc] at hfindings
  refine ⟨c, hc, fun hvalid => ?_⟩
  simp [Except.toOption, hvalid] at hfindings

end StateFlow
