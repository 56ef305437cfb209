import StateFlow.Proofs.HandledShape

/-!
# Where retry rules come from

A retry rule of a compiled state is one that the state was written with, the default rule for the
error classes that these leave, or the default rule of a merge helper.  Rules that a playbook is
written with name an error class, and so does the default rule where it is cut down.  Merge helpers
take the default rule as it is: `compile_retriers_nonempty_iff` says that a compiled playbook has a
rule without error classes exactly if a helper carries such a default.
-/

namespace StateFlow

open StateFlow.Schema StateFlow.Json StateFlow.Playbook StateFlow.Lowering

def Playbook.State.retriers (s : State) : List Retrier :=
  (s.recovery?.bind Recovery.retry).getD []

def Lowering.CarriesDefault (s : Settings) (entry : String × State) : Prop :=
  ∃ next catches, entry.2 = .task (mergeHelper s entry.1 next false catches)

namespace Lowering.Scheme

/-- The ways in which a state that is lowered from one with the rules `own` comes by a rule. -/
inductive RetryOrigin (s : Settings) (own : List Retrier) (out : String × State) : Retrier → Prop
  | own {rule : Retrier} (hmem : rule ∈ own) : RetryOrigin s own out rule
  | narrowed {errors : List String} (hsome : errors ≠ []) :
      RetryOrigin s own out { s.defaultRetry with errorEquals := errors }
  | helper (hcarries : CarriesDefault s out) : RetryOrigin s own out s.defaultRetry

variable {r : Scheme} {ctx : Context} {name : String}

theorem retryOrigin_work {own : Option (List Retrier)} {disabled : Bool} {out : String × State}
    {rule : Retrier}
    (hrule : rule ∈ (mergeRetry own disabled r.settings.defaultRetry).getD []) :
    RetryOrigin r.settings (own.getD []) out rule := by
  cases hmerged : mergeRetry own disabled r.settings.defaultRetry with
  | none => simp [hmerged] at hrule
  | some rules =>
      rw [hmerged] at hrule
      rcases mem_mergeRetry hmerged hrule with hown | ⟨errors, hsome, -, rfl⟩
      · exact .own hown
      · exact .narrowed hsome

/-- Every rule of a lowered state has one of these origins. -/
theorem retryOrigin_state {own : State} {out : String × State}
    (hout : out ∈ r.state ctx name own) {rule : Retrier} (hrule : rule ∈ out.2.retriers) :
    RetryOrigin r.settings own.retriers out rule := by
  cases own with
  | pass | succeed | fail | wait | choice =>
      rw [state, List.mem_singleton] at hout
      subst hout
      simp [State.retriers, State.recovery?] at hrule
  | task t | interaction t =>
      rw [state, List.mem_singleton] at hout
      subst hout
      exact retryOrigin_work hrule
  | map m iterator =>
      rw [state, List.mem_singleton] at hout
      subst hout
      exact .own hrule
  | parallel p branches =>
      rw [state, List.mem_cons, List.mem_singleton] at hout
      rcases hout with rfl | rfl
      · exact .own hrule
      · -- A helper has no rules where default rules are switched off.
        cases hdisabled : ctx.retryDisabled name with
        | true => simp [State.retriers, State.recovery?, helper, mergeHelper, hdisabled] at hrule
        | false =>
            have hdefault : rule = r.settings.defaultRetry := by
              simpa [State.retriers, State.recovery?, helper, mergeHelper, hdisabled] using hrule
            rw [hdefault]
            exact .helper ⟨_, _, by rw [helper, hdisabled]⟩

end Lowering.Scheme

/-! ## Documents -/

variable {target : Schema} {marker : String}

theorem errorEquals_of_accepts {rule : Retrier}
    (hshape : Shape.retrier.Accepts target rule.toJson) : rule.errorEquals ≠ [] := by
  rw [Shape.retrier, accepts_inner] at hshape
  simp only [List.forall_mem_cons, List.not_mem_nil, false_imp_iff, implies_true, and_true]
    at hshape
  obtain ⟨inner, hinner, haccepts⟩ :=
    accepts_closed.mp hshape.2.2 ("ErrorEquals", texts rule.errorEquals) (by simp)
  cases hinner
  rw [Shape.errorEquals, accepts_inner] at haccepts
  intro hnil
  have hitems := haccepts (.minItems 1) (by simp)
  simp [hnil, texts, Json.ofList] at hitems

def Playbook.RetriersNamed (states : Entries State) : Prop :=
  ∀ entry ∈ states, ∀ rule ∈ entry.2.retriers, rule.errorEquals ≠ []

theorem retriersNamed_of_shaped {states : Entries State}
    (hshaped : ∀ entry ∈ states, Shape.Shaped (Shape.state marker) entry) :
    RetriersNamed states := by
  intro entry hentry rule hrule
  cases hown : entry.2.recovery? with
  | none => simp [State.retriers, hown] at hrule
  | some own =>
      have hmem : rule ∈ own.retry.getD [] := by
        simpa [State.retriers, hown] using hrule
      exact errorEquals_of_accepts
        ((Shape.recovery_of_accepts (hshaped entry hentry).2 hown).1 rule hmem)

/-- The rules of a handler name error classes, and so do those of the states inside it. -/
theorem retriersNamed_handler {handler : State}
    (hhandler : HandlerFits (Shape.state marker) handler)
    (hkind : handler.kind = .task ∨ handler.kind = .parallel) (path : String) :
    (∀ rule ∈ handler.retriers, rule.errorEquals ≠ []) ∧
      ∀ scope ∈ State.scopes path handler, RetriersNamed scope.states := by
  cases handler with
  | task t =>
      have hrules := Shape.accepts_recovery rfl rfl
        fun entry hentry => hhandler.task entry (t.recovery_subset hentry)
      exact ⟨fun rule hrule => errorEquals_of_accepts (hrules.1 rule hrule),
        by simp [State.scopes]⟩
  | parallel p branches =>
      have hrules := Shape.accepts_recovery rfl rfl
        fun entry hentry => hhandler.parallel entry (p.recovery_subset _ hentry)
      refine ⟨fun rule hrule => errorEquals_of_accepts (hrules.1 rule hrule),
        fun scope hscope => ?_⟩
      obtain ⟨inner, hinner, haccepts⟩ := hhandler.parallel _ (p.branches_mem _)
      cases hinner
      rw [State.scopes] at hscope
      exact retriersNamed_of_shaped
        (Shape.scopes_branches path 0 branches (Shape.accepts_branches.mp haccepts).2 scope hscope)
  | _ => simp [State.kind] at hkind

section Compiled

variable {s : Settings} {members : Entries Json} {d : Document} {x : Expanded}

/-- With the states around a failure handler, all rules still name error classes, at any depth. -/
theorem retriersNamed_expanded
    (hshape : Accepts (Shape.state marker) Shape.playbook (.obj members))
    (hfrom : d.ReadFrom members) (hexpand : expand s d = .ok x) :
    RetriersNamed x.states ∧
      ∀ scope ∈ nestedScopes "/States" x.states, RetriersNamed scope.states := by
  have hown := (shaped_document hshape hfrom).2
  have hhandler : ∀ handler rewired path, d.failureHandler? = some handler →
      rewireHandler s handler = .ok rewired →
        (∀ rule ∈ rewired.retriers, rule.errorEquals ≠ []) ∧
          ∀ scope ∈ State.scopes path rewired, RetriersNamed scope.states := by
    intro handler rewired path hsome hrewired
    have hfits := handlerFits_of_shape hshape hfrom hsome
    rw [scopes_rewired path hrewired]
    obtain ⟨t, rfl, rfl⟩ | ⟨p, branches, rfl, rfl⟩ := rewireHandler_eq_ok hrewired
    · exact retriersNamed_handler hfits (Or.inl rfl) path
    · exact retriersNamed_handler hfits (Or.inr rfl) path
  constructor
  · intro entry hentry
    rcases mem_of_expand hexpand hentry with hmem | ⟨handler, rewired, hsome, hrewired, hadded⟩
    · exact retriersNamed_of_shaped hown entry hmem
    · rw [failureEntries, List.mem_cons, List.mem_cons, List.mem_singleton] at hadded
      rcases hadded with rfl | rfl | rfl
      · simp [State.retriers, State.recovery?]
      · exact (hhandler handler rewired "" hsome hrewired).1
      · simp [State.retriers, State.recovery?]
  · intro scope hscope
    rw [nestedScopes_eq_flatMap, List.mem_flatMap] at hscope
    obtain ⟨entry, hentry, hinside⟩ := hscope
    rcases mem_of_expand hexpand hentry with hmem | ⟨handler, rewired, hsome, hrewired, hadded⟩
    · exact retriersNamed_of_shaped (Shape.scopes_state _ entry.2 (hown entry hmem).2 scope hinside)
    · rw [failureEntries, List.mem_cons, List.mem_cons, List.mem_singleton] at hadded
      rcases hadded with rfl | rfl | rfl
      · simp [State.scopes] at hinside
      · exact (hhandler handler rewired _ hsome hrewired).2 scope hinside
      · simp [State.scopes] at hinside

theorem retriers_bootstrap {start : String} :
    ∀ entry ∈ Bootstrap.states s start, entry.2.retriers = [] := by
  intro entry hentry
  have hpairs := Entries.mem_of_mem_ofPairs hentry
  simp only [List.mem_cons, List.not_mem_nil, or_false] at hpairs
  rcases hpairs with rfl | rfl | rfl <;> rfl

/-- The rules of lowered states name error classes, unless they are default rules of helpers. -/
theorem named_of_retryOrigin {ctx : Context} {own : Entries State} (hown : RetriersNamed own)
    {entry : String × State} (hentry : entry ∈ Scheme.each { settings := s } ctx own)
    {rule : Retrier} (hrule : rule ∈ entry.2.retriers) :
    rule.errorEquals ≠ [] ∨ (rule = s.defaultRetry ∧ CarriesDefault s entry) := by
  obtain ⟨name, source, hmem, hout⟩ := Scheme.mem_each hentry
  cases Scheme.retryOrigin_state hout hrule with
  | own hrules => exact Or.inl (hown (name, source) hmem rule hrules)
  | narrowed hsome => exact Or.inl hsome
  | helper hcarries => exact Or.inr ⟨rfl, hcarries⟩

/-- So it is in every scope of a compiled document. -/
theorem retriers_compiled (hshape : Accepts (Shape.state marker) Shape.playbook (.obj members))
    (hfrom : d.ReadFrom members) (hwell : WellFormed s d) (hexpand : expand s d = .ok x) :
    ∀ scope ∈ (Definition.assemble s d
        (Scheme.states { settings := s } x.context x.states)).scopes,
      ∀ entry ∈ scope.states, ∀ rule ∈ entry.2.retriers,
        rule.errorEquals ≠ [] ∨ (rule = s.defaultRetry ∧ CarriesDefault s entry) := by
  obtain ⟨htop, hnested⟩ := retriersNamed_expanded hshape hfrom hexpand
  intro scope hscope entry hentry rule hrule
  rcases List.mem_cons.mp hscope with rfl | hinside
  · rcases Entries.mem_of_mem_extend hentry with hboot | hlowered
    · simp [retriers_bootstrap entry hboot] at hrule
    · exact named_of_retryOrigin htop (Entries.mem_of_mem_ofPairs hlowered) hrule
  · have hmem := nestedScopes_of_compiled hinside
    rw [Scheme.scopes_each _ _ _ (apart_of_expand hwell hexpand)] at hmem
    obtain ⟨inner, hinner, rfl⟩ := List.mem_map.mp hmem
    exact named_of_retryOrigin (hnested inner hinner) (Entries.mem_of_mem_ofPairs hentry) hrule

end Compiled

/-- Every retry rule of a compiled playbook, at any depth, names an error class, except for default
rules without error classes that stand on merge helpers. -/
theorem compile_retriers_nonempty_iff (s : Settings) (options : Options) (v : Json) (c : Compiled)
    (hok : compile s options v = .ok c) :
    (∀ scope ∈ c.definition.scopes, ∀ entry ∈ scope.states, ∀ rule ∈ entry.2.retriers,
        rule.errorEquals ≠ []) ↔
      (s.defaultRetry.errorEquals = [] →
        ∀ scope ∈ c.definition.scopes, ∀ entry ∈ scope.states, ∀ next catches,
          entry.2 ≠ .task (mergeHelper s entry.1 next false catches)) := by
  obtain ⟨d, x, hcheck, hexpand, rfl⟩ := compile_eq_assemble hok
  obtain ⟨hfindings, hread, hwell⟩ := checkDocument_eq_ok hcheck
  obtain ⟨members, rfl, hfrom⟩ := Document.ofJson_eq_ok hread
  have horigin := retriers_compiled (accepts_of_shapeFindings hfindings) hfrom hwell hexpand
  constructor
  · intro hnamed hempty scope hscope entry hentry next catches heq
    apply hnamed scope hscope entry hentry s.defaultRetry _ hempty
    simp [heq, State.retriers, State.recovery?, mergeHelper]
  · intro hhelpers scope hscope entry hentry rule hrule
    rcases horigin scope hscope entry hentry rule hrule with hsome | ⟨rfl, next, catches, heq⟩
    · exact hsome
    · intro hempty
      exact hhelpers hempty scope hscope entry hentry next catches heq

theorem compile_retriers_nonempty_handledFan :
    ∃ c, compile .production {} (handledFan "Split" "Left") = .ok c ∧
      ∀ scope ∈ c.definition.scopes, ∀ entry ∈ scope.states, ∀ rule ∈ entry.2.retriers,
        rule.errorEquals ≠ [] := by
  obtain ⟨c, hc⟩ := exists_of_isOk (x := compile .production {} (handledFan "Split" "Left"))
    (by decide +kernel)
  have hdefault : Settings.production.defaultRetry.errorEquals ≠ [] := by decide
  exact ⟨c, hc, (compile_retriers_nonempty_iff .production {} _ c hc).mpr
    fun hempty => absurd hempty hdefault⟩

def emptyDefault : Settings := { Settings.production with defaultRetry := { errorEquals := [] } }

/-- The merge helper of a Parallel takes over a default rule that names no error class. -/
theorem helper_takes_empty_default :
    ∃ c, compile emptyDefault {} (handledFan "Split" "Left") = .ok c ∧
      ∃ helper, Entries.get? c.definition.states "merge_split" = some helper ∧
        helper.retriers = [{ errorEquals := [] }] := by
  let v := handledFan "Split" "Left"
  obtain ⟨c, hc⟩ := exists_of_isOk (x := compile emptyDefault {} v) (by decide +kernel)
  have hrules : (compile emptyDefault {} v).toOption.map
      (fun c => (Entries.get? c.definition.states "merge_split").map State.retriers) =
        some (some [{ errorEquals := [] }]) := by
    decide +kernel
  rw [hc, Except.toOption, Option.map_some, Option.some.injEq, Option.map_eq_some_iff] at hrules
  exact ⟨c, hc, hrules⟩

end StateFlow
