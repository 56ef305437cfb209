import StateFlow.Compiler
import StateFlow.Proofs.Decorators

/-!
# Compiled references stay in their scope

A playbook that compiles has been read, breaks no rule and has been lowered; `compile_eq_ok` takes
these steps apart.  `compile_closed` then says that no reference of the compiled document leads out
of its scope, whatever labels the settings choose: names may come together and a state may take
another one's place, but no name that was there is ever lost.
-/

namespace StateFlow

open StateFlow.Playbook StateFlow.Lowering

variable {s : Settings} {d : Document}

/-! ## The steps of compiling -/

theorem ruleFindings_eq_nil_iff : ruleFindings s d = [] ↔ WellFormed s d := by
  rw [ruleFindings, List.map_eq_nil_iff, breaches_eq_nil_iff]

theorem lowerDocument_eq_error {kind : Kind} (hexpand : expand s d = .error kind) :
    lowerDocument s d = .error (.handlerKind kind.name) := by
  rw [lowerDocument, lower_eq_map, hexpand]
  rfl

theorem lowerDocument_eq_ok {x : Expanded} (hexpand : expand s d = .ok x) :
    lowerDocument s d = .ok (Scheme.states { settings := s } x.context x.states) := by
  rw [lowerDocument, lower_eq_map, hexpand]
  rfl

theorem checkDocument_eq_ok {v : Json} (hok : checkDocument s v = .ok d) :
    shapeFindings s v = [] ∧ Document.ofJson v = .ok d ∧ WellFormed s d := by
  unfold checkDocument at hok
  split at hok
  · cases hok
  · split at hok
    · next hshape =>
        split at hok
        · cases hok
        · next hread =>
            split at hok
            · next hrules =>
                cases hok
                exact ⟨hshape, hread, ruleFindings_eq_nil_iff.mp hrules⟩
            · cases hok
    · cases hok

theorem compile_eq_assemble {options : Options} {v : Json} {c : Compiled}
    (hok : compile s options v = .ok c) :
    ∃ d x, checkDocument s v = .ok d ∧ expand s d = .ok x ∧
      c = assemble s options d (Scheme.states { settings := s } x.context x.states) := by
  unfold compile at hok
  cases hcheck : checkDocument s v with
  | error findings => simp [hcheck, Except.mapError, bind, Except.bind] at hok
  | ok d =>
      cases hlower : lower s d with
      | error kind =>
          simp [hcheck, lowerDocument, hlower, Except.mapError, bind, Except.bind] at hok
      | ok lowered =>
          simp only [hcheck, lowerDocument, hlower, Except.mapError, bind, Except.bind, pure,
            Except.pure, Except.ok.injEq] at hok
          obtain ⟨x, hexpand, rfl⟩ := lower_eq_ok_iff.mp hlower
          exact ⟨d, x, rfl, hexpand, hok.symm⟩

/-- A playbook compiles only by being read as a document that breaks no rule, expanded and
lowered. -/
theorem compile_eq_ok {options : Options} {v : Json} {c : Compiled}
    (hok : compile s options v = .ok c) :
    ∃ d x, Document.ofJson v = .ok d ∧ WellFormed s d ∧ expand s d = .ok x ∧
      c.definition =
        Definition.assemble s d (Scheme.states { settings := s } x.context x.states) := by
  obtain ⟨d, x, hcheck, hexpand, rfl⟩ := compile_eq_assemble hok
  obtain ⟨-, hread, hwell⟩ := checkDocument_eq_ok hcheck
  exact ⟨d, x, hread, hwell, hexpand, rfl⟩

def Definition.scopes (c : Definition) : List Scope := scopesOf c.startAt c.states

/-! ## Scopes that decorators leave -/

theorem closed_of_content {a b : Scope} (hcontent : a.content = b.content) (ha : a.Closed) :
    b.Closed := by
  simp only [Scope.content, Prod.mk.injEq] at hcontent
  rw [Scope.closed_iff] at ha ⊢
  rwa [← hcontent.1, ← hcontent.2]

theorem apart_of_content {a b : Scope} (hcontent : a.content = b.content) (ha : a.Apart s) :
    b.Apart s := by
  simp only [Scope.content, Prod.mk.injEq] at hcontent
  rwa [Scope.Apart, ← hcontent.2]

/-- Decorators bring in no scope that the document does not have. -/
theorem scopes_of_expand {x : Expanded} (hexpand : expand s d = .ok x) :
    ∀ scope ∈ nestedScopes "/States" x.states, ∃ source ∈ d.scopes,
      source.content = scope.content := by
  intro scope hscope
  rw [nestedScopes_eq_flatMap, List.mem_flatMap] at hscope
  obtain ⟨entry, hentry, hinside⟩ := hscope
  rcases mem_of_expand hexpand hentry with hown | ⟨handler, rewired, hsome, hrewired, hadded⟩
  · refine ⟨scope, ?_, rfl⟩
    have hnested : scope ∈ nestedScopes "/States" d.states := by
      rw [nestedScopes_eq_flatMap]
      exact List.mem_flatMap.mpr ⟨entry, hown, hinside⟩
    simp [Document.scopes, hnested]
  · simp only [failureEntries, List.mem_cons, List.not_mem_nil, or_false] at hadded
    rcases hadded with rfl | rfl | rfl
    · simp [State.scopes] at hinside
    · rw [scopes_rewired _ hrewired] at hinside
      have hcontent : scope.content ∈
          (State.scopes "/Decorators/TaskFailureHandler" handler).map Scope.content := by
        rw [content_state]
        exact List.mem_map_of_mem hinside
      rw [← handlerScopes_eq hrewired] at hcontent
      obtain ⟨source, hsource, heq⟩ := List.mem_map.mp hcontent
      refine ⟨source, ?_, heq⟩
      simp [Document.scopes, hsome, hsource]
    · simp [State.scopes] at hinside

theorem apart_of_expand {x : Expanded} (hwell : WellFormed s d) (hexpand : expand s d = .ok x) :
    ∀ scope ∈ nestedScopes "/States" x.states, scope.Apart s := by
  intro scope hscope
  obtain ⟨source, hsource, hcontent⟩ := scopes_of_expand hexpand scope hscope
  exact apart_of_content hcontent (hwell.helpers source hsource)

/-- The top level is closed when decorators are done with it. -/
theorem references_of_expand {x : Expanded} (hwell : WellFormed s d)
    (hexpand : expand s d = .ok x) : ∀ entry ∈ x.states, ∀ ref ∈ entry.2.references,
      ref.target ∈ Entries.keys x.states := by
  intro entry hentry ref href
  rw [mem_keys_of_expand hexpand]
  rcases mem_of_expand hexpand hentry with hown | ⟨handler, rewired, hsome, hrewired, hadded⟩
  · have htop := Scope.closed_iff.mp (hwell.closed _ (topScope_mem d))
    exact Or.inl (htop.2 entry hown ref href)
  · simp only [failureEntries, List.mem_cons, List.not_mem_nil, or_false] at hadded
    rcases hadded with rfl | rfl | rfl
    · have htarget : ref = ⟨s.failure.handler, .next⟩ := by
        simpa [Exit.references] using href
      simp [htarget, hsome]
    · rw [references_rewired hrewired, List.mem_cons, List.mem_map] at href
      rcases href with rfl | ⟨c, hc, rfl⟩
      · simp [hsome]
      · exact (hwell.handlerCatchers handler hsome c hc).imp_right fun h => ⟨by simp [hsome], h⟩
    · simp at href

/-! ## Lowered scopes -/

/-- A closed scope inside a state is lowered to a closed one. -/
theorem closed_scope {scope : Scope} (hclosed : scope.Closed) :
    (Scheme.scope { settings := s } scope).Closed := by
  rw [Scope.closed_iff] at hclosed ⊢
  have hnames : ∀ n ∈ namesWithHelpers s scope.states,
      n ∈ Entries.keys (Scheme.scope { settings := s } scope).states := by
    intro n hn
    rw [Scheme.scope, Entries.mem_keys_ofPairs, Scheme.keys_each]
    exact hn
  have hkeys : ∀ n ∈ Entries.keys scope.states,
      n ∈ Entries.keys (Scheme.scope { settings := s } scope).states :=
    fun n hn => hnames n (mem_namesWithHelpers.mpr (Or.inl hn))
  refine ⟨hkeys _ hclosed.1, fun out hout => ?_⟩
  refine Scheme.references_each rfl (fun entry hentry ref href => ?_) hnames (by simp) out
    (Entries.mem_of_mem_ofPairs hout)
  exact hkeys _ (hclosed.2 entry hentry ref href)

theorem bootstrap_references {start : String} {known : List String}
    (hlabels : ∀ n ∈ [s.bootstrap.invocationCheck, s.bootstrap.stateSetup,
      s.bootstrap.inputFormatter], n ∈ known) (hstart : start ∈ known) :
    ∀ entry ∈ Bootstrap.states s start, ∀ ref ∈ entry.2.references, ref.target ∈ known := by
  intro entry hentry ref href
  simp only [List.forall_mem_cons] at hlabels
  have hpairs := Entries.mem_of_mem_ofPairs hentry
  simp only [List.mem_cons, List.not_mem_nil, or_false] at hpairs
  rcases hpairs with rfl | rfl | rfl
  · have hrefs : ref = ⟨s.bootstrap.inputFormatter, .choiceNext⟩ ∨ ref = ⟨start, .choiceNext⟩ ∨
        ref = ⟨s.bootstrap.stateSetup, .fallback⟩ := by
      simpa [Bootstrap.invocationCheck, Bootstrap.contextRule] using href
    rcases hrefs with rfl | rfl | rfl
    · exact hlabels.2.2.1
    · exact hstart
    · exact hlabels.2.1
  · have hrefs : ref = ⟨s.bootstrap.inputFormatter, .next⟩ := by
      simpa [Bootstrap.stateSetup, Exit.references, catchReferences] using href
    exact hrefs ▸ hlabels.2.2.1
  · have hrefs : ref = ⟨start, .next⟩ := by
      simpa [Bootstrap.inputFormatter, Exit.references, catchReferences] using href
    exact hrefs ▸ hstart

/-- The top-level scope of a compiled document is closed. -/
theorem closed_top {x : Expanded} (hwell : WellFormed s d) (hexpand : expand s d = .ok x) :
    (⟨"/States", s.bootstrap.invocationCheck, Entries.extend (Bootstrap.states s d.startAt)
      (Scheme.states { settings := s } x.context x.states)⟩ : Scope).Closed := by
  set known := Entries.keys (Entries.extend (Bootstrap.states s d.startAt)
    (Scheme.states { settings := s } x.context x.states)) with hknown
  have hlabels : ∀ n ∈ [s.bootstrap.invocationCheck, s.bootstrap.stateSetup,
      s.bootstrap.inputFormatter], n ∈ known := by
    intro n hn
    rw [hknown, Entries.mem_keys_extend, Bootstrap.states, Entries.mem_keys_ofPairs]
    exact Or.inl hn
  have hnames : ∀ n ∈ namesWithHelpers s x.states, n ∈ known := by
    intro n hn
    rw [hknown, Entries.mem_keys_extend, Scheme.states, Entries.mem_keys_ofPairs,
      Scheme.keys_each]
    exact Or.inr hn
  have hkeys : ∀ n ∈ Entries.keys x.states, n ∈ known :=
    fun n hn => hnames n (mem_namesWithHelpers.mpr (Or.inl hn))
  have htop := Scope.closed_iff.mp (hwell.closed _ (topScope_mem d))
  have hstart : d.startAt ∈ known :=
    hkeys _ ((mem_keys_of_expand hexpand).mpr (Or.inl htop.1))
  have hentry : x.context.failureHandler = true → s.failure.entry ∈ known := by
    intro hctx
    rw [(expand_eq_ok hexpand).1, topContext] at hctx
    exact hkeys _ ((mem_keys_of_expand hexpand).mpr (Or.inr ⟨hctx, by simp⟩))
  rw [Scope.closed_iff]
  refine ⟨hlabels _ (by simp), fun entry hentry' ref href => ?_⟩
  rcases Entries.mem_of_mem_extend hentry' with hboot | hlowered
  · exact bootstrap_references hlabels hstart entry hboot ref href
  · refine Scheme.references_each rfl (fun own hown ref' href' => ?_) hnames hentry entry
      (Entries.mem_of_mem_ofPairs hlowered) ref href
    exact hkeys _ (references_of_expand hwell hexpand own hown ref' href')

theorem scopes_bootstrap {start path : String} {entry : String × State}
    (hentry : entry ∈ Bootstrap.states s start) : State.scopes path entry.2 = [] := by
  have hpairs := Entries.mem_of_mem_ofPairs hentry
  simp only [List.mem_cons, List.not_mem_nil, or_false] at hpairs
  rcases hpairs with rfl | rfl | rfl <;> simp [State.scopes]

/-- The scopes inside the states of a compiled document are those of lowered states. -/
theorem nestedScopes_of_compiled {start : String} {own : Entries State} {scope : Scope}
    (hscope : scope ∈ nestedScopes "/States" (Entries.extend (Bootstrap.states s start)
      (Entries.ofPairs own))) : scope ∈ nestedScopes "/States" own := by
  rw [nestedScopes_eq_flatMap, List.mem_flatMap] at hscope ⊢
  obtain ⟨entry, hentry, hinside⟩ := hscope
  rcases Entries.mem_of_mem_extend hentry with hboot | hlowered
  · simp [scopes_bootstrap hboot] at hinside
  · exact ⟨entry, Entries.mem_of_mem_ofPairs hlowered, hinside⟩

/-- Every scope of a compiled playbook, at any depth, has its start and every target of its states
among its own states. -/
theorem compile_closed (s : Settings) (options : Options) (v : Json) (c : Compiled)
    (hok : compile s options v = .ok c) :
    ∀ scope ∈ c.definition.scopes, scope.Closed := by
  obtain ⟨d, x, -, hwell, hexpand, hdefinition⟩ := compile_eq_ok hok
  rw [hdefinition]
  intro scope hscope
  rcases List.mem_cons.mp hscope with rfl | hnested
  · exact closed_top hwell hexpand
  · have hmem := nestedScopes_of_compiled hnested
    rw [Scheme.scopes_each _ _ _ (apart_of_expand hwell hexpand)] at hmem
    obtain ⟨inner, hinner, rfl⟩ := List.mem_map.mp hmem
    obtain ⟨source, hsource, hcontent⟩ := scopes_of_expand hexpand inner hinner
    exact closed_scope (closed_of_content hcontent (hwell.closed source hsource))

/-- A playbook with one Parallel, whose failure handler is a Parallel too; `inside` names the state
in the Parallel's branch. -/
def handledFan (name inside : String) : Json :=
  let parallel (leaf : String) : Json := .obj
    [("Type", .str "Parallel"),
      ("Branches", .arr [.obj
        [("StartAt", .str leaf),
          ("States", .obj [(leaf, .obj [("Type", .str "Succeed")])])]]),
      ("End", .bool true)]
  .obj
    [("Playbook", .str "HandledFan"), ("Comment", .str "Split and merge"), ("StartAt", .str name),
      ("States", .obj [(name, parallel inside)]),
      ("Decorators", .obj [("TaskFailureHandler", parallel "Notify")])]

/-- Settings under which states take the place of others: three labels come to one. -/
def oneLabel : Settings :=
  { Settings.production with failure := ⟨"Failed", "Failed", "Failed"⟩ }

theorem exists_of_isOk {ε α : Type} {x : Except ε α} (hok : x.isOk = true) : ∃ a, x = .ok a := by
  cases x with
  | error e => cases hok
  | ok a => exact ⟨a, rfl⟩

theorem compile_closed_handledFan :
    ∃ c, compile oneLabel {} (handledFan "Split" "Left") = .ok c ∧
      ∀ scope ∈ c.definition.scopes, scope.Closed := by
  obtain ⟨c, hc⟩ := exists_of_isOk (x := compile oneLabel {} (handledFan "Split" "Left"))
    (by decide +kernel)
  exact ⟨c, hc, compile_closed oneLabel {} _ c hc⟩

end StateFlow
