import StateFlow.Proofs.CompiledNames

/-!
# Names in the whole of a compiled document

The names of a document are distinct in all its scopes together.  Compiling adds names scope by
scope, so in the compiled document the names of one scope are distinct, and a name occurs in two
scopes only where compiling has added it to one of them.  `compile_names` says so, and says when
the whole document has no name twice.
-/

namespace StateFlow

open StateFlow.Playbook StateFlow.Lowering

variable {s : Settings} {d : Document} {r : Scheme} {ctx : Context}

def Definition.stateNames (c : Definition) : List String :=
  c.scopes.flatMap fun scope => Entries.keys scope.states

structure ScopeNames where
  declared : List String
  added : List String

namespace ScopeNames

/-- A compiled scope has the declared names and the added names, and each of them once. -/
def NamesOf (n : ScopeNames) (compiled : Scope) : Prop :=
  Entries.Distinct compiled.states ∧
    ∀ name, name ∈ Entries.keys compiled.states ↔ name ∈ n.declared ++ n.added

/-- No name that is added to one of two scopes is a name of the other. -/
def AddedApart (a b : ScopeNames) : Prop :=
  a.added.Disjoint (b.declared ++ b.added) ∧ b.added.Disjoint a.declared

theorem disjoint_iff {a b : ScopeNames} :
    (a.declared ++ a.added).Disjoint (b.declared ++ b.added) ↔
      a.declared.Disjoint b.declared ∧ AddedApart a b := by
  have hcomm : b.added.Disjoint a.declared ↔ a.declared.Disjoint b.added := List.disjoint_comm
  rw [AddedApart, hcomm, List.disjoint_append_left, List.disjoint_append_right]
  tauto

end ScopeNames

def innerScopes (d : Document) : List Scope :=
  nestedScopes "/States" d.states ++ handlerScopes d.failureHandler?

theorem scopes_eq_cons (d : Document) :
    d.scopes = ⟨"/States", d.startAt, d.states⟩ :: innerScopes d := rfl

def nameTable (s : Settings) (d : Document) : List ScopeNames :=
  ⟨Entries.keys d.states, s.bootstrapNames
      ++ Scope.helpers s ⟨"/States", d.startAt, d.states⟩ ++ failureNames s d.failureHandler?⟩
    :: (innerScopes d).map fun scope => ⟨Entries.keys scope.states, scope.helpers s⟩

/-! ## The scopes of a compiled document -/

/-- What stands in the output for a state has its name, or is the helper of a Parallel. -/
theorem mem_state_cases {name : String} {own : State} {out : String × State}
    (hout : out ∈ r.state ctx name own) : out.1 = name ∨
      (∃ p branches, own = .parallel p branches) ∧ out.1 = mergeHelperName r.settings name ∧
        ∃ t, out.2 = .task t := by
  cases own <;> simp only [Scheme.state, List.mem_cons, List.not_mem_nil, or_false] at hout
  case parallel p branches =>
    rcases hout with rfl | rfl
    · exact Or.inl rfl
    · exact Or.inr ⟨⟨p, branches, rfl⟩, rfl, _, rfl⟩
  all_goals
    subst hout
    exact Or.inl rfl

/-- Where no helper has the name of a state, only helpers can come out under one name. -/
theorem pairwise_each {own : Entries State} (hdistinct : Entries.Distinct own)
    (hfree : ∀ name p branches, (name, State.parallel p branches) ∈ own →
      mergeHelperName r.settings name ∉ Entries.keys own) :
    (r.each ctx own).Pairwise fun a b => a.1 = b.1 → (∃ t, a.2 = .task t) ∧ ∃ t, b.2 = .task t := by
  induction own with
  | nil => simp
  | cons entry rest ih =>
      obtain ⟨name, first⟩ := entry
      rw [Entries.Distinct, Entries.keys_cons, List.nodup_cons] at hdistinct
      have hrest := ih hdistinct.2 fun other p branches hmem hkey =>
        hfree other p branches (List.mem_cons_of_mem _ hmem) (List.mem_cons_of_mem _ hkey)
      rw [Scheme.each_cons]
      refine List.pairwise_append.mpr ⟨?_, hrest, ?_⟩
      · cases first with
        | parallel p branches =>
            have hhelper := hfree name p branches (by simp)
            simp only [Entries.keys_cons, List.mem_cons, not_or] at hhelper
            simp [Scheme.state, Ne.symm hhelper.1]
        | _ => simp [Scheme.state]
      · intro a ha b hb heq
        obtain ⟨other, own, hother, hb⟩ := Scheme.mem_each hb
        have hkey : other ∈ Entries.keys rest := Entries.mem_keys_of_mem hother
        rcases mem_state_cases ha with hname | ⟨⟨p, branches, rfl⟩, hname, htask⟩
        · rcases mem_state_cases hb with hname' | ⟨⟨q, inner, rfl⟩, hname', -⟩
          · exact absurd (hname ▸ heq ▸ hname' ▸ hkey) hdistinct.1
          · refine absurd ?_ (hfree other q inner (List.mem_cons_of_mem _ hother))
            rw [← hname', ← heq, hname]
            simp
        · rcases mem_state_cases hb with hname' | ⟨-, -, htask'⟩
          · refine absurd ?_ (hfree name p branches (by simp))
            rw [← hname, heq, hname']
            exact List.mem_cons_of_mem _ hkey
          · exact ⟨htask, htask'⟩

theorem distinct_of_expand {x : Expanded} (hwell : WellFormed s d)
    (hexpand : expand s d = .ok x) : Entries.Distinct x.states := by
  have hown : Entries.Distinct d.states :=
    distinct_of_mem_scopes hwell.names _ (topScope_mem d)
  obtain ⟨-, ⟨-, hstates⟩ | ⟨_, _, -, -, hstates⟩⟩ := expand_eq_ok hexpand
  · rwa [hstates]
  · rw [hstates]
    exact Entries.distinct_extend _ hown

theorem helper_free_of_expand {x : Expanded} (hlabels : s.LabelsApart) (hwell : WellFormed s d)
    (hexpand : expand s d = .ok x) {name : String} {p : Parallel} {branches : List Machine}
    (hmem : (name, State.parallel p branches) ∈ x.states) :
    mergeHelperName s name ∉ Entries.keys x.states := by
  intro hkey
  rcases (mem_keys_of_expand hexpand).mp hkey with hown | ⟨-, hlabel⟩
  · rcases mem_of_expand hexpand hmem with hmem' | ⟨handler, rewired, hsome, hrewired, hadded⟩
    · exact (hwell.helpers _ (topScope_mem d)).helper_free hmem' hown
    · simp only [failureEntries, List.mem_cons, Prod.mk.injEq, reduceCtorEq, and_false,
        List.not_mem_nil, or_false, false_or] at hadded
      obtain ⟨rfl, rfl⟩ := hadded
      obtain ⟨t, -, heq⟩ | ⟨q, inner, rfl, -⟩ := rewireHandler_eq_ok hrewired
      · cases heq
      · exact hwell.handlerHelper q inner hsome hown
  · exact hlabels.helpers name (mem_reservedNames.mpr (Or.inr hlabel))

theorem bootstrap_not_mem_expand {x : Expanded} (hlabels : s.LabelsApart)
    (hwell : WellFormed s d) (hexpand : expand s d = .ok x) :
    s.bootstrapNames.Disjoint (namesWithHelpers s x.states) := by
  intro name hboot hname
  rw [namesWithHelpers_expand hlabels hwell hexpand, List.mem_append] at hname
  rcases hname with hown | hfailure
  · exact label_not_mem_own hlabels hwell (mem_reservedNames.mpr (Or.inl hboot)) hown
  · exact (List.nodup_append'.mp (nodup_failureNames hlabels d.failureHandler?)).2.2 hboot hfailure

/-- The scopes inside the states of a compiled document are those of the expanded document, each
lowered: a helper that takes another one's place takes no scope away. -/
theorem nestedScopes_assemble {x : Expanded} (hlabels : s.LabelsApart) (hwell : WellFormed s d)
    (hexpand : expand s d = .ok x) :
    nestedScopes "/States"
        (Definition.assemble s d (Scheme.states { settings := s } x.context x.states)).states =
      (nestedScopes "/States" x.states).map (Scheme.scope { settings := s }) := by
  let r : Scheme := { settings := s }
  let inside := fun entry : String × State => State.scopes ("/States" ++ "/" ++ entry.1) entry.2
  have hkeys : ∀ {name}, name ∈ Entries.keys (r.each x.context x.states) ↔
      name ∈ namesWithHelpers s x.states := by
    intro name
    rw [Scheme.keys_each]
  have hboot : ∀ a ∈ Bootstrap.states s d.startAt,
      ∀ b ∈ Entries.ofPairs (r.each x.context x.states),
        a.1 = b.1 → inside a = [] ∧ inside b = [] := by
    intro a ha b hb heq
    have hlabel : a.1 ∈ s.bootstrapNames := Entries.mem_keys_ofPairs.mp (List.mem_map_of_mem ha)
    have hname := hkeys.mp (Entries.mem_keys_ofPairs.mp (List.mem_map_of_mem hb))
    exact absurd (heq ▸ hname) (bootstrap_not_mem_expand hlabels hwell hexpand hlabel)
  have hlowered : (Entries.ofPairs (r.each x.context x.states)).Pairwise
      fun a b => a.1 = b.1 → inside a = [] ∧ inside b = [] := by
    have hdistinct := Entries.distinct_ofPairs (r.each x.context x.states)
    rw [Entries.Distinct, Entries.keys, List.Nodup, List.pairwise_map] at hdistinct
    exact hdistinct.imp fun hne heq => absurd heq hne
  have heach : (r.each x.context x.states).Pairwise
      fun a b => a.1 = b.1 → inside a = [] ∧ inside b = [] := by
    refine (pairwise_each (distinct_of_expand hwell hexpand) fun name p branches =>
      helper_free_of_expand hlabels hwell hexpand).imp fun hclash heq => ?_
    obtain ⟨⟨t, ht⟩, t', ht'⟩ := hclash heq
    exact ⟨by simp [inside, ht, State.scopes], by simp [inside, ht', State.scopes]⟩
  have hnone : (Bootstrap.states s d.startAt).flatMap inside = [] :=
    List.flatMap_eq_nil_iff.mpr fun _ hentry => scopes_bootstrap hentry
  calc nestedScopes "/States" (Entries.extend (Bootstrap.states s d.startAt)
        (Entries.ofPairs (r.each x.context x.states)))
      = (Bootstrap.states s d.startAt).flatMap inside
          ++ (Entries.ofPairs (r.each x.context x.states)).flatMap inside := by
        rw [nestedScopes_eq_flatMap]
        exact Entries.flatMap_extend inside hboot hlowered
    _ = (r.each x.context x.states).flatMap inside := by
        rw [hnone, List.nil_append, Entries.flatMap_ofPairs inside heach]
    _ = nestedScopes "/States" (r.each x.context x.states) :=
        (nestedScopes_eq_flatMap _ _).symm
    _ = (nestedScopes "/States" x.states).map r.scope :=
        Scheme.scopes_each _ _ _ (apart_of_expand hwell hexpand)

/-- Apart from the places where they stand, the scopes inside the expanded top level are those
inside the document, in the same order. -/
theorem content_expand {x : Expanded} (hlabels : s.LabelsApart) (hwell : WellFormed s d)
    (hexpand : expand s d = .ok x) :
    (nestedScopes "/States" x.states).map Scope.content =
      (innerScopes d).map Scope.content := by
  rw [innerScopes]
  obtain ⟨hnone, hstates⟩ | ⟨handler, rewired, hsome, hrewired, hstates⟩ :=
    expand_append hlabels hwell hexpand
  · simp [hstates, hnone, handlerScopes]
  · have hadded : nestedScopes "/States" (failureEntries s rewired) =
        State.scopes ("/States" ++ "/" ++ s.failure.handler) handler := by
      rw [← scopes_rewired _ hrewired]
      simp [failureEntries, nestedScopes, State.scopes]
    rw [hstates, hsome, nestedScopes_append, List.map_append, List.map_append, hadded,
      handlerScopes_eq hrewired, content_state]

/-! ## Names scope by scope -/

theorem namesOf_top {x : Expanded} (hlabels : s.LabelsApart) (hwell : WellFormed s d)
    (hexpand : expand s d = .ok x) (path start : String) :
    ScopeNames.NamesOf
      ⟨Entries.keys d.states, s.bootstrapNames
        ++ Scope.helpers s ⟨"/States", d.startAt, d.states⟩ ++ failureNames s d.failureHandler?⟩
      ⟨path, start,
        (Definition.assemble s d (Scheme.states { settings := s } x.context x.states)).states⟩ := by
  refine ⟨Entries.distinct_extend _ (Entries.distinct_ofPairs _), fun name => ?_⟩
  have hown : name ∈ namesWithHelpers s d.states ↔ name ∈ Entries.keys d.states ∨
      name ∈ Scope.helpers s ⟨"/States", d.startAt, d.states⟩ := by
    rw [(namesWithHelpers_perm s ⟨"/States", d.startAt, d.states⟩).mem_iff, List.mem_append]
  have hboot : name ∈ Entries.keys (Bootstrap.states s d.startAt) ↔ name ∈ s.bootstrapNames :=
    Entries.mem_keys_ofPairs
  have hlowered : name ∈ Entries.keys (Scheme.states { settings := s } x.context x.states) ↔
      name ∈ namesWithHelpers s d.states ++ failureNames s d.failureHandler? := by
    rw [Scheme.states, Entries.mem_keys_ofPairs, Scheme.keys_each,
      ← namesWithHelpers_expand hlabels hwell hexpand]
  simp only [Definition.assemble, Entries.mem_keys_extend, hboot, hlowered, List.mem_append, hown]
  tauto

theorem namesOf_scope {source compiled : Scope}
    (hcontent : (Scheme.scope { settings := s } source).content = compiled.content) :
    ScopeNames.NamesOf ⟨Entries.keys source.states, source.helpers s⟩ compiled := by
  have hstates : Entries.ofPairs (Scheme.each { settings := s } {} source.states) =
      compiled.states := congrArg Prod.snd hcontent
  rw [ScopeNames.NamesOf, ← hstates]
  refine ⟨Entries.distinct_ofPairs _, fun name => ?_⟩
  rw [Entries.mem_keys_ofPairs, Scheme.keys_each]
  exact (namesWithHelpers_perm s source).mem_iff

/-- The scopes inside the states of a compiled document are those of the document, each lowered, in
the same order; only the places where they stand may differ. -/
theorem scopes_assemble {x : Expanded} (hlabels : s.LabelsApart) (hwell : WellFormed s d)
    (hexpand : expand s d = .ok x) :
    List.Forall₂
      (fun source compiled => (Scheme.scope { settings := s } source).content = compiled.content)
      (innerScopes d) (nestedScopes "/States"
        (Definition.assemble s d (Scheme.states { settings := s } x.context x.states)).states) := by
  let r : Scheme := { settings := s }
  -- Lowering a scope does not look at the place where it stands.
  let lowerContent : String × Entries State → String × Entries State :=
    fun content => (r.rename content.1, Entries.ofPairs (r.each {} content.2))
  have hcontent : ((innerScopes d).map r.scope).map Scope.content =
      (nestedScopes "/States"
        (Definition.assemble s d (Scheme.states r x.context x.states)).states).map
          Scope.content := by
    calc ((innerScopes d).map r.scope).map Scope.content
        = ((innerScopes d).map Scope.content).map lowerContent := by
          simp only [List.map_map]
          rfl
      _ = ((nestedScopes "/States" x.states).map Scope.content).map lowerContent := by
          rw [content_expand hlabels hwell hexpand]
      _ = ((nestedScopes "/States" x.states).map r.scope).map Scope.content := by
          simp only [List.map_map]
          rfl
      _ = _ := by rw [nestedScopes_assemble hlabels hwell hexpand]
  have hrows := List.forall₂_eq_eq_eq ▸ hcontent
  rwa [List.forall₂_map_left_iff, List.forall₂_map_left_iff, List.forall₂_map_right_iff] at hrows

/-- The names of every scope of a compiled document are those of its row in the table. -/
theorem namesOf_scopes {x : Expanded} (hlabels : s.LabelsApart) (hwell : WellFormed s d)
    (hexpand : expand s d = .ok x) :
    List.Forall₂ ScopeNames.NamesOf (nameTable s d)
      (Definition.assemble s d (Scheme.states { settings := s } x.context x.states)).scopes := by
  refine .cons (namesOf_top hlabels hwell hexpand _ _) ?_
  rw [List.forall₂_map_left_iff]
  exact (scopes_assemble hlabels hwell hexpand).imp fun source compiled => namesOf_scope

theorem distinct_of_rows {table : List ScopeNames} {scopes : List Scope}
    (hrows : List.Forall₂ ScopeNames.NamesOf table scopes) :
    ∀ scope ∈ scopes, Entries.Distinct scope.states := by
  induction hrows with
  | nil => simp
  | cons hrow _ ih => exact List.forall_mem_cons.mpr ⟨hrow.1, ih⟩

/-- Scopes share no name exactly if their rows share none. -/
theorem pairwise_disjoint_iff {table : List ScopeNames} {scopes : List Scope}
    (hrows : List.Forall₂ ScopeNames.NamesOf table scopes) :
    scopes.Pairwise (fun a b => (Entries.keys a.states).Disjoint (Entries.keys b.states)) ↔
      table.Pairwise fun a b => (a.declared ++ a.added).Disjoint (b.declared ++ b.added) := by
  induction hrows with
  | nil => simp
  | @cons row scope rows scopes hrow hrest ih =>
      have hhead : (∀ b ∈ scopes, (Entries.keys scope.states).Disjoint (Entries.keys b.states)) ↔
          ∀ b ∈ rows, (row.declared ++ row.added).Disjoint (b.declared ++ b.added) := by
        clear ih
        induction hrest with
        | nil => simp
        | cons hfirst _ ih =>
            rw [List.forall_mem_cons, List.forall_mem_cons, ih]
            simp only [List.Disjoint, hrow.2, hfirst.2]
      rw [List.pairwise_cons, List.pairwise_cons, ih, hhead]

/-- A document that breaks no rule declares no name in two scopes. -/
theorem pairwise_declared (hwell : WellFormed s d) :
    (nameTable s d).Pairwise fun a b => a.declared.Disjoint b.declared := by
  have hdeclared : (nameTable s d).map ScopeNames.declared =
      d.scopes.map fun scope => Entries.keys scope.states := by
    simp [nameTable, scopes_eq_cons]
  have hscopes := (List.nodup_flatMap.mp hwell.names).2
  rw [← List.pairwise_map, hdeclared, List.pairwise_map]
  exact hscopes

/-- With the settings of production: every scope of a compiled playbook has the names that the
document declares there and those that compiling adds, each once; and the whole has no name twice
exactly if no name that is added to one scope is a name of another. -/
theorem compile_names (options : Options) (v : Json) (c : Compiled)
    (hok : compile .production options v = .ok c) :
    ∃ d, Document.ofJson v = .ok d ∧ d.stateNames.Nodup ∧
      List.Forall₂ ScopeNames.NamesOf (nameTable .production d) c.definition.scopes ∧
        (c.definition.stateNames.Nodup ↔
          (nameTable .production d).Pairwise ScopeNames.AddedApart) := by
  obtain ⟨d, x, hread, hwell, hexpand, hdefinition⟩ := compile_eq_ok hok
  have hrows := namesOf_scopes production_labelsApart hwell hexpand
  rw [← hdefinition] at hrows
  refine ⟨d, hread, hwell.names, hrows, ?_⟩
  calc c.definition.stateNames.Nodup
      ↔ c.definition.scopes.Pairwise
          (fun a b => (Entries.keys a.states).Disjoint (Entries.keys b.states)) := by
        rw [Definition.stateNames, List.nodup_flatMap]
        exact ⟨fun h => h.2, fun h => ⟨distinct_of_rows hrows, h⟩⟩
    _ ↔ (nameTable .production d).Pairwise
          (fun a b => a.declared.Disjoint b.declared ∧ a.AddedApart b) := by
        simp only [pairwise_disjoint_iff hrows, ScopeNames.disjoint_iff]
    _ ↔ (nameTable .production d).Pairwise ScopeNames.AddedApart := by
        rw [List.pairwise_and_iff]
        exact ⟨fun h => h.2, fun h => ⟨pairwise_declared hwell, h⟩⟩

theorem compile_names_handledFan :
    ∃ c, compile .production {} (handledFan "Split" "Left") = .ok c ∧
      ∃ d, Document.ofJson (handledFan "Split" "Left") = .ok d ∧ d.stateNames.Nodup ∧
        List.Forall₂ ScopeNames.NamesOf (nameTable .production d) c.definition.scopes ∧
          (nameTable .production d).Pairwise ScopeNames.AddedApart ∧
            c.definition.stateNames.Nodup := by
  let v := handledFan "Split" "Left"
  obtain ⟨c, hc⟩ := exists_of_isOk (x := compile .production {} v) (by decide +kernel)
  obtain ⟨d, hd, hdeclared, hrows, hiff⟩ := compile_names {} v c hc
  have hnodup : (compile .production {} v).toOption.map
      (fun c => decide c.definition.stateNames.Nodup) = some true := by decide +kernel
  simp only [hc, Except.toOption, Option.map_some, Option.some.injEq, decide_eq_true_eq] at hnodup
  exact ⟨c, hc, d, hd, hdeclared, hrows, hiff.mp hnodup, hnodup⟩

/-- A state in a branch may have the name of the merge helper that its Parallel gets. -/
theorem inner_name_repeated :
    ∃ c, compile .production {} (handledFan "Split" "merge_split") = .ok c ∧
      ¬ c.definition.stateNames.Nodup := by
  let v := handledFan "Split" "merge_split"
  obtain ⟨c, hc⟩ := exists_of_isOk (x := compile .production {} v) (by decide +kernel)
  have hrepeat : (compile .production {} v).toOption.map
      (fun c => decide c.definition.stateNames.Nodup) = some false := by decide +kernel
  rw [hc] at hrepeat
  exact ⟨c, hc, by simpa [Except.toOption] using hrepeat⟩

end StateFlow
