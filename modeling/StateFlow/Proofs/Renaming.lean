import StateFlow.Proofs.Lowering

/-!
# Renaming before lowering and while lowering

Lowering takes every reference of the source through a map of names.  `State.renamed` does this to
the source alone, and `states_eq_renamed` says that the two come to the same: the names that
lowering itself brings in, those of merge helpers and of the failure handler, are never renamed, and
no reference of the source is left out.
-/

namespace StateFlow.Playbook

/-! ## Renamed references -/

def Reference.renamed (f : String → String) (ref : Reference) : Reference :=
  { ref with target := f ref.target }

def Exit.renamed (f : String → String) (e : Exit) : Exit := { e with next := e.next.map f }

def Catcher.renamed (f : String → String) (c : Catcher) : Catcher := { c with next := f c.next }

def Recovery.renamed (f : String → String) (r : Recovery) : Recovery :=
  { r with catchers := r.catchers.map (List.map (Catcher.renamed f)) }

def ChoiceRule.renamed (f : String → String) (rule : ChoiceRule) : ChoiceRule :=
  { rule with next := f rule.next }

def Task.renamed (f : String → String) (t : Task) : Task :=
  { t with recovery := t.recovery.renamed f, exit := t.exit.renamed f }

def Choice.renamed (f : String → String) (c : Choice) : Choice :=
  { c with rules := c.rules.map (ChoiceRule.renamed f), fallback := c.fallback.map f }

def Parallel.renamed (f : String → String) (p : Parallel) : Parallel :=
  { p with recovery := p.recovery.renamed f, exit := p.exit.renamed f }

def MapOver.renamed (f : String → String) (m : MapOver) : MapOver :=
  { m with recovery := m.recovery.renamed f, exit := m.exit.renamed f }

mutual

/-- A state whose references, and those of all states inside it, have gone through a map of names.
The starts of machines are references too; the names of states are none. -/
def State.renamed (f : String → String) : State → State
  | .pass s => .pass { s with exit := s.exit.renamed f }
  | .succeed h => .succeed h
  | .fail s => .fail s
  | .wait s => .wait { s with exit := s.exit.renamed f }
  | .task t => .task (t.renamed f)
  | .interaction t => .interaction (t.renamed f)
  | .choice c => .choice (c.renamed f)
  | .parallel p branches => .parallel (p.renamed f) (machinesRenamed f branches)
  | .map m iterator => .map (m.renamed f) (Machine.renamed f iterator)

def Machine.renamed (f : String → String) : Machine → Machine
  | ⟨comment, startAt, states, extra⟩ => ⟨comment, f startAt, statesRenamed f states, extra⟩

def machinesRenamed (f : String → String) : List Machine → List Machine
  | [] => []
  | m :: rest => Machine.renamed f m :: machinesRenamed f rest

def statesRenamed (f : String → String) : List (String × State) → Entries State
  | [] => []
  | (name, s) :: rest => (name, State.renamed f s) :: statesRenamed f rest

end

def Scope.renamed (f : String → String) (sc : Scope) : Scope :=
  ⟨sc.path, f sc.startAt, statesRenamed f sc.states⟩

theorem statesRenamed_eq (f : String → String) (own : Entries State) :
    statesRenamed f own = Entries.mapValues (State.renamed f) own := by
  induction own with
  | nil => rfl
  | cons entry own ih => rw [statesRenamed, ih, Entries.mapValues_cons]

/-! ## What renaming changes -/

theorem Exit.references_renamed (f : String → String) (e : Exit) :
    (e.renamed f).references = e.references.map (Reference.renamed f) := by
  obtain ⟨next, isEnd⟩ := e
  cases next <;> rfl

theorem catchReferences_renamed (f : String → String) (r : Recovery) :
    catchReferences (r.renamed f).catchers =
      (catchReferences r.catchers).map (Reference.renamed f) := by
  obtain ⟨retry, catchers⟩ := r
  cases catchers with
  | none => rfl
  | some rules =>
      simp [catchReferences, Recovery.renamed, Catcher.renamed, Reference.renamed,
        Function.comp_def]

/-- Every reference of a state is renamed. -/
theorem State.references_renamed (f : String → String) (s : State) :
    (s.renamed f).references = s.references.map (Reference.renamed f) := by
  cases s with
  | pass s => simp [State.renamed, Exit.references_renamed]
  | succeed h => simp [State.renamed]
  | fail s => simp [State.renamed]
  | wait s => simp [State.renamed, Exit.references_renamed]
  | task t =>
      simp [State.renamed, Task.renamed, Exit.references_renamed, catchReferences_renamed]
  | interaction t =>
      simp [State.renamed, Task.renamed, Exit.references_renamed, catchReferences_renamed]
  | choice c =>
      obtain ⟨header, rules, fallback⟩ := c
      cases fallback <;>
        simp [State.renamed, Choice.renamed, ChoiceRule.renamed, Reference.renamed,
          Function.comp_def]
  | parallel p branches =>
      simp [State.renamed, Parallel.renamed, Exit.references_renamed, catchReferences_renamed]
  | map m iterator =>
      simp [State.renamed, MapOver.renamed, Exit.references_renamed, catchReferences_renamed]

theorem State.kind_renamed (f : String → String) (s : State) : (s.renamed f).kind = s.kind := by
  cases s <;> simp [State.renamed, State.kind]

mutual

theorem scopes_renamed_machine (f : String → String) (path : String) : (m : Machine) →
    Machine.scopes path (m.renamed f) = (Machine.scopes path m).map (Scope.renamed f)
  | ⟨comment, startAt, states, extra⟩ => by
      rw [Machine.renamed, Machine.scopes, Machine.scopes, List.map_cons,
        scopes_renamed_nested f path states]
      rfl

theorem scopes_renamed_state (f : String → String) (path : String) : (s : State) →
    State.scopes path (s.renamed f) = (State.scopes path s).map (Scope.renamed f)
  | .pass _ | .succeed _ | .fail _ | .wait _ | .task _ | .interaction _ | .choice _ => by
      simp [State.renamed, State.scopes]
  | .parallel _ branches => by
      rw [State.renamed, State.scopes, State.scopes, scopes_renamed_branches f path 0 branches]
  | .map _ iterator => by
      rw [State.renamed, State.scopes, State.scopes, scopes_renamed_machine f _ iterator]

theorem scopes_renamed_branches (f : String → String) (path : String) (n : Nat) :
    (ms : List Machine) →
      branchScopes path n (machinesRenamed f ms) =
        (branchScopes path n ms).map (Scope.renamed f)
  | [] => by simp [machinesRenamed, branchScopes]
  | m :: rest => by
      rw [machinesRenamed, branchScopes, branchScopes, List.map_append,
        scopes_renamed_machine f _ m, scopes_renamed_branches f path (n + 1) rest]

/-- The scopes of renamed states are those of the states, each renamed. -/
theorem scopes_renamed_nested (f : String → String) (path : String) :
    (own : List (String × State)) →
      nestedScopes path (statesRenamed f own) = (nestedScopes path own).map (Scope.renamed f)
  | [] => by simp [statesRenamed, nestedScopes]
  | (name, s) :: rest => by
      rw [statesRenamed, nestedScopes, nestedScopes, List.map_append,
        scopes_renamed_state f _ s, scopes_renamed_nested f path rest]

end

/-! ## What renaming leaves -/

theorem Exit.renamed_comp (f g : String → String) (e : Exit) :
    (e.renamed f).renamed g = e.renamed (g ∘ f) := by
  simp [Exit.renamed]

theorem Catcher.renamed_comp (f g : String → String) :
    Catcher.renamed g ∘ Catcher.renamed f = Catcher.renamed (g ∘ f) := rfl

theorem Recovery.renamed_comp (f g : String → String) (r : Recovery) :
    (r.renamed f).renamed g = r.renamed (g ∘ f) := by
  simp [Recovery.renamed, Catcher.renamed_comp]

theorem ChoiceRule.renamed_comp (f g : String → String) :
    ChoiceRule.renamed g ∘ ChoiceRule.renamed f = ChoiceRule.renamed (g ∘ f) := rfl

theorem Choice.renamed_comp (f g : String → String) (c : Choice) :
    (c.renamed f).renamed g = c.renamed (g ∘ f) := by
  simp [Choice.renamed, ChoiceRule.renamed_comp]

mutual

/-- Renaming twice is renaming once by both maps. -/
theorem State.renamed_comp (f g : String → String) : (s : State) →
    (s.renamed f).renamed g = s.renamed (g ∘ f)
  | .pass _ | .wait _ => by simp [State.renamed, Exit.renamed_comp]
  | .succeed _ | .fail _ => by simp [State.renamed]
  | .task _ | .interaction _ => by
      simp [State.renamed, Task.renamed, Exit.renamed_comp, Recovery.renamed_comp]
  | .choice _ => by simp [State.renamed, Choice.renamed_comp]
  | .parallel _ branches => by
      simp [State.renamed, Parallel.renamed, Exit.renamed_comp, Recovery.renamed_comp,
        machinesRenamed_comp f g branches]
  | .map _ iterator => by
      simp [State.renamed, MapOver.renamed, Exit.renamed_comp, Recovery.renamed_comp,
        Machine.renamed_comp f g iterator]

theorem Machine.renamed_comp (f g : String → String) : (m : Machine) →
    (m.renamed f).renamed g = m.renamed (g ∘ f)
  | ⟨comment, startAt, states, extra⟩ => by
      simp [Machine.renamed, statesRenamed_comp f g states]

theorem machinesRenamed_comp (f g : String → String) : (ms : List Machine) →
    machinesRenamed g (machinesRenamed f ms) = machinesRenamed (g ∘ f) ms
  | [] => by simp [machinesRenamed]
  | m :: rest => by
      simp [machinesRenamed, Machine.renamed_comp f g m, machinesRenamed_comp f g rest]

theorem statesRenamed_comp (f g : String → String) : (own : List (String × State)) →
    statesRenamed g (statesRenamed f own) = statesRenamed (g ∘ f) own
  | [] => by simp [statesRenamed]
  | (name, s) :: rest => by
      simp [statesRenamed, State.renamed_comp f g s, statesRenamed_comp f g rest]

end

/-- Every name that states refer to: their own references, and the starts and references of all
scopes inside them. -/
def targets (own : Entries State) : List String :=
  (own.flatMap fun entry => entry.2.references.map Reference.target)
    ++ (nestedScopes "/States" own).flatMap fun sc =>
      sc.startAt :: sc.references.map fun ref => ref.2.target

def withoutTargets (own : Entries State) : Entries State := statesRenamed (fun _ => "") own

/-- Every name that some states refer to has gone through a map, and nothing else is changed. -/
structure OnlyRenamed (f : String → String) (own renamed : Entries State) : Prop where
  targets : targets renamed = (targets own).map f
  others : withoutTargets renamed = withoutTargets own

theorem Scope.references_renamed (f : String → String) (sc : Scope) :
    (sc.renamed f).references =
      sc.references.map fun ref => (ref.1, ref.2.renamed f) := by
  simp only [Scope.references, Scope.renamed, statesRenamed_eq, Entries.mapValues,
    List.flatMap_map, List.map_flatMap, State.references_renamed, List.map_map]
  rfl

theorem onlyRenamed (f : String → String) (own : Entries State) :
    OnlyRenamed f own (statesRenamed f own) where
  targets := by
    have htop : (statesRenamed f own).flatMap
        (fun entry => entry.2.references.map Reference.target) =
          (own.flatMap fun entry => entry.2.references.map Reference.target).map f := by
      simp only [statesRenamed_eq, Entries.mapValues, List.flatMap_map, List.map_flatMap,
        State.references_renamed, List.map_map]
      rfl
    have hscope : ∀ sc : Scope,
        ((sc.renamed f).startAt :: (sc.renamed f).references.map fun ref => ref.2.target) =
          (sc.startAt :: sc.references.map fun ref => ref.2.target).map f := by
      intro sc
      rw [Scope.references_renamed, List.map_map, List.map_cons, List.map_map]
      rfl
    simp only [Playbook.targets, htop, scopes_renamed_nested, List.flatMap_map, hscope,
      List.map_append, List.map_flatMap]
  others := statesRenamed_comp f (fun _ => "") own

end StateFlow.Playbook

namespace StateFlow.Lowering.Scheme

open StateFlow.Playbook

variable {r : Scheme} {ctx : Context} {name : String}

/-! ## Lowering what has been renamed -/

def plain (r : Scheme) : Scheme := { settings := r.settings }

theorem exit_eq_renamed (e : Exit) : r.exit e = r.plain.exit (e.renamed r.rename) := by
  simp [exit, plain, Exit.renamed]

theorem renameCatchers_eq_renamed (own : Recovery) :
    r.renameCatchers own.catchers = r.plain.renameCatchers (own.renamed r.rename).catchers := by
  obtain ⟨retry, _ | rules⟩ := own
  · rfl
  · simp [renameCatchers, plain, Recovery.renamed, Catcher.renamed]

/-- The catch rule for failures comes in behind the others and is not renamed. -/
theorem catchers_eq_renamed (own : Recovery) :
    r.catchers ctx name own.catchers =
      r.plain.catchers ctx name (own.renamed r.rename).catchers := by
  unfold catchers
  rw [renameCatchers_eq_renamed]
  rfl

theorem choice_eq_renamed (c : Choice) : r.choice c = r.plain.choice (c.renamed r.rename) := by
  simp [choice, plain, Choice.renamed, ChoiceRule.renamed, Function.comp_def]

theorem work_eq_renamed (t : Task) :
    r.work ctx name t = r.plain.work ctx name (t.renamed r.rename) := by
  unfold work
  rw [catchers_eq_renamed, exit_eq_renamed]
  rfl

theorem task_eq_renamed (t : Task) :
    r.task ctx name t = r.plain.task ctx name (t.renamed r.rename) := by
  unfold task
  rw [work_eq_renamed]

theorem interaction_eq_renamed (t : Task) :
    r.interaction ctx name t = r.plain.interaction ctx name (t.renamed r.rename) := by
  unfold interaction
  rw [work_eq_renamed]
  rfl

theorem parallel_eq_renamed (p : Parallel) :
    r.parallel ctx name p = r.plain.parallel ctx name (p.renamed r.rename) := by
  unfold parallel
  rw [catchers_eq_renamed]
  rfl

theorem helper_eq_renamed (p : Parallel) :
    r.helper ctx name p = r.plain.helper ctx name (p.renamed r.rename) := by
  unfold helper
  rw [exit_eq_renamed]
  rfl

theorem mapOver_eq_renamed (m : MapOver) : r.mapOver m = r.plain.mapOver (m.renamed r.rename) := by
  unfold mapOver
  rw [renameCatchers_eq_renamed, exit_eq_renamed]
  rfl

mutual

/-- What stands for a state is what stands for the renamed state when nothing is renamed. -/
theorem state_eq_renamed (ctx : Context) (name : String) : (s : State) →
    r.state ctx name s = r.plain.state ctx name (s.renamed r.rename)
  | .pass s => by rw [state, State.renamed, state, exit_eq_renamed]
  | .succeed h => by rw [state, State.renamed, state]
  | .fail s => by rw [state, State.renamed, state]
  | .wait s => by rw [state, State.renamed, state, exit_eq_renamed]
  | .task t => by rw [state, State.renamed, state, task_eq_renamed]
  | .interaction t => by rw [state, State.renamed, state, interaction_eq_renamed]
  | .choice c => by rw [state, State.renamed, state, choice_eq_renamed]
  | .parallel p branches => by
      rw [state, State.renamed, state, parallel_eq_renamed, helper_eq_renamed,
        machines_eq_renamed branches]
      rfl
  | .map m iterator => by
      rw [state, State.renamed, state, mapOver_eq_renamed, machine_eq_renamed iterator]

theorem machine_eq_renamed : (m : Machine) → r.machine m = r.plain.machine (m.renamed r.rename)
  | ⟨comment, startAt, own, extra⟩ => by
      rw [machine, Machine.renamed, machine, each_eq_renamed {} own]
      rfl

theorem machines_eq_renamed : (ms : List Machine) →
    r.machines ms = r.plain.machines (machinesRenamed r.rename ms)
  | [] => by simp [machines, machinesRenamed]
  | m :: rest => by
      rw [machines, machinesRenamed, machines, machine_eq_renamed m, machines_eq_renamed rest]

theorem each_eq_renamed (ctx : Context) : (own : List (String × State)) →
    r.each ctx own = r.plain.each ctx (statesRenamed r.rename own)
  | [] => by simp [statesRenamed]
  | (name, s) :: rest => by
      rw [each_cons, statesRenamed, each_cons, state_eq_renamed ctx name s,
        each_eq_renamed ctx rest]

end

/-! ## References and scopes of the output -/

/-- The names under which a state comes out and the references of what comes out: those of the
source renamed, the one to a merge helper and the one to the failure handler as they are. -/
def loweredReferences (r : Scheme) (ctx : Context) (name : String) :
    State → List (String × List Reference)
  | .parallel p _ =>
    let failure := r.failureReferences ctx name .parallel
    [(name, ⟨mergeHelperName r.settings name, .next⟩
        :: (catchReferences p.recovery.catchers).map (Reference.renamed r.rename) ++ failure),
      (mergeHelperName r.settings name,
        p.exit.continuation.references.map (Reference.renamed r.rename) ++ failure)]
  | s => [(name, s.references.map (Reference.renamed r.rename)
      ++ r.failureReferences ctx name s.kind)]

theorem continuation_renamed (f : String → String) (e : Exit) :
    (e.renamed f).continuation = e.continuation.renamed f := by
  obtain ⟨next, isEnd⟩ := e
  rcases isEnd with _ | _ | _ <;> rcases next with _ | target <;> rfl

theorem references_of_ne_parallel {s : State} (hkind : s.kind ≠ .parallel) :
    (r.state ctx name s).map (fun out => (out.1, out.2.references)) =
      [(name, s.references.map (Reference.renamed r.rename)
        ++ r.failureReferences ctx name s.kind)] := by
  have hrenamed : (s.renamed r.rename).kind ≠ .parallel := by rwa [State.kind_renamed]
  obtain ⟨out, hout, -, hrefs⟩ :=
    state_of_ne_parallel (r := r.plain) rfl ctx name hrenamed
  rw [state_eq_renamed, hout, List.map_singleton, hrefs, State.references_renamed,
    State.kind_renamed]
  rfl

theorem references_state (ctx : Context) (name : String) (s : State) :
    (r.state ctx name s).map (fun out => (out.1, out.2.references)) =
      r.loweredReferences ctx name s := by
  by_cases hkind : s.kind = .parallel
  · cases s with
    | parallel p branches =>
        have hnames : r.plain.settings = r.settings := rfl
        rw [state_eq_renamed, State.renamed, state, List.map_cons, List.map_singleton,
          references_parallel rfl, references_helper rfl, Parallel.renamed, hnames,
          catchReferences_renamed, continuation_renamed, Exit.references_renamed]
        rfl
    | _ => cases hkind
  · rw [references_of_ne_parallel hkind]
    cases s with
    | parallel p branches => exact absurd rfl hkind
    | _ => rfl

theorem references_each_eq (own : Entries State) :
    (r.each ctx own).map (fun out => (out.1, out.2.references)) =
      own.flatMap fun entry => r.loweredReferences ctx entry.1 entry.2 := by
  induction own with
  | nil => simp
  | cons entry own ih =>
      rw [each_cons, List.map_append, references_state, ih, List.flatMap_cons]

theorem nestedScopes_ofPairs_subset (path : String) (pairs : Entries State) :
    nestedScopes path (Entries.ofPairs pairs) ⊆ nestedScopes path pairs := by
  intro sc hsc
  rw [nestedScopes_eq_flatMap, List.mem_flatMap] at hsc ⊢
  obtain ⟨entry, hentry, hinside⟩ := hsc
  exact ⟨entry, Entries.mem_of_mem_ofPairs hentry, hinside⟩

-- A state may take the place of another one, so scopes can be lost; none is made up.
mutual

theorem scopes_machine_subset (path : String) : (m : Machine) →
    Machine.scopes path (r.machine m) ⊆ (Machine.scopes path m).map r.scope
  | ⟨comment, startAt, own, extra⟩ => by
      rw [machine, Machine.scopes, Machine.scopes, List.map_cons]
      apply List.cons_subset_cons
      exact List.Subset.trans (nestedScopes_ofPairs_subset path _) (scopes_each_subset {} path own)

theorem scopes_machines_subset (path : String) (n : Nat) : (ms : List Machine) →
    branchScopes path n (r.machines ms) ⊆ (branchScopes path n ms).map r.scope
  | [] => by simp [machines, branchScopes]
  | m :: rest => by
      rw [machines, branchScopes, branchScopes, List.map_append]
      exact List.append_subset.mpr
        ⟨List.subset_append_of_subset_left _ (scopes_machine_subset _ m),
          List.subset_append_of_subset_right _ (scopes_machines_subset path (n + 1) rest)⟩

theorem scopes_state_subset (ctx : Context) (path name : String) : (s : State) →
    nestedScopes path (r.state ctx name s) ⊆ (State.scopes (path ++ "/" ++ name) s).map r.scope
  | .pass _ | .succeed _ | .fail _ | .wait _ | .task _ | .interaction _
  | .choice _ => by simp [state, nestedScopes, State.scopes]
  | .parallel _ branches => by
      simpa [state, nestedScopes, State.scopes] using scopes_machines_subset _ 0 branches
  | .map _ iterator => by
      simpa [state, nestedScopes, State.scopes] using scopes_machine_subset _ iterator

theorem scopes_each_subset (ctx : Context) (path : String) : (own : List (String × State)) →
    nestedScopes path (r.each ctx own) ⊆ (nestedScopes path own).map r.scope
  | [] => by simp [nestedScopes]
  | (name, s) :: rest => by
      rw [each_cons, nestedScopes_append, nestedScopes, List.map_append]
      exact List.append_subset.mpr
        ⟨List.subset_append_of_subset_left _ (scopes_state_subset ctx path name s),
          List.subset_append_of_subset_right _ (scopes_each_subset ctx path rest)⟩

end

/-- Lowering with a map of names is lowering, without one, what the map has been applied to.  The
map reaches every reference of the source and nothing else.  It reaches no name of a state, not the
way of a Parallel to its helper and not the catch rules for failures; and since every scope inside
the output is a scope of the source lowered in the same way, this is so at every depth. -/
theorem states_eq_renamed (r : Scheme) (ctx : Context) (own : Entries State) :
    r.states ctx own =
        Scheme.states { settings := r.settings } ctx (statesRenamed r.rename own) ∧
      OnlyRenamed r.rename own (statesRenamed r.rename own) ∧
      (r.each ctx own).map (fun out => (out.1, out.2.references)) =
        (own.flatMap fun entry => r.loweredReferences ctx entry.1 entry.2) ∧
      nestedScopes "/States" (r.states ctx own) ⊆ (nestedScopes "/States" own).map r.scope := by
  refine ⟨?_, onlyRenamed r.rename own, references_each_eq own, ?_⟩
  · unfold states
    rw [each_eq_renamed ctx own]
    rfl
  · exact List.Subset.trans (nestedScopes_ofPairs_subset _ _) (scopes_each_subset ctx "/States" own)

end StateFlow.Lowering.Scheme
