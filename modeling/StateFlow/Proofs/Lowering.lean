import StateFlow.Lowering.Basic
import StateFlow.Proofs.Rules

/-!
# What lowering makes of states and scopes

One law for each thing that lowering can change: the names that come out, the references of every
state that comes out, and the scopes inside.  `scopes_machine` and its companions say that the
scopes of what is lowered are the source's scopes, lowered one by one; everything that is said of
scopes at any depth rests on it.
-/

namespace StateFlow.Playbook

/-- How a state is left that takes over an exit: where the exit goes, or by ending its machine. -/
def Exit.continuation (e : Exit) : Exit :=
  match e.isEnd, e.next with
  | some true, _ => { isEnd := some true }
  | _, some target => { next := some target }
  | _, none => { isEnd := some true }

def Exit.references (e : Exit) : List Reference :=
  e.next.toList.map fun target => ⟨target, .next⟩

theorem Exit.references_continuation (e : Exit) {ref : Reference}
    (href : ref ∈ e.continuation.references) : ref ∈ e.references := by
  obtain ⟨next, isEnd⟩ := e
  rcases isEnd with _ | _ | _ <;> rcases next with _ | target <;>
    simp_all [Exit.continuation, Exit.references]

def catchReferences (catchers : Option (List Catcher)) : List Reference :=
  (catchers.getD []).map fun c => ⟨c.next, .catchNext⟩

/-! ## References by kind -/

namespace State

@[simp] theorem references_pass (fields : Pass) :
    (State.pass fields).references = fields.exit.references := by
  simp [references, next?, exit?, choiceReferences, catchers, recovery?, Exit.references]

@[simp] theorem references_succeed (header : Header) : (State.succeed header).references = [] := rfl

@[simp] theorem references_fail (fields : Fail) : (State.fail fields).references = [] := rfl

@[simp] theorem references_wait (fields : Wait) :
    (State.wait fields).references = fields.exit.references := by
  simp [references, next?, exit?, choiceReferences, catchers, recovery?, Exit.references]

@[simp] theorem references_task (fields : Task) :
    (State.task fields).references =
      fields.exit.references ++ catchReferences fields.recovery.catchers := by
  simp [references, next?, exit?, choiceReferences, catchers, recovery?, Exit.references,
    catchReferences]

@[simp] theorem references_interaction (fields : Task) :
    (State.interaction fields).references = (State.task fields).references := rfl

@[simp] theorem references_choice (fields : Choice) :
    (State.choice fields).references =
      fields.rules.map (fun rule => ⟨rule.next, .choiceNext⟩)
        ++ fields.fallback.toList.map (fun target => ⟨target, .fallback⟩) := by
  simp [references, next?, exit?, choiceReferences, catchers, recovery?]

@[simp] theorem references_parallel (fields : Parallel) (branches : List Machine) :
    (State.parallel fields branches).references =
      fields.exit.references ++ catchReferences fields.recovery.catchers := by
  simp [references, next?, exit?, choiceReferences, catchers, recovery?, Exit.references,
    catchReferences]

@[simp] theorem references_map (fields : MapOver) (iterator : Machine) :
    (State.map fields iterator).references =
      fields.exit.references ++ catchReferences fields.recovery.catchers := by
  simp [references, next?, exit?, choiceReferences, catchers, recovery?, Exit.references,
    catchReferences]

end State

/-- A scope apart from the place where it stands. -/
def Scope.content (sc : Scope) : String × Entries State := (sc.startAt, sc.states)

def scopesOf (startAt : String) (states : Entries State) : List Scope :=
  ⟨"/States", startAt, states⟩ :: nestedScopes "/States" states

/-! ## Scopes and the places where they stand -/

theorem nestedScopes_eq_flatMap (path : String) (states : Entries State) :
    nestedScopes path states =
      states.flatMap fun entry => State.scopes (path ++ "/" ++ entry.1) entry.2 := by
  induction states with
  | nil => simp [nestedScopes]
  | cons entry states ih =>
      obtain ⟨name, s⟩ := entry
      simp [nestedScopes, ih]

theorem nestedScopes_append (path : String) (a b : Entries State) :
    nestedScopes path (a ++ b) = nestedScopes path a ++ nestedScopes path b := by
  simp [nestedScopes_eq_flatMap]

mutual

/-- The scopes of a machine are the same wherever the machine stands. -/
theorem content_machine (p q : String) : (m : Machine) →
    (Machine.scopes p m).map Scope.content = (Machine.scopes q m).map Scope.content
  | ⟨comment, startAt, states, extra⟩ => by
      simp [Machine.scopes, Scope.content, content_nested p q states]

theorem content_state (p q : String) : (s : State) →
    (State.scopes p s).map Scope.content = (State.scopes q s).map Scope.content
  | .pass _ | .succeed _ | .fail _ | .wait _ | .task _ | .interaction _ | .choice _ => by
      simp [State.scopes]
  | .parallel _ branches => by
      simp only [State.scopes]
      exact content_branches p q 0 branches
  | .map _ iterator => by
      simp only [State.scopes]
      exact content_machine _ _ iterator

theorem content_branches (p q : String) (n : Nat) : (ms : List Machine) →
    (branchScopes p n ms).map Scope.content = (branchScopes q n ms).map Scope.content
  | [] => by simp [branchScopes]
  | m :: rest => by
      simp only [branchScopes, List.map_append]
      rw [content_machine _ _ m, content_branches p q (n + 1) rest]

theorem content_nested (p q : String) : (states : List (String × State)) →
    (nestedScopes p states).map Scope.content = (nestedScopes q states).map Scope.content
  | [] => by simp [nestedScopes]
  | (name, s) :: rest => by
      simp only [nestedScopes, List.map_append]
      rw [content_state _ _ s, content_nested p q rest]

end

end StateFlow.Playbook

namespace StateFlow.Lowering.Scheme

open StateFlow.Playbook

variable {r : Scheme} {ctx : Context} {name : String}

/-! ## Names -/

@[simp] theorem each_nil : r.each ctx [] = [] := by
  simp [each]

@[simp] theorem each_cons (name : String) (s : State) (rest : Entries State) :
    r.each ctx ((name, s) :: rest) = r.state ctx name s ++ r.each ctx rest := by
  simp [each]

theorem each_eq_flatMap (own : Entries State) :
    r.each ctx own = own.flatMap fun entry => r.state ctx entry.1 entry.2 := by
  induction own with
  | nil => simp
  | cons entry own ih => rw [each_cons, ih, List.flatMap_cons]

theorem each_append (a b : Entries State) :
    r.each ctx (a ++ b) = r.each ctx a ++ r.each ctx b := by
  simp only [each_eq_flatMap, List.flatMap_append]

theorem mem_each {own : Entries State} {out : String × State} (hmem : out ∈ r.each ctx own) :
    ∃ name s, (name, s) ∈ own ∧ out ∈ r.state ctx name s := by
  rw [each_eq_flatMap, List.mem_flatMap] at hmem
  obtain ⟨entry, hown, hout⟩ := hmem
  exact ⟨entry.1, entry.2, hown, hout⟩

theorem state_subset_each {own : Entries State} {s : State} (hmem : (name, s) ∈ own) :
    ∀ out ∈ r.state ctx name s, out ∈ r.each ctx own := by
  intro out hout
  rw [each_eq_flatMap]
  exact List.mem_flatMap.mpr ⟨(name, s), hmem, hout⟩

theorem keys_state (s : State) :
    Entries.keys (r.state ctx name s) = namesWithHelpers r.settings [(name, s)] := by
  cases s <;> simp [state, State.kind]

theorem keys_each (own : Entries State) :
    Entries.keys (r.each ctx own) = namesWithHelpers r.settings own := by
  induction own with
  | nil => simp
  | cons entry own ih =>
      obtain ⟨name, s⟩ := entry
      rw [each_cons, Entries.keys_append, keys_state, ih]
      simp

/-! ## References

A reference of the output is one of the source, leads to a merge helper, or leads to the failure
handler.  These laws are about the map of names that changes nothing. -/

def catchingKinds : List Kind := [.task, .interaction, .parallel]

/-- The reference that a state's catch rule for failures makes, where the state has it. -/
def failureReferences (r : Scheme) (ctx : Context) (name : String) (kind : Kind) :
    List Reference :=
  if r.catchesFailure ctx name ∧ kind ∈ catchingKinds then
    [⟨r.settings.failure.entry, .catchNext⟩]
  else []

theorem failureReferences_eq_nil (hctx : ctx.failureHandler = false) (kind : Kind) :
    r.failureReferences ctx name kind = [] := by
  simp [failureReferences, catchesFailure, hctx]

theorem mem_failureReferences {kind : Kind} {ref : Reference}
    (href : ref ∈ r.failureReferences ctx name kind) :
    ctx.failureHandler = true ∧ ref.target = r.settings.failure.entry := by
  unfold failureReferences at href
  split at href
  · next hcatches =>
      have hctx : ctx.failureHandler = true := by
        have hboth := hcatches.1
        rw [catchesFailure, Bool.and_eq_true] at hboth
        exact hboth.1
      rw [List.mem_singleton] at href
      exact ⟨hctx, by rw [href]⟩
  · simp at href

section Identity

variable (hr : r.rename = id)

include hr

theorem exit_eq (e : Exit) : r.exit e = e := by
  simp [exit, hr]

theorem renameCatchers_eq (own : Option (List Catcher)) : r.renameCatchers own = own := by
  simp [renameCatchers, hr]

theorem choice_eq (c : Choice) : r.choice c = c := by
  simp [choice, hr]

theorem catchReferences_catchers {kind : Kind} (hkind : kind ∈ catchingKinds)
    (own : Option (List Catcher)) :
    catchReferences (r.catchers ctx name own) =
      catchReferences own ++ r.failureReferences ctx name kind := by
  unfold catchers failureReferences
  rw [renameCatchers_eq hr]
  by_cases hcatches : r.catchesFailure ctx name = true
  · simp [hcatches, hkind, catchReferences, appendCatch, failureCatch]
  · simp [hcatches]

theorem references_work {kind : Kind} (hkind : kind ∈ catchingKinds) (t : Task) :
    (State.task (r.work ctx name t)).references =
      (State.task t).references ++ r.failureReferences ctx name kind := by
  rw [State.references_task, State.references_task, work, exit_eq hr,
    catchReferences_catchers hr hkind, List.append_assoc]

/-- A state other than a Parallel comes out alone, under its own name, left as before, and with no
more references than the one for failures. -/
theorem state_of_ne_parallel (ctx : Context) (name : String) {s : State}
    (hkind : s.kind ≠ .parallel) :
    ∃ out, r.state ctx name s = [(name, out)] ∧ out.exit? = s.exit? ∧
      out.references = s.references ++ r.failureReferences ctx name s.kind := by
  have hnone : ∀ kind ∉ catchingKinds, r.failureReferences ctx name kind = [] := by
    intro kind hnot
    simp [failureReferences, hnot]
  cases s with
  | pass fields =>
      refine ⟨.pass fields, by rw [state, exit_eq hr], rfl, ?_⟩
      simp [hnone, State.kind, catchingKinds]
  | succeed header =>
      exact ⟨.succeed header, by rw [state], rfl, by simp [hnone, State.kind, catchingKinds]⟩
  | fail fields =>
      exact ⟨.fail fields, by rw [state], rfl, by simp [hnone, State.kind, catchingKinds]⟩
  | wait fields =>
      refine ⟨.wait fields, by rw [state, exit_eq hr], rfl, ?_⟩
      simp [hnone, State.kind, catchingKinds]
  | task t =>
      refine ⟨.task (r.task ctx name t), by rw [state], congrArg some (exit_eq hr t.exit), ?_⟩
      exact references_work hr (by simp [State.kind, catchingKinds]) t
  | interaction t =>
      refine ⟨.task (r.interaction ctx name t), by rw [state],
        congrArg some (exit_eq hr t.exit), ?_⟩
      exact references_work hr (by simp [State.kind, catchingKinds]) t
  | choice c =>
      refine ⟨.choice c, by rw [state, choice_eq hr], rfl, ?_⟩
      simp [hnone, State.kind, catchingKinds]
  | parallel p branches => exact absurd rfl hkind
  | map m iterator =>
      refine ⟨.map (r.mapOver m) (r.machine iterator), by rw [state],
        congrArg some (exit_eq hr m.exit), ?_⟩
      rw [State.references_map, mapOver, exit_eq hr, renameCatchers_eq hr, State.references_map]
      simp [hnone, State.kind, catchingKinds]

theorem references_parallel (p : Parallel) (branches : List Machine) :
    (State.parallel (r.parallel ctx name p) branches).references =
      ⟨mergeHelperName r.settings name, .next⟩ ::
        (catchReferences p.recovery.catchers ++ r.failureReferences ctx name .parallel) := by
  have hkind : Kind.parallel ∈ catchingKinds := by simp [catchingKinds]
  rw [State.references_parallel, parallel, catchReferences_catchers hr hkind]
  rfl

theorem helper_exit (p : Parallel) : (r.helper ctx name p).exit = p.exit.continuation := by
  obtain ⟨header, effects, recovery, next, isEnd⟩ := p
  simp only [helper, mergeHelper, exit_eq hr, Exit.continuation]
  rcases isEnd with _ | _ | _ <;> rcases next with _ | target <;> rfl

theorem references_helper (p : Parallel) :
    (State.task (r.helper ctx name p)).references =
      p.exit.continuation.references ++ r.failureReferences ctx name .parallel := by
  have hcatch : catchReferences (r.helper ctx name p).recovery.catchers =
      r.failureReferences ctx name .parallel := by
    unfold failureReferences
    by_cases hcatches : r.catchesFailure ctx name = true <;>
      simp [helper, mergeHelper, hcatches, catchReferences, failureCatch, catchingKinds]
  rw [State.references_task, helper_exit hr, hcatch]

/-- A reference of the output is one of the source, or leads to the helper of the Parallel that it
comes from, or to the failure handler. -/
theorem mem_references_state {s : State} {out : String × State}
    (hout : out ∈ r.state ctx name s) {ref : Reference} (href : ref ∈ out.2.references) :
    ref ∈ s.references ∨
      (s.kind = .parallel ∧ ref.target = mergeHelperName r.settings name) ∨
        (ctx.failureHandler = true ∧ ref.target = r.settings.failure.entry) := by
  by_cases hkind : s.kind = .parallel
  · cases s with
    | parallel p branches =>
        rw [State.references_parallel, List.mem_append]
        simp only [state, List.mem_cons, List.not_mem_nil, or_false] at hout
        rcases hout with rfl | rfl
        · rw [references_parallel hr, List.mem_cons, List.mem_append] at href
          rcases href with rfl | hcatch | hfailure
          · exact Or.inr (Or.inl ⟨rfl, rfl⟩)
          · exact Or.inl (Or.inr hcatch)
          · exact Or.inr (Or.inr (mem_failureReferences hfailure))
        · rw [references_helper hr, List.mem_append] at href
          rcases href with hnext | hfailure
          · exact Or.inl (Or.inl (p.exit.references_continuation hnext))
          · exact Or.inr (Or.inr (mem_failureReferences hfailure))
    | _ => cases hkind
  · obtain ⟨lowered, hstate, -, hrefs⟩ := state_of_ne_parallel hr ctx name hkind
    rw [hstate, List.mem_singleton] at hout
    subst hout
    rw [hrefs, List.mem_append] at href
    rcases href with hown | hfailure
    · exact Or.inl hown
    · exact Or.inr (Or.inr (mem_failureReferences hfailure))

/-- If the references of the source lead to known names, so do those of the output. -/
theorem references_each {own : Entries State} {known : List String}
    (hown : ∀ entry ∈ own, ∀ ref ∈ entry.2.references, ref.target ∈ known)
    (hnames : ∀ n ∈ namesWithHelpers r.settings own, n ∈ known)
    (hentry : ctx.failureHandler = true → r.settings.failure.entry ∈ known) :
    ∀ out ∈ r.each ctx own, ∀ ref ∈ out.2.references, ref.target ∈ known := by
  intro out hout ref href
  obtain ⟨name, s, hmem, hstate⟩ := mem_each hout
  rcases mem_references_state hr hstate href with hsource | ⟨hkind, htarget⟩ | ⟨hctx, htarget⟩
  · exact hown (name, s) hmem ref hsource
  · rw [htarget]
    exact hnames _ (List.mem_flatMap.mpr ⟨(name, s), hmem, by simp [hkind]⟩)
  · rw [htarget]
    exact hentry hctx

end Identity

/-! ## Scopes -/

def scope (r : Scheme) (sc : Scope) : Scope :=
  ⟨sc.path, r.rename sc.startAt, Entries.ofPairs (r.each {} sc.states)⟩

theorem ofPairs_each_eq {ctx : Context} {own : Entries State}
    (hapart : (namesWithHelpers r.settings own).Nodup) :
    Entries.ofPairs (r.each ctx own) = r.each ctx own :=
  Entries.ofPairs_eq_self (by rwa [Entries.Distinct, keys_each])

/-- States that are put behind others take the place of those whose names they come out under. -/
theorem states_append {own : Entries State} (hapart : (namesWithHelpers r.settings own).Nodup)
    (added : Entries State) :
    r.states ctx (own ++ added) = Entries.extend (r.each ctx own) (r.each ctx added) := by
  unfold states
  rw [each_append, Entries.ofPairs, Entries.extend_append]
  exact congrArg (Entries.extend · _) (ofPairs_each_eq hapart)

mutual

/-- The scopes of a lowered machine are the scopes of the machine, each lowered. -/
theorem scopes_machine (path : String) : (m : Machine) →
    (∀ sc ∈ Machine.scopes path m, sc.Apart r.settings) →
      Machine.scopes path (r.machine m) = (Machine.scopes path m).map r.scope
  | ⟨comment, startAt, own, extra⟩, hapart => by
      rw [Machine.scopes, List.forall_mem_cons] at hapart
      rw [machine, Machine.scopes, Machine.scopes, List.map_cons, ofPairs_each_eq hapart.1,
        scopes_each {} path own hapart.2, scope, ofPairs_each_eq hapart.1]

theorem scopes_machines (path : String) (n : Nat) : (ms : List Machine) →
    (∀ sc ∈ branchScopes path n ms, sc.Apart r.settings) →
      branchScopes path n (r.machines ms) = (branchScopes path n ms).map r.scope
  | [], _ => by simp [machines, branchScopes]
  | m :: rest, hapart => by
      rw [branchScopes, List.forall_mem_append] at hapart
      rw [machines, branchScopes, branchScopes, List.map_append, scopes_machine _ m hapart.1,
        scopes_machines path (n + 1) rest hapart.2]

/-- A merge helper has no scopes, so a state and what it is lowered to have the same ones. -/
theorem scopes_state (ctx : Context) (path name : String) : (s : State) →
    (∀ sc ∈ State.scopes (path ++ "/" ++ name) s, sc.Apart r.settings) →
      nestedScopes path (r.state ctx name s) = (State.scopes (path ++ "/" ++ name) s).map r.scope
  | .pass _, _ | .succeed _, _ | .fail _, _ | .wait _, _ | .task _, _ | .interaction _, _
  | .choice _, _ => by simp [state, nestedScopes, State.scopes]
  | .parallel _ branches, hapart => by
      rw [State.scopes] at hapart
      simp [state, nestedScopes, State.scopes, scopes_machines _ 0 branches hapart]
  | .map _ iterator, hapart => by
      rw [State.scopes] at hapart
      simp [state, nestedScopes, State.scopes, scopes_machine _ iterator hapart]

theorem scopes_each (ctx : Context) (path : String) : (own : List (String × State)) →
    (∀ sc ∈ nestedScopes path own, sc.Apart r.settings) →
      nestedScopes path (r.each ctx own) = (nestedScopes path own).map r.scope
  | [], _ => by simp [nestedScopes]
  | (name, s) :: rest, hapart => by
      rw [nestedScopes, List.forall_mem_append] at hapart
      rw [each_cons, nestedScopes_append, nestedScopes, List.map_append,
        scopes_state ctx path name s hapart.1, scopes_each ctx path rest hapart.2]

end

end StateFlow.Lowering.Scheme
