import StateFlow.Proofs.Renaming
import StateFlow.Proofs.RoundTrip
import StateFlow.Proofs.RetrySwitch
import StateFlow.Proofs.HandledShape

/-!
# What lowering carries over

Lowering changes how a state is left, what it does about errors, what it works on and what machines
it holds; every other member stays.  Parameters go into envelopes or stay as they are, machines keep
all but their states, and interactions are gone.  `lower_carries` says so of every state of a
document that breaks no rule, at any depth.  A failure handler is carried over as well, unless the
labels make another state of those around it take its place.
-/

namespace StateFlow.Playbook

open StateFlow.Json StateFlow.Lowering

def changedMembers : List String :=
  ["Next", "End", "Catch", "Retry", "Parameters", "Resource", "Branches", "Iterator"]

/-- An envelope that names a state and brings its parameters as they are, if there are some. -/
structure EnvelopeFor (name : String) (parameters : Option Json) (v : Json) : Prop where
  isEnvelope : v = taskEnvelope name parameters
  stateName : v.at? [.key "State_Config", .key "Name"] = some (.str name)
  stateParameters : v.at? [.key "State_Config", .key "Parameters"] = parameters

structure DispatchFor (name function : String) (parameters : Option Json) (v : Json) : Prop where
  functionName : v.at? [.key "FunctionName"] = some (.str function)
  context : ∃ inner, v.at? [.key "Payload", .key "sfn_context"] = some inner ∧
    EnvelopeFor name parameters inner

structure MembersCarried (s : Settings) (name : String) (own out : State) : Prop where
  kind : out.kind = if own.kind = .interaction then .task else own.kind
  unchanged : others changedMembers out.entries = others changedMembers own.entries
  task : own.kind = .task →
    Entries.get? out.entries "Resource" = Entries.get? own.entries "Resource" ∧
      Option.Rel (fun v => EnvelopeFor name (some v)) (Entries.get? own.entries "Parameters")
        (Entries.get? out.entries "Parameters")
  interaction : own.kind = .interaction →
    Entries.get? out.entries "Resource" = some (.str s.tokenWaitResource) ∧
      ∃ function v, Entries.get? own.entries "Resource" = some (.str function) ∧
        Entries.get? out.entries "Parameters" = some v ∧
          DispatchFor name function (Entries.get? own.entries "Parameters") v
  parameters : own.kind ∈ [Kind.pass, .parallel, .map] →
    Entries.get? out.entries "Parameters" = Entries.get? own.entries "Parameters"

mutual

inductive State.Carried (s : Settings) : String → State → State → Prop
  | mk {name : String} {own out : State} (members : MembersCarried s name own out)
      (inside : MachinesCarried s own.machines out.machines) : State.Carried s name own out

inductive Machine.Carried (s : Settings) : Machine → Machine → Prop
  | mk (comment : Option String) (startAt : String) (extra : List (String × Json))
      {own out : List (String × State)} (states : StatesCarried s own out) :
      Machine.Carried s ⟨comment, startAt, own, extra⟩ ⟨comment, startAt, out, extra⟩

inductive MachinesCarried (s : Settings) : List Machine → List Machine → Prop
  | nil : MachinesCarried s [] []
  | cons {m m' : Machine} {rest rest' : List Machine} (first : Machine.Carried s m m')
      (others : MachinesCarried s rest rest') : MachinesCarried s (m :: rest) (m' :: rest')

/-- Every state of a scope is carried over under its name; there may be others beside it. -/
inductive StatesCarried (s : Settings) : List (String × State) → List (String × State) → Prop
  | nil {out : List (String × State)} : StatesCarried s [] out
  | cons {name : String} {own lowered : State} {rest out : List (String × State)}
      (stands : Entries.get? out name = some lowered) (first : State.Carried s name own lowered)
      (others : StatesCarried s rest out) : StatesCarried s ((name, own) :: rest) out

end

theorem statesCarried_of_forall {s : Settings} {own out : Entries State}
    (hall : ∀ entry ∈ own, ∃ lowered, Entries.get? out entry.1 = some lowered ∧
      State.Carried s entry.1 entry.2 lowered) : StatesCarried s own out := by
  induction own with
  | nil => exact .nil
  | cons entry own ih =>
      obtain ⟨lowered, hget, hcarried⟩ := hall entry List.mem_cons_self
      exact .cons hget hcarried (ih fun other hother => hall other (List.mem_cons_of_mem _ hother))

theorem State.Carried.kind_eq {s : Settings} {name : String} {own out : State}
    (hcarried : State.Carried s name own out) (hkind : own.kind ≠ .interaction) :
    out.kind = own.kind := by
  obtain ⟨hmembers, -⟩ := hcarried
  rw [hmembers.kind, if_neg hkind]

/-! ## Members -/

theorem get?_optionalEntry {α : Type} (key name : String) (write : α → Json) (x : Option α) :
    Entries.get? (optionalEntry key write x) name = if key = name then x.map write else none := by
  cases x <;> simp [optionalEntry, Entries.get?]

theorem others_optionalEntry_of_mem {α : Type} {key : String} (hkey : key ∈ changedMembers)
    (write : α → Json) (x : Option α) : others changedMembers (optionalEntry key write x) = [] := by
  apply others_of_known
  intro name hname
  rwa [List.mem_singleton.mp ((keys_optionalEntry key write x).subset hname)]

theorem others_singleton_of_mem {key : String} (hkey : key ∈ changedMembers) (v : Json) :
    others changedMembers [(key, v)] = [] :=
  others_of_known (by simpa using hkey)

theorem Exit.others_entries (e : Exit) : others changedMembers e.entries = [] := by
  simp (disch := decide) only [Exit.entries, others_append, others_optionalEntry_of_mem,
    List.append_nil]

theorem Recovery.others_entries (r : Recovery) : others changedMembers r.entries = [] := by
  simp (disch := decide) only [Recovery.entries, others_append, others_optionalEntry_of_mem,
    List.append_nil]

theorem Effects.others_entries (e : Effects) : others changedMembers e.entries =
    others changedMembers ({ e with parameters := none } : Effects).entries := by
  simp (disch := decide) only [Effects.entries, others_append, others_optionalEntry_of_mem]

/-- What a lowered task keeps does not depend on what lowering replaces. -/
theorem Task.others_entries (t : Task) : others changedMembers t.entries =
    others changedMembers ({ t with
      resource := ""
      effects.parameters := none
      recovery := {}
      exit := {} } : Task).entries := by
  simp (disch := decide) only [Task.entries, others_append, others_singleton_of_mem,
    Effects.others_entries t.effects, Recovery.others_entries, Exit.others_entries]

theorem Parallel.others_entries (p : Parallel) (branches : Json) :
    others changedMembers (p.entries branches) =
      others changedMembers (({ p with recovery := {}, exit := {} } : Parallel).entries .null) := by
  simp (disch := decide) only [Parallel.entries, others_append, others_singleton_of_mem,
    Recovery.others_entries, Exit.others_entries]

theorem MapOver.others_entries (m : MapOver) (iterator : Json) :
    others changedMembers (m.entries iterator) = others changedMembers (m.entries .null) := by
  simp (disch := decide) only [MapOver.entries, others_append, others_singleton_of_mem]

theorem Task.get?_resource (t : Task) :
    Entries.get? t.entries "Resource" = some (.str t.resource) := by
  simp [Task.entries, Header.entries, Entries.get?_append, get?_optionalEntry, Entries.get?]

theorem Task.get?_parameters (t : Task) :
    Entries.get? t.entries "Parameters" = t.effects.parameters := by
  simp [Task.entries, Header.entries, Effects.entries, Recovery.entries, Exit.entries,
    Entries.get?_append, get?_optionalEntry, Entries.get?]

theorem Parallel.get?_parameters (p : Parallel) (branches : Json) :
    Entries.get? (p.entries branches) "Parameters" = p.effects.parameters := by
  simp [Parallel.entries, Header.entries, Effects.entries, Recovery.entries, Exit.entries,
    Entries.get?_append, get?_optionalEntry, Entries.get?]

theorem MapOver.get?_parameters (m : MapOver) (iterator : Json) :
    Entries.get? (m.entries iterator) "Parameters" = m.effects.parameters := by
  simp [MapOver.entries, Header.entries, Effects.entries, Recovery.entries, Exit.entries,
    Entries.get?_append, get?_optionalEntry, Entries.get?]

theorem envelopeFor_taskEnvelope (name : String) (parameters : Option Json) :
    EnvelopeFor name parameters (taskEnvelope name parameters) where
  isEnvelope := rfl
  stateName := rfl
  stateParameters := by cases parameters <;> rfl

theorem dispatchFor_interactionEnvelope (name function : String) (parameters : Option Json) :
    DispatchFor name function parameters (interactionEnvelope name parameters function) where
  functionName := rfl
  context := ⟨_, rfl, envelopeFor_taskEnvelope name parameters⟩

end StateFlow.Playbook

namespace StateFlow.Lowering

open StateFlow.Json StateFlow.Playbook

namespace Scheme

variable {r : Scheme} {ctx : Context} {name : String}

/-- A state of most kinds stays as it is. -/
theorem membersCarried_self {own : State} (htask : own.kind ≠ .task)
    (hinteraction : own.kind ≠ .interaction) : MembersCarried r.settings name own own where
  kind := (if_neg hinteraction).symm
  unchanged := rfl
  task hkind := absurd hkind htask
  interaction hkind := absurd hkind hinteraction
  parameters _ := rfl

theorem membersCarried_task (t : Task) :
    MembersCarried r.settings name (.task t) (.task (r.task ctx name t)) where
  kind := rfl
  unchanged := by
    simp only [State.entries]
    rw [Task.others_entries, Task.others_entries t]
    rfl
  task _ := by
    simp only [State.entries, Task.get?_resource, Task.get?_parameters]
    refine ⟨rfl, ?_⟩
    show Option.Rel _ t.effects.parameters
      (t.effects.parameters.map fun v => taskEnvelope name (some v))
    cases t.effects.parameters with
    | none => exact .none
    | some v => exact .some (envelopeFor_taskEnvelope name (some v))
  interaction hkind := by cases hkind
  parameters hkind := by simp [State.kind] at hkind

theorem membersCarried_interaction (t : Task) :
    MembersCarried r.settings name (.interaction t) (.task (r.interaction ctx name t)) where
  kind := rfl
  unchanged := by
    simp only [State.entries]
    rw [Task.others_entries, Task.others_entries t]
    rfl
  task hkind := by cases hkind
  interaction _ := by
    simp only [State.entries, Task.get?_resource, Task.get?_parameters]
    exact ⟨rfl, t.resource, _, rfl, rfl, dispatchFor_interactionEnvelope name _ _⟩
  parameters hkind := by simp [State.kind] at hkind

theorem membersCarried_parallel (p : Parallel) (branches lowered : List Machine) :
    MembersCarried r.settings name (.parallel p branches)
      (.parallel (r.parallel ctx name p) lowered) where
  kind := rfl
  unchanged := by
    simp only [State.entries]
    rw [Parallel.others_entries, Parallel.others_entries p]
    rfl
  task hkind := by cases hkind
  interaction hkind := by cases hkind
  parameters _ := by
    simp only [State.entries, Parallel.get?_parameters]
    rfl

theorem membersCarried_map (m : MapOver) (iterator lowered : Machine) :
    MembersCarried r.settings name (.map m iterator) (.map m lowered) where
  kind := rfl
  unchanged := by
    simp only [State.entries]
    rw [MapOver.others_entries, MapOver.others_entries m (Machine.toJson iterator)]
  task hkind := by cases hkind
  interaction hkind := by cases hkind
  parameters _ := by simp only [State.entries, MapOver.get?_parameters]

/-- A state of a kind that does no work stays as it is. -/
theorem carried_self (hr : r.rename = id) {own : State}
    (hkind : own.kind ∈ [Kind.pass, .succeed, .fail, .wait, .choice]) :
    (name, own) ∈ r.state ctx name own ∧ State.Carried r.settings name own own := by
  cases own with
  | pass | succeed | fail | wait | choice =>
      exact ⟨by simp [state, exit_eq hr, choice_eq hr],
        membersCarried_self (by simp [State.kind]) (by simp [State.kind]), .nil⟩
  | _ => simp [State.kind] at hkind

-- By induction on the source.  Only helpers come into a scope inside a state, and where the names
-- of a scope are apart from those of its helpers every state is found under its own name.
mutual

/-- A state is carried over under its name if no name is given twice inside it. -/
theorem carried_state (hr : r.rename = id) (ctx : Context) (path name : String) : (own : State) →
    (∀ sc ∈ State.scopes path own, sc.Apart r.settings) →
      ∃ out, (name, out) ∈ r.state ctx name own ∧ State.Carried r.settings name own out
  | .pass _, _ | .succeed _, _ | .fail _, _ | .wait _, _ | .choice _, _ =>
      ⟨_, carried_self hr (by simp [State.kind])⟩
  | .task t, _ => ⟨.task (r.task ctx name t), by simp [state], membersCarried_task t, .nil⟩
  | .interaction t, _ =>
      ⟨.task (r.interaction ctx name t), by simp [state], membersCarried_interaction t, .nil⟩
  | .parallel p branches, hapart => by
      rw [State.scopes] at hapart
      exact ⟨.parallel (r.parallel ctx name p) (r.machines branches), by simp [state],
        membersCarried_parallel p branches _, carried_machines hr path 0 branches hapart⟩
  | .map m iterator, hapart => by
      rw [State.scopes] at hapart
      exact ⟨.map m (r.machine iterator), by simp [state, mapOver_eq hr],
        membersCarried_map m iterator _, .cons (carried_machine hr _ iterator hapart) .nil⟩

theorem carried_machine (hr : r.rename = id) (path : String) : (m : Machine) →
    (∀ sc ∈ Machine.scopes path m, sc.Apart r.settings) →
      Machine.Carried r.settings m (r.machine m)
  | ⟨comment, startAt, own, extra⟩, hapart => by
      rw [Machine.scopes, List.forall_mem_cons] at hapart
      have hdistinct : Entries.Distinct (r.each {} own) := by
        rw [Entries.Distinct, keys_each]
        exact hapart.1
      rw [machine, ofPairs_each_eq hapart.1, hr]
      refine .mk comment startAt extra (statesCarried_of_forall fun entry hentry => ?_)
      obtain ⟨out, hout, hcarried⟩ := carried_each hr {} path own hapart.2 entry hentry
      exact ⟨out, Entries.get?_of_mem hdistinct (state_subset_each hentry _ hout), hcarried⟩

theorem carried_machines (hr : r.rename = id) (path : String) (n : Nat) : (ms : List Machine) →
    (∀ sc ∈ branchScopes path n ms, sc.Apart r.settings) →
      MachinesCarried r.settings ms (r.machines ms)
  | [], _ => by
      rw [machines]
      exact .nil
  | m :: rest, hapart => by
      rw [branchScopes, List.forall_mem_append] at hapart
      rw [machines]
      exact .cons (carried_machine hr _ m hapart.1)
        (carried_machines hr path (n + 1) rest hapart.2)

theorem carried_each (hr : r.rename = id) (ctx : Context) (path : String) :
    (own : List (String × State)) → (∀ sc ∈ nestedScopes path own, sc.Apart r.settings) →
      ∀ entry ∈ own, ∃ out, (entry.1, out) ∈ r.state ctx entry.1 entry.2 ∧
        State.Carried r.settings entry.1 entry.2 out
  | [], _ => by simp
  | (name, own) :: rest, hapart => by
      rw [nestedScopes, List.forall_mem_append] at hapart
      rw [List.forall_mem_cons]
      exact ⟨carried_state hr ctx _ name own hapart.1, carried_each hr ctx path rest hapart.2⟩

end

/-! ## Interactions -/

theorem kind_ne_interaction {own : State} {out : String × State}
    (hout : out ∈ r.state ctx name own) : out.2.kind ≠ .interaction := by
  cases own <;> simp only [state, List.mem_cons, List.not_mem_nil, or_false] at hout
  case parallel p branches =>
    rcases hout with rfl | rfl <;> simp [State.kind]
  all_goals
    subst hout
    simp [State.kind]

/-- No interaction is left in any scope of the output. -/
theorem no_interaction (r : Scheme) (ctx : Context) (startAt : String) (own : Entries State) :
    ∀ scope ∈ scopesOf startAt (r.states ctx own), ∀ entry ∈ scope.states,
      entry.2.kind ≠ .interaction := by
  have heach : ∀ ctx own, ∀ entry ∈ Entries.ofPairs (r.each ctx own),
      entry.2.kind ≠ .interaction := by
    intro ctx own entry hentry
    obtain ⟨name, source, -, hout⟩ := mem_each (Entries.mem_of_mem_ofPairs hentry)
    exact kind_ne_interaction hout
  intro scope hscope
  rcases List.mem_cons.mp hscope with rfl | hinside
  · exact heach ctx own
  · have hmem := scopes_each_subset ctx _ own (nestedScopes_ofPairs_subset _ _ hinside)
    obtain ⟨inner, -, rfl⟩ := List.mem_map.mp hmem
    exact heach {} inner.states

end Scheme

/-! ## The failure handler -/

section Handler

variable {s : Settings} {d : Document} {x : Expanded} {handler rewired : State}

/-- Its exit is the only thing in which a handler changes before it is lowered. -/
theorem carried_rewired (hrewired : rewireHandler s handler = .ok rewired) {name : String}
    {out : State} (hcarried : State.Carried s name rewired out) :
    State.Carried s name handler out := by
  obtain ⟨hmembers, hinside⟩ := hcarried
  obtain ⟨t, rfl, rfl⟩ | ⟨p, branches, rfl, rfl⟩ := rewireHandler_eq_ok hrewired
  · refine .mk ⟨hmembers.kind, hmembers.unchanged.trans ?_, fun _ => ?_, ?_, ?_⟩ hinside
    · simp only [State.entries]
      rw [Task.others_entries, Task.others_entries t]
    · have htask := hmembers.task rfl
      simp only [State.entries, Task.get?_resource, Task.get?_parameters] at htask ⊢
      exact htask
    · simp [State.kind]
    · simp [State.kind]
  · refine .mk ⟨hmembers.kind, hmembers.unchanged.trans ?_, ?_, ?_, fun hkind => ?_⟩ hinside
    · simp only [State.entries]
      rw [Parallel.others_entries, Parallel.others_entries p]
    · simp [State.kind]
    · simp [State.kind]
    · have hparameters := hmembers.parameters hkind
      simp only [State.entries, Parallel.get?_parameters] at hparameters ⊢
      exact hparameters

/-- Behind the state under the handler's label nothing comes out under that label again, unless it
is the state's own helper. -/
theorem get?_label (hwell : WellFormed s d) (ctx : Context) {own : State}
    (hget : Entries.get? (Entries.ofPairs (failureEntries s rewired)) s.failure.handler =
      some own) :
    ∃ base, Entries.get? (Scheme.states { settings := s } ctx
        (d.states ++ Entries.ofPairs (failureEntries s rewired))) s.failure.handler =
      Entries.get? (Entries.extend base
        (Scheme.state { settings := s } ctx s.failure.handler own)) s.failure.handler := by
  let r : Scheme := { settings := s }
  obtain ⟨front, behind, hsplit⟩ := List.append_of_mem (Entries.mem_of_get? hget)
  have hlabel : s.failure.handler ∉ Entries.keys behind := by
    have hdistinct := Entries.distinct_ofPairs (failureEntries s rewired)
    rw [hsplit, Entries.Distinct, Entries.keys_append, Entries.keys_cons] at hdistinct
    exact (List.nodup_cons.mp (List.nodup_append.mp hdistinct).2.1).1
  have hbehind : s.failure.handler ∉ Entries.keys (r.each ctx behind) := by
    rw [Scheme.keys_each, mem_namesWithHelpers]
    rintro (hkey | ⟨other, p, branches, hmem, -⟩)
    · exact hlabel hkey
    · -- The only Parallel among these states is the one under the label.
      have hentry : (other, State.parallel p branches) ∈ failureEntries s rewired :=
        Entries.mem_of_mem_ofPairs (hsplit ▸ by simp [hmem])
      simp only [failureEntries, List.mem_cons, Prod.mk.injEq, reduceCtorEq, and_false, false_or,
        List.not_mem_nil, or_false] at hentry
      exact hlabel (hentry.1 ▸ Entries.mem_keys_of_mem hmem)
  have hapart : (namesWithHelpers r.settings d.states).Nodup := hwell.helpers _ (topScope_mem d)
  refine ⟨Entries.extend (r.each ctx d.states) (r.each ctx front), ?_⟩
  rw [hsplit, Scheme.states_append hapart, Scheme.each_append, Scheme.each_cons,
    Entries.extend_append, Entries.extend_append, Entries.get?_extend_of_not_mem hbehind]

theorem get?_failureEntries_handler (s : Settings) (rewired : State) :
    Entries.get? (Entries.ofPairs (failureEntries s rewired)) s.failure.handler =
      some (if s.failure.final = s.failure.handler then .fail {} else rewired) := by
  simp only [failureEntries, Entries.ofPairs, Entries.extend_cons, Entries.extend_nil,
    Entries.get?_insert, if_true]
  split <;> rfl

/-- Where the label is that of the failing end or of the handler's own helper, a state of another
kind stands there. -/
theorem label_lost (hwell : WellFormed s d) (hrewired : rewireHandler s handler = .ok rewired)
    (ctx : Context)
    (hlost : s.failure.handler = s.failure.final ∨
      handler.kind = .parallel ∧ mergeHelperName s s.failure.handler = s.failure.handler) :
    ∃ out, Entries.get? (Scheme.states { settings := s } ctx
        (d.states ++ Entries.ofPairs (failureEntries s rewired))) s.failure.handler = some out ∧
      out.kind ≠ handler.kind := by
  obtain ⟨base, hbase⟩ := get?_label hwell ctx (get?_failureEntries_handler s rewired)
  rw [hbase]
  have hkind := rewireHandler_eq_ok hrewired
  by_cases hfinal : s.failure.final = s.failure.handler
  · rw [if_pos hfinal, Scheme.state, Entries.extend_cons, Entries.extend_nil, Entries.get?_insert,
      if_pos rfl]
    refine ⟨.fail {}, rfl, ?_⟩
    obtain ⟨t, rfl, -⟩ | ⟨p, branches, rfl, -⟩ := hkind <;> simp [State.kind]
  · obtain ⟨hparallel, hhelper⟩ := hlost.resolve_left (Ne.symm hfinal)
    obtain ⟨t, rfl, -⟩ | ⟨p, branches, rfl, rfl⟩ := hkind
    · cases hparallel
    · rw [if_neg hfinal, Scheme.state, Entries.extend_cons, Entries.extend_cons,
        Entries.extend_nil, Entries.get?_insert, if_pos hhelper]
      exact ⟨_, rfl, by simp [State.kind]⟩

/-- Everywhere else the handler stands under its label. -/
theorem label_kept (hwell : WellFormed s d) (hexpand : expand s d = .ok x)
    (hrewired : rewireHandler s handler = .ok rewired)
    (hstates : x.states = d.states ++ Entries.ofPairs (failureEntries s rewired))
    (hfinal : s.failure.handler ≠ s.failure.final)
    (hhelper : handler.kind = .parallel →
      mergeHelperName s s.failure.handler ≠ s.failure.handler) :
    ∃ out, Entries.get? (Scheme.states { settings := s } x.context x.states) s.failure.handler =
      some out ∧ State.Carried s s.failure.handler handler out := by
  let r : Scheme := { settings := s }
  have hget := get?_failureEntries_handler s rewired
  rw [if_neg hfinal.symm] at hget
  have hmem : (s.failure.handler, rewired) ∈ x.states := by
    rw [hstates]
    exact List.mem_append_right _ (Entries.mem_of_get? hget)
  obtain ⟨out, hout, hcarried⟩ := Scheme.carried_each (r := r) rfl x.context "/States" x.states
    (apart_of_expand hwell hexpand) _ hmem
  have hdistinct : Entries.Distinct (r.state x.context s.failure.handler rewired) := by
    rw [Entries.Distinct, Scheme.keys_state]
    obtain ⟨t, rfl, rfl⟩ | ⟨p, branches, rfl, rfl⟩ := rewireHandler_eq_ok hrewired
    · simp [State.kind]
    · simpa [State.kind] using (hhelper rfl).symm
  obtain ⟨base, hbase⟩ := get?_label hwell x.context hget
  refine ⟨out, ?_, carried_rewired hrewired hcarried⟩
  rw [hstates, hbase, Entries.get?_extend hdistinct, Entries.get?_of_mem hdistinct hout]
  rfl

/-- The handler is carried over under its label exactly if no other state around it takes the label:
neither the failing end nor, behind a Parallel, its merge helper. -/
theorem handler_carried_iff (hwell : WellFormed s d) (hexpand : expand s d = .ok x)
    (hsome : d.failureHandler? = some handler) :
    (∃ out, Entries.get? (Scheme.states { settings := s } x.context x.states) s.failure.handler =
        some out ∧ State.Carried s s.failure.handler handler out) ↔
      s.failure.handler ≠ s.failure.final ∧
        (handler.kind = .parallel →
          mergeHelperName s s.failure.handler ≠ s.failure.handler) := by
  obtain ⟨hnone, -⟩ | ⟨handler', rewired, hsome', hrewired, hstates⟩ :=
    expand_eq_append hwell hexpand
  · rw [hsome] at hnone
    cases hnone
  obtain rfl : handler = handler' := Option.some.inj (hsome.symm.trans hsome')
  constructor
  · rintro ⟨out, hget, hcarried⟩
    by_contra hlabel
    have hlost : s.failure.handler = s.failure.final ∨ handler.kind = .parallel ∧
        mergeHelperName s s.failure.handler = s.failure.handler := by
      tauto
    obtain ⟨other, hother, hkind⟩ := label_lost hwell hrewired x.context hlost
    rw [hstates, hother, Option.some.injEq] at hget
    have hown : handler.kind ≠ .interaction := by
      obtain ⟨t, rfl, -⟩ | ⟨p, branches, rfl, -⟩ := rewireHandler_eq_ok hrewired <;>
        simp [State.kind]
    exact hkind (hget ▸ hcarried.kind_eq hown)
  · rintro ⟨hfinal, hhelper⟩
    exact label_kept hwell hexpand hrewired hstates hfinal hhelper

end Handler

/-- Lowering a document that breaks no rule leaves no interaction and carries over every state, at
any depth.  It carries over the failure handler too, with everything inside it, exactly if neither
the failing end nor the handler's own merge helper comes out under its label. -/
theorem lower_carries (s : Settings) (d : Document) (lowered : Entries State)
    (hrules : ruleFindings s d = []) (hok : lower s d = .ok lowered) :
    (∀ scope ∈ scopesOf d.startAt lowered, ∀ entry ∈ scope.states,
        entry.2.kind ≠ .interaction) ∧
      StatesCarried s d.states lowered ∧
      ∀ handler, d.failureHandler? = some handler →
        ((∃ out, Entries.get? lowered s.failure.handler = some out ∧
            State.Carried s s.failure.handler handler out) ↔
          s.failure.handler ≠ s.failure.final ∧
            (handler.kind = .parallel →
              mergeHelperName s s.failure.handler ≠ s.failure.handler)) := by
  have hwell := ruleFindings_eq_nil_iff.mp hrules
  obtain ⟨x, hexpand, rfl⟩ := lower_eq_ok_iff.mp hok
  refine ⟨Scheme.no_interaction _ x.context d.startAt x.states, ?_,
    fun handler hsome => handler_carried_iff hwell hexpand hsome⟩
  apply statesCarried_of_forall
  intro entry hentry
  have hapart : ∀ scope ∈ nestedScopes "/States" d.states, scope.Apart s := by
    intro scope hscope
    exact hwell.helpers scope (by simp [Document.scopes, hscope])
  obtain ⟨out, hout, hcarried⟩ := Scheme.carried_each (r := { settings := s }) rfl x.context
    "/States" d.states hapart entry hentry
  exact ⟨out, get?_states_own hwell hexpand hentry hout, hcarried⟩

def askAboutEach : Document where
  name := "AskAboutEach"
  comment := "Ask about each item"
  startAt := "Each"
  states :=
    [("Each", .map { exit.isEnd := some true }
      ⟨none, "Ask", [("Ask", .interaction
        { resource := "ask"
          effects.parameters := some (.obj [("Item.$", .str "$")])
          exit.isEnd := some true })], []⟩)]
  decorators := some
    { taskFailureHandler := some (.parallel { exit.isEnd := some true }
        [⟨none, "Notify", [("Notify", .task
          { resource := "notify", exit.isEnd := some true })], []⟩]) }
  extra := []

theorem lower_carries_askAboutEach :
    let s := Settings.production
    ruleFindings s askAboutEach = [] ∧ ∃ lowered, lower s askAboutEach = .ok lowered ∧
      (∀ scope ∈ scopesOf "Each" lowered, ∀ entry ∈ scope.states, entry.2.kind ≠ .interaction) ∧
      StatesCarried s askAboutEach.states lowered ∧
      ∃ handler out, askAboutEach.failureHandler? = some handler ∧
        Entries.get? lowered s.failure.handler = some out ∧
          State.Carried s s.failure.handler handler out := by
  intro s
  have hrules : ruleFindings s askAboutEach = [] := by decide +kernel
  obtain ⟨lowered, hok⟩ := exists_of_isOk (x := lower s askAboutEach) (by decide +kernel)
  obtain ⟨hkinds, hstates, hhandler⟩ := lower_carries s askAboutEach lowered hrules hok
  have hlabels : s.failure.handler ≠ s.failure.final ∧
      mergeHelperName s s.failure.handler ≠ s.failure.handler := by
    decide +kernel
  obtain ⟨out, hout, hcarried⟩ := (hhandler _ rfl).mpr ⟨hlabels.1, fun _ => hlabels.2⟩
  exact ⟨hrules, lowered, hok, hkinds, hstates, _, out, rfl, hout, hcarried⟩

/-- Settings that put nothing in front of the names of merge helpers, so that the helper of a
failure handler comes out under the handler's own label. -/
def plainHelpers : Settings :=
  { Settings.production with
    mergeHelperStem := ""
    failure.handler := "on_failure" }

/-- No rule is broken where the merge helper of a failure handler takes the place of the handler. -/
theorem helper_replaces_handler :
    ruleFindings plainHelpers askAboutEach = [] ∧
      ∃ lowered handler out, lower plainHelpers askAboutEach = .ok lowered ∧
        askAboutEach.failureHandler? = some handler ∧
          Entries.get? lowered "on_failure" = some out ∧ out.kind = .task ∧
            ¬State.Carried plainHelpers "on_failure" handler out := by
  have hrules : ruleFindings plainHelpers askAboutEach = [] := by decide +kernel
  obtain ⟨lowered, hok⟩ := exists_of_isOk (x := lower plainHelpers askAboutEach)
    (by decide +kernel)
  have hkind : (lower plainHelpers askAboutEach).toOption.map
      (fun lowered => (Entries.get? lowered "on_failure").map State.kind) = some (some .task) := by
    decide +kernel
  rw [hok, Except.toOption, Option.map_some, Option.some.injEq, Option.map_eq_some_iff] at hkind
  obtain ⟨out, hout, htask⟩ := hkind
  refine ⟨hrules, lowered, _, out, hok, rfl, hout, htask, fun hcarried => ?_⟩
  have hparallel := hcarried.kind_eq (by simp [State.kind])
  rw [htask] at hparallel
  cases hparallel

end StateFlow.Lowering
