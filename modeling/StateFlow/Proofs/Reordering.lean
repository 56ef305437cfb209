import Mathlib.Data.Multiset.Bind
import StateFlow.Proofs.ClosedReferences
import StateFlow.Proofs.Renaming

/-!
# Declaring states in another order

`Document.Reordered` relates documents that differ at most in the order in which scopes declare
their states, at any depth.  Such documents break no rule together, and if they break none they are
lowered to states that again differ in order only (`lower_reordered`).  A later state takes the
place of an earlier one of its name, so this rests on the rules: they leave no two states of a
scope, merge helpers included, under one name.
-/

namespace StateFlow.Playbook

/-! ## States in another order -/

mutual

/-- States that differ at most in the order in which machines inside them declare their states. -/
inductive State.Reordered : State → State → Prop
  | same (s : State) : State.Reordered s s
  | parallel (p : Parallel) {ms ms' : List Machine} (branches : MachinesReordered ms ms') :
      State.Reordered (.parallel p ms) (.parallel p ms')
  | map (m : MapOver) {i i' : Machine} (iterator : Machine.Reordered i i') :
      State.Reordered (.map m i) (.map m i')

inductive Machine.Reordered : Machine → Machine → Prop
  | mk (comment : Option String) (startAt : String) (extra : List (String × Json))
      {own moved own' : List (String × State)} (alike : StatesAlike own moved)
      (order : moved.Perm own') :
      Machine.Reordered ⟨comment, startAt, own, extra⟩ ⟨comment, startAt, own', extra⟩

/-- Branches are counted, so they stay in their places. -/
inductive MachinesReordered : List Machine → List Machine → Prop
  | nil : MachinesReordered [] []
  | cons {m m' : Machine} {rest rest' : List Machine} (first : Machine.Reordered m m')
      (others : MachinesReordered rest rest') : MachinesReordered (m :: rest) (m' :: rest')

inductive StatesAlike : List (String × State) → List (String × State) → Prop
  | nil : StatesAlike [] []
  | cons (name : String) {s s' : State} {rest rest' : List (String × State)}
      (first : State.Reordered s s') (others : StatesAlike rest rest') :
      StatesAlike ((name, s) :: rest) ((name, s') :: rest')

end

def StatesReordered (own own' : Entries State) : Prop :=
  ∃ moved, StatesAlike own moved ∧ moved.Perm own'

structure Scope.Reordered (a b : Scope) : Prop where
  path : a.path = b.path
  startAt : a.startAt = b.startAt
  states : StatesReordered a.states b.states

structure Scope.SameStates (a b : Scope) : Prop where
  path : a.path = b.path
  startAt : a.startAt = b.startAt
  states : ∀ name, Option.Rel State.Reordered (Entries.get? a.states name)
    (Entries.get? b.states name)

structure Decorators.Reordered (a b : Decorators) : Prop where
  handler : Option.Rel State.Reordered a.taskFailureHandler b.taskFailureHandler
  switch : a.disableDefaultRetry = b.disableDefaultRetry

structure Document.Reordered (d e : Document) : Prop where
  name : d.name = e.name
  comment : d.comment = e.comment
  startAt : d.startAt = e.startAt
  states : StatesReordered d.states e.states
  decorators : Option.Rel Decorators.Reordered d.decorators e.decorators
  extra : d.extra = e.extra

namespace State.Reordered

variable {s s' : State}

theorem kind (h : s.Reordered s') : s.kind = s'.kind := by
  cases h <;> rfl

theorem references (h : s.Reordered s') : s.references = s'.references := by
  cases h <;> rfl

theorem catchers (h : s.Reordered s') : s.catchers = s'.catchers := by
  cases h <;> rfl

end State.Reordered

namespace StatesAlike

variable {own own' : Entries State}

theorem refl (own : Entries State) : StatesAlike own own := by
  induction own with
  | nil => exact .nil
  | cons entry own ih => exact .cons entry.1 (.same entry.2) ih

theorem keys (h : StatesAlike own own') : Entries.keys own = Entries.keys own' := by
  induction own generalizing own' with
  | nil =>
      cases h
      rfl
  | cons entry own ih =>
      cases h with
      | cons name first others => rw [Entries.keys_cons, Entries.keys_cons, ih others]

theorem append {more more' : Entries State} (h : StatesAlike own own')
    (hmore : StatesAlike more more') : StatesAlike (own ++ more) (own' ++ more') := by
  induction own generalizing own' with
  | nil =>
      cases h
      exact hmore
  | cons entry own ih =>
      cases h with
      | cons name first others => exact .cons name first (ih others)

theorem insert {s s' : State} (h : StatesAlike own own') (name : String)
    (hstate : s.Reordered s') :
    StatesAlike (Entries.insert own name s) (Entries.insert own' name s') := by
  induction own generalizing own' with
  | nil =>
      cases h
      exact .cons name hstate .nil
  | cons entry own ih =>
      cases h with
      | cons other first others =>
          rw [Entries.insert, Entries.insert]
          split
          · exact .cons name hstate others
          · exact .cons other first (ih others)

theorem extend {more more' : Entries State} (h : StatesAlike own own')
    (hmore : StatesAlike more more') :
    StatesAlike (Entries.extend own more) (Entries.extend own' more') := by
  induction more generalizing own own' more' with
  | nil =>
      cases hmore
      exact h
  | cons entry more ih =>
      cases hmore with
      | cons name first others =>
          rw [Entries.extend_cons, Entries.extend_cons]
          exact ih (h.insert name first) others

theorem get? (h : StatesAlike own own') (name : String) :
    Option.Rel State.Reordered (Entries.get? own name) (Entries.get? own' name) := by
  induction own generalizing own' with
  | nil =>
      cases h
      exact .none
  | cons entry own ih =>
      cases h with
      | cons other first others =>
          rw [Entries.get?, Entries.get?]
          split
          · exact .some first
          · exact ih others

end StatesAlike

namespace StatesReordered

variable {own own' : Entries State}

theorem refl (own : Entries State) : StatesReordered own own :=
  ⟨own, .refl own, .refl own⟩

/-- What depends on the name of a state and on nothing in its machines comes out in another
order. -/
theorem flatMap_perm {β : Type} {f : String × State → List β} (h : StatesReordered own own')
    (hf : ∀ name s s', State.Reordered s s' → f (name, s) = f (name, s')) :
    (own.flatMap f).Perm (own'.flatMap f) := by
  obtain ⟨moved, halike, horder⟩ := h
  have heq : own.flatMap f = moved.flatMap f := by
    clear horder
    induction own generalizing moved with
    | nil =>
        cases halike
        rfl
    | cons entry own ih =>
        cases halike with
        | cons name first others =>
            rw [List.flatMap_cons, List.flatMap_cons, hf name _ _ first, ih _ others]
  rw [heq]
  exact horder.flatMap_right f

theorem keys_perm (h : StatesReordered own own') :
    (Entries.keys own).Perm (Entries.keys own') := by
  obtain ⟨moved, halike, horder⟩ := h
  rw [halike.keys]
  exact Entries.keys_perm horder

theorem namesWithHelpers_perm (h : StatesReordered own own') (s : Settings) :
    (namesWithHelpers s own).Perm (namesWithHelpers s own') := by
  refine h.flatMap_perm fun name a b hab => ?_
  rw [hab.kind]

theorem get? (h : StatesReordered own own') (hdistinct : Entries.Distinct own) (name : String) :
    Option.Rel State.Reordered (Entries.get? own name) (Entries.get? own' name) := by
  obtain ⟨moved, halike, horder⟩ := h
  have hmoved : Entries.Distinct moved := by
    rwa [Entries.Distinct, ← halike.keys]
  rw [← Entries.get?_perm hmoved horder]
  exact halike.get? name

end StatesReordered

/-! ## Scopes in another order -/

namespace Scope.Reordered

variable {a b : Scope}

theorem refl (a : Scope) : a.Reordered a := ⟨rfl, rfl, .refl _⟩

theorem apart_iff (h : a.Reordered b) (s : Settings) : a.Apart s ↔ b.Apart s :=
  (h.states.namesWithHelpers_perm s).nodup_iff

theorem closed_iff (h : a.Reordered b) : a.Closed ↔ b.Closed := by
  have hkeys : ∀ name, name ∈ Entries.keys a.states ↔ name ∈ Entries.keys b.states :=
    fun name => h.states.keys_perm.mem_iff
  have hrefs : (a.states.flatMap fun entry => entry.2.references).Perm
      (b.states.flatMap fun entry => entry.2.references) :=
    h.states.flatMap_perm fun name s s' hs => hs.references
  have htargets : ∀ sc : Scope, sc.Closed ↔ sc.startAt ∈ Entries.keys sc.states ∧
      ∀ ref ∈ sc.states.flatMap fun entry => entry.2.references,
        ref.target ∈ Entries.keys sc.states := by
    intro sc
    rw [Scope.closed_iff]
    simp only [List.mem_flatMap, forall_exists_index, and_imp]
    refine and_congr_right fun _ => ⟨fun hall ref entry hentry href => ?_, fun hall => ?_⟩
    · exact hall entry hentry ref href
    · exact fun entry hentry ref href => hall ref entry hentry href
  rw [htargets, htargets, h.startAt, hkeys]
  simp only [hrefs.mem_iff, hkeys]

end Scope.Reordered

/-- A condition that the related scopes of two lists meet together is met by all scopes of both
or of neither. -/
theorem forall_mem_iff_of_rel {as bs : List Scope} {P : Scope → Prop}
    (hrel : Multiset.Rel Scope.Reordered as bs)
    (hiff : ∀ a b, Scope.Reordered a b → (P a ↔ P b)) : (∀ a ∈ as, P a) ↔ ∀ b ∈ bs, P b := by
  constructor
  · intro hall b hb
    obtain ⟨a, ha, hab⟩ := Multiset.exists_mem_of_rel_of_mem (Multiset.rel_flip.mpr hrel) hb
    exact (hiff a b hab).mp (hall a ha)
  · intro hall a ha
    obtain ⟨b, hb, hab⟩ := Multiset.exists_mem_of_rel_of_mem hrel ha
    exact (hiff a b hab).mpr (hall b hb)

-- Recursion is on the first tree, and the derivation is taken apart along it.
mutual

theorem reordered_scopes_machine (path : String) : (m m' : Machine) → Machine.Reordered m m' →
    Multiset.Rel Scope.Reordered (Machine.scopes path m) (Machine.scopes path m')
  | ⟨_, _, own, _⟩, ⟨_, _, own', _⟩, @Machine.Reordered.mk _ _ _ _ moved _ halike horder => by
      have hinside : Multiset.Rel Scope.Reordered (nestedScopes path own)
          (nestedScopes path own') := by
        have hperm : (nestedScopes path moved).Perm (nestedScopes path own') := by
          rw [nestedScopes_eq_flatMap, nestedScopes_eq_flatMap]
          exact horder.flatMap_right _
        rw [← Multiset.coe_eq_coe.mpr hperm]
        exact reordered_scopes_alike path own moved halike
      rw [Machine.scopes, Machine.scopes, ← Multiset.cons_coe, ← Multiset.cons_coe]
      exact .cons ⟨rfl, rfl, moved, halike, horder⟩ hinside

theorem reordered_scopes_state (path : String) : (s s' : State) → State.Reordered s s' →
    Multiset.Rel Scope.Reordered (State.scopes path s) (State.scopes path s')
  | s, _, .same _ => Multiset.rel_refl_of_refl_on fun sc _ => Scope.Reordered.refl sc
  | .parallel _ ms, .parallel _ ms', .parallel _ hbranches => by
      rw [State.scopes, State.scopes]
      exact reordered_scopes_branches path 0 ms ms' hbranches
  | .map _ i, .map _ i', .map _ hiterator => by
      rw [State.scopes, State.scopes]
      exact reordered_scopes_machine _ i i' hiterator

theorem reordered_scopes_branches (path : String) (n : Nat) : (ms ms' : List Machine) →
    MachinesReordered ms ms' →
      Multiset.Rel Scope.Reordered (branchScopes path n ms) (branchScopes path n ms')
  | [], [], .nil => by
      rw [branchScopes]
      exact .zero
  | m :: rest, m' :: rest', .cons hfirst hothers => by
      rw [branchScopes, branchScopes, ← Multiset.coe_add, ← Multiset.coe_add]
      exact (reordered_scopes_machine _ m m' hfirst).add
        (reordered_scopes_branches path (n + 1) rest rest' hothers)

theorem reordered_scopes_alike (path : String) : (own own' : List (String × State)) →
    StatesAlike own own' →
      Multiset.Rel Scope.Reordered (nestedScopes path own) (nestedScopes path own')
  | [], [], .nil => by
      rw [nestedScopes]
      exact .zero
  | (_, s) :: rest, (_, s') :: rest', .cons name hfirst hothers => by
      rw [nestedScopes, nestedScopes, ← Multiset.coe_add, ← Multiset.coe_add]
      exact (reordered_scopes_state _ s s' hfirst).add
        (reordered_scopes_alike path rest rest' hothers)

end

theorem reordered_scopesOf {own own' : Entries State} (startAt : String)
    (h : StatesReordered own own') :
    Multiset.Rel Scope.Reordered (scopesOf startAt own) (scopesOf startAt own') := by
  obtain ⟨moved, halike, horder⟩ := h
  have hmachine := reordered_scopes_machine "/States" _ _ (.mk none startAt [] halike horder)
  rwa [Machine.scopes, Machine.scopes] at hmachine

theorem reordered_handlerScopes {handler handler' : State} (h : handler.Reordered handler') :
    Multiset.Rel Scope.Reordered (handlerScopes (some handler))
      (handlerScopes (some handler')) := by
  cases h with
  | same s => exact Multiset.rel_refl_of_refl_on fun sc _ => Scope.Reordered.refl sc
  | parallel p hbranches => exact reordered_scopes_branches _ 0 _ _ hbranches
  | map m hiterator => exact .zero

/-! ## The rules -/

namespace Document.Reordered

variable {d e : Document}

/-- Both documents have a failure handler or none has. -/
theorem failureHandler?_cases (h : d.Reordered e) :
    (d.failureHandler? = none ∧ e.failureHandler? = none) ∨
      ∃ handler handler', d.failureHandler? = some handler ∧ e.failureHandler? = some handler' ∧
        handler.Reordered handler' := by
  have hrel : Option.Rel State.Reordered d.failureHandler? e.failureHandler? := by
    have hdecorators := h.decorators
    unfold Document.failureHandler?
    generalize d.decorators = a at hdecorators
    generalize e.decorators = b at hdecorators
    cases hdecorators with
    | none => exact .none
    | some hsome => exact hsome.handler
  generalize d.failureHandler? = a at hrel
  generalize e.failureHandler? = b at hrel
  cases hrel with
  | none => exact Or.inl ⟨rfl, rfl⟩
  | some hstate => exact Or.inr ⟨_, _, rfl, rfl, hstate⟩

theorem scopes (h : d.Reordered e) : Multiset.Rel Scope.Reordered d.scopes e.scopes := by
  have htop := reordered_scopesOf e.startAt h.states
  have hhandler : Multiset.Rel Scope.Reordered (handlerScopes d.failureHandler?)
      (handlerScopes e.failureHandler?) := by
    rcases h.failureHandler?_cases with ⟨hd, he⟩ | ⟨handler, handler', hd, he, hstate⟩
    · rw [hd, he]
      exact .zero
    · rw [hd, he]
      exact reordered_handlerScopes hstate
  have hall := htop.add hhandler
  rw [Multiset.coe_add, Multiset.coe_add] at hall
  unfold Document.scopes
  rw [h.startAt]
  exact hall

theorem stateNames_perm (h : d.Reordered e) : d.stateNames.Perm e.stateNames := by
  let names (sc : Scope) : Multiset String := Entries.keys sc.states
  have hnames : Relator.LiftFun Scope.Reordered (Multiset.Rel Eq) names names := by
    intro a b hab
    exact Multiset.rel_eq.mpr (Multiset.coe_eq_coe.mpr hab.states.keys_perm)
  have hbind := Multiset.rel_bind hnames h.scopes
  rwa [Multiset.rel_eq, Multiset.coe_bind, Multiset.coe_bind, Multiset.coe_eq_coe] at hbind

theorem wellFormed_iff (h : d.Reordered e) (s : Settings) : WellFormed s d ↔ WellFormed s e := by
  have hkeys : ∀ name, name ∈ Entries.keys d.states ↔ name ∈ Entries.keys e.states :=
    fun name => h.states.keys_perm.mem_iff
  have hnames := h.stateNames_perm.nodup_iff
  have hclosed := forall_mem_iff_of_rel h.scopes fun a b hab => hab.closed_iff
  have hhelpers := forall_mem_iff_of_rel h.scopes fun a b hab => hab.apart_iff s
  have hreserved : (∀ name ∈ s.reservedNames, name ∉ Entries.keys d.states) ↔
      ∀ name ∈ s.reservedNames, name ∉ Entries.keys e.states := by
    simp only [hkeys]
  have hcatchers : (∀ handler ∈ d.failureHandler?, ∀ c ∈ handler.catchers,
      c.next ∈ Entries.keys d.states ∨
        c.next ∈ [s.failure.entry, s.failure.handler, s.failure.final]) ↔
      ∀ handler ∈ e.failureHandler?, ∀ c ∈ handler.catchers,
        c.next ∈ Entries.keys e.states ∨
          c.next ∈ [s.failure.entry, s.failure.handler, s.failure.final] := by
    simp only [hkeys]
    rcases h.failureHandler?_cases with ⟨hd, he⟩ | ⟨handler, handler', hd, he, hstate⟩
    · rw [hd, he]
    · rw [hd, he]
      simp only [Option.mem_some_iff, forall_eq', hstate.catchers]
  have hhandlerHelper : (∀ p branches, d.failureHandler? = some (.parallel p branches) →
      Lowering.mergeHelperName s s.failure.handler ∉ Entries.keys d.states) ↔
      ∀ p branches, e.failureHandler? = some (.parallel p branches) →
        Lowering.mergeHelperName s s.failure.handler ∉ Entries.keys e.states := by
    simp only [hkeys]
    rcases h.failureHandler?_cases with ⟨hd, he⟩ | ⟨handler, handler', hd, he, hstate⟩
    · rw [hd, he]
    · rw [hd, he]
      cases hstate with
      | same s => exact Iff.rfl
      | parallel p hbranches => simp
      | map m hiterator => simp
  constructor
  · intro hd
    exact ⟨hnames.mp hd.names, hclosed.mp hd.closed, hcatchers.mp hd.handlerCatchers,
      hreserved.mp hd.reserved, hhelpers.mp hd.helpers, hhandlerHelper.mp hd.handlerHelper⟩
  · intro he
    exact ⟨hnames.mpr he.names, hclosed.mpr he.closed, hcatchers.mpr he.handlerCatchers,
      hreserved.mpr he.reserved, hhelpers.mpr he.helpers, hhandlerHelper.mpr he.handlerHelper⟩

end Document.Reordered

end StateFlow.Playbook

namespace StateFlow.Lowering

open StateFlow.Playbook

/-! ## Lowering -/

namespace Scheme

variable {r : Scheme}

theorem each_perm {ctx : Context} {a b : Entries State} (horder : a.Perm b) :
    (r.each ctx a).Perm (r.each ctx b) := by
  rw [each_eq_flatMap, each_eq_flatMap]
  exact horder.flatMap_right _

mutual

/-- Inside a machine names differ, so no state is lost whatever the order. -/
theorem reordered_machine (path : String) : (m m' : Machine) → Machine.Reordered m m' →
    (∀ sc ∈ Machine.scopes path m, sc.Apart r.settings) →
      Machine.Reordered (r.machine m) (r.machine m')
  | ⟨_, _, own, _⟩, ⟨_, _, own', _⟩, @Machine.Reordered.mk _ _ _ _ moved _ halike horder,
      hapart => by
      rw [Machine.scopes, List.forall_mem_cons] at hapart
      have hstates : StatesReordered own own' := ⟨moved, halike, horder⟩
      have hown : (namesWithHelpers r.settings own).Nodup := hapart.1
      have hown' : (namesWithHelpers r.settings own').Nodup :=
        (hstates.namesWithHelpers_perm r.settings).nodup_iff.mp hown
      rw [machine, machine, ofPairs_each_eq hown, ofPairs_each_eq hown']
      exact .mk _ _ _ (alike_each {} path own moved halike hapart.2) (each_perm horder)

theorem reordered_machines (path : String) (n : Nat) : (ms ms' : List Machine) →
    MachinesReordered ms ms' → (∀ sc ∈ branchScopes path n ms, sc.Apart r.settings) →
      MachinesReordered (r.machines ms) (r.machines ms')
  | [], [], .nil, _ => by
      rw [machines]
      exact .nil
  | m :: rest, m' :: rest', .cons hfirst hothers, hapart => by
      rw [branchScopes, List.forall_mem_append] at hapart
      rw [machines, machines]
      exact .cons (reordered_machine _ m m' hfirst hapart.1)
        (reordered_machines path (n + 1) rest rest' hothers hapart.2)

/-- A state and its merge helper come out in the same places. -/
theorem alike_state (ctx : Context) (path name : String) : (s s' : State) →
    State.Reordered s s' → (∀ sc ∈ State.scopes path s, sc.Apart r.settings) →
      StatesAlike (r.state ctx name s) (r.state ctx name s')
  | s, _, .same _, _ => .refl _
  | .parallel _ ms, .parallel _ ms', .parallel _ hbranches, hapart => by
      rw [State.scopes] at hapart
      rw [state, state]
      exact .cons _ (.parallel _ (reordered_machines path 0 ms ms' hbranches hapart)) (.refl _)
  | .map _ i, .map _ i', .map _ hiterator, hapart => by
      rw [State.scopes] at hapart
      rw [state, state]
      exact .cons _ (.map _ (reordered_machine _ i i' hiterator hapart)) .nil

theorem alike_each (ctx : Context) (path : String) : (own own' : List (String × State)) →
    StatesAlike own own' → (∀ sc ∈ nestedScopes path own, sc.Apart r.settings) →
      StatesAlike (r.each ctx own) (r.each ctx own')
  | [], [], .nil, _ => by
      rw [each_nil]
      exact .nil
  | (_, s) :: rest, (_, s') :: rest', .cons name hfirst hothers, hapart => by
      rw [nestedScopes, List.forall_mem_append] at hapart
      rw [each_cons, each_cons]
      exact (alike_state ctx _ name s s' hfirst hapart.1).append
        (alike_each ctx path rest rest' hothers hapart.2)

end

end Scheme

variable {s : Settings} {d e : Document}

/-- The handlers of two documents that differ in order are rewired together or not at all. -/
theorem rewireHandler_reordered {handler handler' : State} (h : handler.Reordered handler') :
    (∃ kind, rewireHandler s handler = .error kind ∧ rewireHandler s handler' = .error kind) ∨
      ∃ rewired rewired', rewireHandler s handler = .ok rewired ∧
        rewireHandler s handler' = .ok rewired' ∧ rewired.Reordered rewired' := by
  cases h with
  | same handler =>
      cases hrewired : rewireHandler s handler with
      | error kind => exact Or.inl ⟨kind, rfl, rfl⟩
      | ok rewired => exact Or.inr ⟨rewired, rewired, rfl, rfl, .same rewired⟩
  | parallel p hbranches => exact Or.inr ⟨_, _, rfl, rfl, .parallel _ hbranches⟩
  | map m hiterator => exact Or.inl ⟨.map, rfl, rfl⟩

theorem alike_failureEntries {rewired rewired' : State} (h : rewired.Reordered rewired') :
    StatesAlike (failureEntries s rewired) (failureEntries s rewired') :=
  .cons _ (.same _) (.cons _ h (.cons _ (.same _) .nil))

theorem topContext_reordered (h : d.Reordered e) : topContext d = topContext e := by
  have hhandler : d.failureHandler?.isSome = e.failureHandler?.isSome := by
    rcases h.failureHandler?_cases with ⟨hd, he⟩ | ⟨handler, handler', hd, he, -⟩
    · rw [hd, he]
    · rw [hd, he]
      rfl
  have hswitch : d.decorators.bind Decorators.disableDefaultRetry =
      e.decorators.bind Decorators.disableDefaultRetry := by
    have hdecorators := h.decorators
    generalize d.decorators = a at hdecorators
    generalize e.decorators = b at hdecorators
    cases hdecorators with
    | none => rfl
    | some hsome => exact hsome.switch
  rw [topContext, topContext, hhandler, hswitch]

/-- A failure handler adds the same states in the same places to two documents that differ in
order, or its kind is reported for both. -/
theorem expand_reordered (hwell : WellFormed s d) (h : d.Reordered e) :
    (∃ kind, expand s d = .error kind ∧ expand s e = .error kind) ∨
      ∃ added added', expand s d = .ok ⟨d.states ++ added, topContext d⟩ ∧
        expand s e = .ok ⟨e.states ++ added', topContext e⟩ ∧ StatesAlike added added' := by
  have hwell' : WellFormed s e := (h.wellFormed_iff s).mp hwell
  rcases h.failureHandler?_cases with ⟨hd, he⟩ | ⟨handler, handler', hd, he, hhandler⟩
  · refine Or.inr ⟨[], [], ?_, ?_, .nil⟩
    · rw [expand_of_none hd, List.append_nil]
    · rw [expand_of_none he, List.append_nil]
  · rw [expand_of_some hd, expand_of_some he]
    rcases rewireHandler_reordered (s := s) hhandler with
      ⟨kind, hkind, hkind'⟩ | ⟨rewired, rewired', hok, hok', hrewired⟩
    · rw [hkind, hkind']
      exact Or.inl ⟨kind, rfl, rfl⟩
    · rw [hok, hok', Except.map, Except.map, extend_failureEntries hwell,
        extend_failureEntries hwell']
      have hadded := StatesAlike.nil.extend (alike_failureEntries (s := s) hrewired)
      exact Or.inr ⟨_, _, rfl, rfl, hadded⟩

theorem states_reordered (hwell : WellFormed s d) (h : d.Reordered e) {added added' : Entries State}
    (hexpand : expand s d = .ok ⟨d.states ++ added, topContext d⟩)
    (hadded : StatesAlike added added') (ctx : Context) :
    StatesReordered (Scheme.states { settings := s } ctx (d.states ++ added))
      (Scheme.states { settings := s } ctx (e.states ++ added')) := by
  let r : Scheme := { settings := s }
  have hapart : (namesWithHelpers r.settings d.states).Nodup := hwell.helpers _ (topScope_mem d)
  have hapart' : (namesWithHelpers r.settings e.states).Nodup :=
    (h.states.namesWithHelpers_perm s).nodup_iff.mp hapart
  have hinside := apart_of_expand hwell hexpand
  rw [nestedScopes_append, List.forall_mem_append] at hinside
  obtain ⟨moved, halike, horder⟩ := h.states
  have hown := Scheme.alike_each (r := r) ctx "/States" _ _ halike hinside.1
  have hmore := Scheme.alike_each (r := r) ctx "/States" _ _ hadded hinside.2
  have hdistinct : Entries.Distinct (r.each ctx moved) := by
    rwa [Entries.Distinct, ← hown.keys, Scheme.keys_each]
  rw [Scheme.states_append hapart, Scheme.states_append hapart']
  exact ⟨_, hown.extend hmore, Entries.extend_perm _ hdistinct (Scheme.each_perm horder)⟩

theorem Scheme.distinct_scopes_states (r : Scheme) (ctx : Context) (startAt : String)
    (own : Entries State) :
    ∀ sc ∈ scopesOf startAt (r.states ctx own), Entries.Distinct sc.states := by
  intro sc hsc
  rcases List.mem_cons.mp hsc with rfl | hinside
  · exact Entries.distinct_ofPairs _
  · have hmem := Scheme.scopes_each_subset ctx _ own
      (Scheme.nestedScopes_ofPairs_subset _ _ hinside)
    obtain ⟨source, -, rfl⟩ := List.mem_map.mp hmem
    exact Entries.distinct_ofPairs _

end StateFlow.Lowering

namespace StateFlow

open StateFlow.Playbook StateFlow.Lowering

/-- The order in which scopes declare their states, at any depth, decides neither whether a document
breaks a rule nor, where it breaks none, what its names stand for when it is lowered. -/
theorem lower_reordered (s : Settings) (d e : Document) (h : d.Reordered e) :
    (ruleFindings s d = [] ↔ ruleFindings s e = []) ∧
      (ruleFindings s d = [] →
        (∃ kind, lowerDocument s d = .error (.handlerKind kind) ∧
            lowerDocument s e = .error (.handlerKind kind)) ∨
          ∃ a b, lowerDocument s d = .ok a ∧ lowerDocument s e = .ok b ∧ StatesReordered a b ∧
            Multiset.Rel Scope.SameStates (scopesOf d.startAt a) (scopesOf e.startAt b)) := by
  rw [ruleFindings_eq_nil_iff, ruleFindings_eq_nil_iff]
  refine ⟨h.wellFormed_iff s, fun hwell => ?_⟩
  rcases expand_reordered hwell h with
    ⟨kind, hd, he⟩ | ⟨added, added', hd, he, hadded⟩
  · exact Or.inl ⟨kind.name, lowerDocument_eq_error hd, lowerDocument_eq_error he⟩
  · have hstates := states_reordered hwell h hd hadded (topContext d)
    rw [← topContext_reordered h] at he
    refine Or.inr ⟨_, _, lowerDocument_eq_ok hd, lowerDocument_eq_ok he, hstates, ?_⟩
    rw [← h.startAt]
    refine (reordered_scopesOf d.startAt hstates).mono fun a ha b _ hab => ?_
    have hdistinct := Scheme.distinct_scopes_states _ _ _ _ a ha
    exact ⟨hab.path, hab.startAt, hab.states.get? hdistinct⟩

/-- A Parallel, a state behind it and a failure handler with a branch of two states, every scope in
the order that `order` gives it. -/
def arranged (order : List (String × State) → List (String × State)) : Document where
  name := "Arranged"
  comment := "Split, then rest"
  startAt := "Split"
  states := order
    [("Split", .parallel { exit := { next := some "Rest" } }
        [{ comment := none, startAt := "Left", extra := [],
           states := order
             [("Left", .pass { exit := { next := some "Right" } }), ("Right", .succeed {})] }]),
      ("Rest", .succeed {})]
  decorators := some
    { taskFailureHandler := some (.parallel { exit := { isEnd := some true } }
        [{ comment := none, startAt := "Notify", extra := [],
           states := order
             [("Notify", .task { resource := "notify", exit := { next := some "Stop" } }),
               ("Stop", .fail {})] }]) }
  extra := []

theorem arranged_reordered : (arranged id).Reordered (arranged List.reverse) where
  name := rfl
  comment := rfl
  startAt := rfl
  states := ⟨_, .cons _ (.parallel _ (.cons
      (.mk _ _ _ (.refl _) (List.reverse_perm _).symm) .nil)) (.refl _),
    (List.reverse_perm _).symm⟩
  decorators := .some ⟨.some (.parallel _ (.cons
      (.mk _ _ _ (.refl _) (List.reverse_perm _).symm) .nil)), rfl⟩
  extra := rfl

theorem lower_reordered_arranged :
    ruleFindings .production (arranged id) = [] ∧
      ruleFindings .production (arranged List.reverse) = [] ∧
        ∃ a b, lowerDocument .production (arranged id) = .ok a ∧
          lowerDocument .production (arranged List.reverse) = .ok b ∧ StatesReordered a b ∧
            Multiset.Rel Scope.SameStates (scopesOf "Split" a) (scopesOf "Split" b) ∧
              Entries.keys a ≠ Entries.keys b := by
  have hrules : ruleFindings .production (arranged id) = [] := by decide +kernel
  obtain ⟨hiff, hlower⟩ := lower_reordered .production _ _ arranged_reordered
  refine ⟨hrules, hiff.mp hrules, ?_⟩
  have hok : (lowerDocument .production (arranged id)).isOk = true := by decide +kernel
  obtain ⟨kind, hkind, -⟩ | ⟨a, b, ha, hb, hstates, hscopes⟩ := hlower hrules
  · rw [hkind] at hok
    cases hok
  · have hkeys : (lowerDocument .production (arranged id)).toOption.map Entries.keys ≠
        (lowerDocument .production (arranged List.reverse)).toOption.map Entries.keys := by
      decide +kernel
    rw [ha, hb] at hkeys
    exact ⟨a, b, ha, hb, hstates, hscopes, fun heq => hkeys (congrArg some heq)⟩

end StateFlow
