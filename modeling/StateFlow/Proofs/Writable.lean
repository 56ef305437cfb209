import StateFlow.Proofs.ClosedReferences
import StateFlow.Proofs.Reread

/-!
# States that can be written

Not every state survives being written and read again: a `null` reads as an absent member, the
condition of a choice rule may have a member under the name of its target, and a machine may carry
along a member under a name that it gives a meaning to.  States in which none of this happens, at
any depth, are `Writable`.  Whatever is read from Json is writable (`readsWritable`), and so are
the states that a document is lowered to and the bootstrap states (`writable_assemble`).
-/

namespace StateFlow.Playbook

open StateFlow.Json

/-! ## The condition -/

def Effects.Writable (e : Effects) : Prop :=
  e.parameters ≠ some .null ∧ e.resultSelector ≠ some .null

def ChoiceRule.Writable (r : ChoiceRule) : Prop := "Next" ∉ Entries.keys r.condition

def Machine.knownMembers : List String := ["Comment", "StartAt", "States"]

mutual

/-- A state that is the same when it is written and read again. -/
inductive State.Writable : State → Prop
  | pass {fields : Pass} (parameters : fields.parameters ≠ some .null)
      (result : fields.result ≠ some .null) : State.Writable (.pass fields)
  | succeed (header : Header) : State.Writable (.succeed header)
  | fail (fields : Fail) : State.Writable (.fail fields)
  | wait {fields : Wait} (seconds : fields.seconds ≠ some .null) : State.Writable (.wait fields)
  | task {fields : Task} (effects : fields.effects.Writable) : State.Writable (.task fields)
  | interaction {fields : Task} (effects : fields.effects.Writable) :
      State.Writable (.interaction fields)
  | choice {fields : Choice} (rules : ∀ rule ∈ fields.rules, rule.Writable) :
      State.Writable (.choice fields)
  | parallel {fields : Parallel} {branches : List Machine} (effects : fields.effects.Writable)
      (machines : ∀ m ∈ branches, Machine.Writable m) : State.Writable (.parallel fields branches)
  | map {fields : MapOver} {iterator : Machine} (effects : fields.effects.Writable)
      (machine : Machine.Writable iterator) : State.Writable (.map fields iterator)

inductive Machine.Writable : Machine → Prop
  | mk {comment : Option String} {startAt : String} {own : List (String × State)}
      {extra : List (String × Json)} (states : ∀ entry ∈ own, State.Writable entry.2)
      (others : ∀ key ∈ Entries.keys extra, key ∉ Machine.knownMembers) :
      Machine.Writable ⟨comment, startAt, own, extra⟩

end

structure Document.Writable (d : Document) : Prop where
  states : ∀ entry ∈ d.states, entry.2.Writable
  handler : ∀ handler ∈ d.failureHandler?, handler.Writable
  others : ∀ key ∈ Entries.keys d.extra, key ∉ Document.knownMembers

/-! ## What is read is writable -/

variable {members : Entries Json}

theorem ne_null_of_mayRead {key : String} {x : Option Json} (h : MayRead members key readAny x) :
    x ≠ some .null := by
  rintro rfl
  rcases h with ⟨-, hnone⟩ | ⟨v, -, hread⟩
  · cases hnone
  · cases readOptional_eq_some hread
    cases hread

theorem not_mem_known_of_mem_others {α : Type} {known : List String} {m : Entries α} :
    ∀ key ∈ Entries.keys (others known m), key ∉ known := by
  intro key hkey
  obtain ⟨entry, hentry, rfl⟩ := List.mem_map.mp hkey
  exact (mem_others.mp hentry).2

theorem writable_rule {v : Json} {r : ChoiceRule} (hread : ChoiceRule.ofJson v = .ok r) :
    r.Writable := by
  obtain ⟨m, rfl, hgives⟩ := readRecord_eq_ok hread
  simp only [Reading.gives_seq, Reading.gives_map, Reading.gives_pure] at hgives
  obtain ⟨_, _, ⟨_, rfl, rfl⟩, -, rfl⟩ := hgives
  intro hnext
  exact not_mem_known_of_mem_others "Next" hnext (by simp)

theorem forall_mem_of_readList {β : Type} {read : Json → Except Mismatch β} {P : β → Prop}
    (hread : ∀ v x, read v = .ok x → P x) {v : Json} {xs : List β}
    (hlist : readList read v = .ok xs) : ∀ x ∈ xs, P x := by
  cases v with
  | arr items => exact forall_mem_of_forall₂ (mapM_eq_ok.mp hlist) fun item _ => hread item
  | _ => cases hlist

theorem writable_effects {e : Effects}
    (hgives : (Fields.effects (Part.ofMembers members)).Gives e) : e.Writable := by
  simp only [Fields.effects, Reading.gives_seq, Reading.gives_map, optionalPart_gives] at hgives
  obtain ⟨_, _, ⟨_, _, ⟨_, hparameters, rfl⟩, hselector, rfl⟩, -, rfl⟩ := hgives
  exact ⟨ne_null_of_mayRead hparameters, ne_null_of_mayRead hselector⟩

theorem effects_of_gives {t : Task} (hgives : (Fields.task (Part.ofMembers members)).Gives t) :
    t.effects.Writable := by
  simp only [Fields.task, Reading.gives_seq, Reading.gives_map] at hgives
  obtain ⟨_, _, ⟨_, _, ⟨_, _, ⟨_, _, ⟨_, _, ⟨_, _, ⟨_, _, ⟨_, _, ⟨_, -, rfl⟩, -, rfl⟩, heffects,
    rfl⟩, -, rfl⟩, -, rfl⟩, -, rfl⟩, -, rfl⟩, -, rfl⟩, -, rfl⟩ := hgives
  exact writable_effects heffects

structure ReadsWritable (v : Json) : Prop where
  state : ∀ s, (Part.ofJson v).state.get = .ok s → s.Writable
  states : ∀ own, (Part.ofJson v).states.get = .ok own → ∀ entry ∈ own, entry.2.Writable
  machine : ∀ m, (Part.ofJson v).machine.get = .ok m → m.Writable
  machines : ∀ ms, (Part.ofJson v).machines.get = .ok ms → ∀ m ∈ ms, m.Writable

theorem writable_of_gives {kind : Kind} {s : State}
    (hgives : (Fields.state (Part.ofMembers members) kind).Gives s)
    (ih : ∀ entry ∈ members, ReadsWritable entry.2) : s.Writable := by
  cases kind with
  | pass =>
      simp only [Fields.state, Fields.pass, Reading.gives_seq, Reading.gives_map,
        optionalPart_gives] at hgives
      obtain ⟨_, ⟨_, _, ⟨_, _, ⟨_, _, ⟨_, _, ⟨_, -, rfl⟩, hparameters, rfl⟩, hresult, rfl⟩, -, rfl⟩,
        -, rfl⟩, rfl⟩ := hgives
      exact .pass (ne_null_of_mayRead hparameters) (ne_null_of_mayRead hresult)
  | succeed =>
      obtain ⟨_, -, rfl⟩ := Reading.gives_map.mp hgives
      exact .succeed _
  | fail =>
      obtain ⟨_, -, rfl⟩ := Reading.gives_map.mp hgives
      exact .fail _
  | wait =>
      simp only [Fields.state, Fields.wait, Reading.gives_seq, Reading.gives_map,
        optionalPart_gives] at hgives
      obtain ⟨_, ⟨_, _, ⟨_, _, ⟨_, _, ⟨_, _, ⟨_, _, ⟨_, -, rfl⟩, hseconds, rfl⟩, -, rfl⟩, -, rfl⟩,
        -, rfl⟩, -, rfl⟩, rfl⟩ := hgives
      exact .wait (ne_null_of_mayRead hseconds)
  | task =>
      obtain ⟨_, hfields, rfl⟩ := Reading.gives_map.mp hgives
      exact .task (effects_of_gives hfields)
  | interaction =>
      obtain ⟨_, hfields, rfl⟩ := Reading.gives_map.mp hgives
      exact .interaction (effects_of_gives hfields)
  | choice =>
      simp only [Fields.state, Fields.choice, Reading.gives_seq, Reading.gives_map,
        requiredPart_gives] at hgives
      obtain ⟨_, ⟨_, _, ⟨_, _, ⟨_, -, rfl⟩, ⟨v, -, hrules⟩, rfl⟩, -, rfl⟩, rfl⟩ := hgives
      exact .choice (forall_mem_of_readList (fun _ _ => writable_rule) hrules)
  | parallel =>
      simp only [Fields.state, Fields.parallel, Reading.gives_seq, Reading.gives_map,
        member_gives] at hgives
      obtain ⟨_, branches, ⟨_, ⟨_, _, ⟨_, _, ⟨_, _, ⟨_, -, rfl⟩, heffects, rfl⟩, -, rfl⟩, -, rfl⟩,
        rfl⟩, ⟨v, hv, hmachines⟩, rfl⟩ := hgives
      exact .parallel (writable_effects heffects)
        ((ih _ (Entries.mem_of_get? hv)).machines branches hmachines)
  | map =>
      simp only [Fields.state, Fields.mapOver, Reading.gives_seq, Reading.gives_map,
        member_gives] at hgives
      obtain ⟨_, iterator, ⟨_, ⟨_, _, ⟨_, _, ⟨_, _, ⟨_, _, ⟨_, _, ⟨_, -, rfl⟩, -, rfl⟩, -, rfl⟩,
        heffects, rfl⟩, -, rfl⟩, -, rfl⟩, rfl⟩, ⟨v, hv, hmachine⟩, rfl⟩ := hgives
      exact .map (writable_effects heffects)
        ((ih _ (Entries.mem_of_get? hv)).machine iterator hmachine)

theorem readsWritable_obj (ih : ∀ entry ∈ members, ReadsWritable entry.2) :
    ReadsWritable (.obj members) := by
  refine ⟨fun s hread => ?_, fun own hread => ?_, fun m hread => ?_, fun _ hread => ?_⟩
  · obtain ⟨kind, -, hgives⟩ := ofMembers_eq_ok hread
    exact writable_of_gives hgives ih
  · rw [states_obj_eq_ok] at hread
    exact forall_mem_of_forall₂ hread fun entry hentry result hresult =>
      (ih entry hentry).state result.2 hresult.2
  · have hgives := Reading.toExcept_eq_ok.mp hread
    simp only [Fields.machine, Reading.gives_seq, Reading.gives_map, Reading.gives_pure,
      member_gives, values_others] at hgives
    obtain ⟨_, _, ⟨_, own, ⟨_, _, ⟨_, -, rfl⟩, -, rfl⟩, ⟨v, hv, hstates⟩, rfl⟩, rfl, rfl⟩ := hgives
    exact .mk ((ih _ (Entries.mem_of_get? hv)).states own hstates) not_mem_known_of_mem_others
  · cases hread

theorem readsWritable_scalar {v : Json} (hv : Part.ofJson v = Part.scalar v) :
    ReadsWritable v := by
  constructor <;> rw [hv] <;> intro _ hread <;> cases hread

theorem readsWritable_arr {items : List Json} (ih : ∀ item ∈ items, ReadsWritable item) :
    ReadsWritable (.arr items) := by
  refine ⟨fun _ hread => ?_, fun _ hread => ?_, fun _ hread => ?_, fun ms hread => ?_⟩
  · cases hread
  · cases hread
  · cases hread
  · rw [machines_arr_eq_ok] at hread
    exact forall_mem_of_forall₂ hread fun item hitem => (ih item hitem).machine

theorem readsWritable (v : Json) : ReadsWritable v := by
  induction v using Json.inductionOn with
  | null | bool _ | num _ | str _ => exact readsWritable_scalar rfl
  | arr items ih => exact readsWritable_arr ih
  | obj members ih => exact readsWritable_obj ih

theorem Document.writable_of_ofJson {v : Json} {d : Document} (hread : Document.ofJson v = .ok d) :
    d.Writable := by
  obtain ⟨members, rfl, hfrom⟩ := Document.ofJson_eq_ok hread
  refine ⟨?_, fun handler hhandler => ?_, ?_⟩
  · obtain ⟨v, -, hstates⟩ := hfrom.states
    exact (readsWritable v).states d.states hstates
  · obtain ⟨_, value, -, -, hvalue⟩ := hfrom.handler hhandler
    exact (readsWritable value).state handler hvalue
  · rw [hfrom.extra]
    exact not_mem_known_of_mem_others

end StateFlow.Playbook

namespace StateFlow.Lowering

open StateFlow.Playbook

/-! ## What is lowered is writable -/

namespace Scheme

variable {r : Scheme}

theorem writable_choice {c : Choice} (hrules : ∀ rule ∈ c.rules, rule.Writable) :
    ∀ rule ∈ (r.choice c).rules, rule.Writable := by
  intro rule hrule
  obtain ⟨source, hsource, rfl⟩ := List.mem_map.mp hrule
  exact hrules source hsource

theorem writable_task {ctx : Context} {name : String} {t : Task} (heffects : t.effects.Writable) :
    (r.task ctx name t).effects.Writable := by
  refine ⟨?_, heffects.2⟩
  cases hparameters : t.effects.parameters <;> simp [task, work, taskEnvelope, hparameters]

theorem writable_interaction {ctx : Context} {name : String} {t : Task}
    (heffects : t.effects.Writable) : (r.interaction ctx name t).effects.Writable := by
  refine ⟨?_, heffects.2⟩
  simp [interaction, interactionEnvelope]

mutual

theorem writable_machine : (m : Machine) → m.Writable → (r.machine m).Writable
  | ⟨comment, startAt, own, extra⟩, .mk hstates hothers => by
      rw [machine]
      refine .mk (fun entry hentry => ?_) hothers
      exact writable_each {} own hstates entry (Entries.mem_of_mem_ofPairs hentry)

theorem writable_machines : (ms : List Machine) → (∀ m ∈ ms, m.Writable) →
    ∀ m ∈ r.machines ms, m.Writable
  | [], _ => by simp [machines]
  | m :: rest, hall => by
      rw [List.forall_mem_cons] at hall
      rw [machines, List.forall_mem_cons]
      exact ⟨writable_machine m hall.1, writable_machines rest hall.2⟩

/-- Envelopes are objects, so no lowering step writes a `null`. -/
theorem writable_state (ctx : Context) (name : String) : (s : State) → s.Writable →
    ∀ out ∈ r.state ctx name s, out.2.Writable
  | .pass _, .pass hparameters hresult => by
      rw [state, List.forall_mem_singleton]
      exact .pass hparameters hresult
  | .succeed h, _ => by
      rw [state, List.forall_mem_singleton]
      exact .succeed h
  | .fail s, _ => by
      rw [state, List.forall_mem_singleton]
      exact .fail s
  | .wait _, .wait hseconds => by
      rw [state, List.forall_mem_singleton]
      exact .wait hseconds
  | .task _, .task heffects => by
      rw [state, List.forall_mem_singleton]
      exact .task (writable_task heffects)
  | .interaction _, .interaction heffects => by
      rw [state, List.forall_mem_singleton]
      exact .task (writable_interaction heffects)
  | .choice _, .choice hrules => by
      rw [state, List.forall_mem_singleton]
      exact .choice (writable_choice hrules)
  | .parallel p ms, .parallel heffects hmachines => by
      rw [state, List.forall_mem_cons, List.forall_mem_singleton]
      refine ⟨.parallel heffects (writable_machines ms hmachines), .task ?_⟩
      simp [helper, mergeHelper, Effects.Writable]
  | .map _ m, .map heffects hmachine => by
      rw [state, List.forall_mem_singleton]
      exact .map heffects (writable_machine m hmachine)

theorem writable_each (ctx : Context) : (own : List (String × State)) →
    (∀ entry ∈ own, entry.2.Writable) → ∀ out ∈ r.each ctx own, out.2.Writable
  | [], _ => by simp
  | (name, s) :: rest, hall => by
      rw [List.forall_mem_cons] at hall
      rw [each_cons, List.forall_mem_append]
      exact ⟨writable_state ctx name s hall.1, writable_each ctx rest hall.2⟩

end

end Scheme

variable {s : Settings} {d : Document}

theorem writable_of_expand {x : Expanded} (hwritable : d.Writable) (hexpand : expand s d = .ok x) :
    ∀ entry ∈ x.states, entry.2.Writable := by
  intro entry hentry
  rcases mem_of_expand hexpand hentry with hown | ⟨handler, rewired, hsome, hrewired, hadded⟩
  · exact hwritable.states entry hown
  · have hhandler := hwritable.handler handler hsome
    simp only [failureEntries, List.mem_cons, List.not_mem_nil, or_false] at hadded
    rcases hadded with rfl | rfl | rfl
    · exact .pass (by simp) (by simp)
    · obtain ⟨t, rfl, rfl⟩ | ⟨p, branches, rfl, rfl⟩ := rewireHandler_eq_ok hrewired
      · cases hhandler with
        | task heffects => exact .task heffects
      · cases hhandler with
        | parallel heffects hmachines => exact .parallel heffects hmachines
    · exact .fail _

theorem writable_bootstrap (start : String) :
    ∀ entry ∈ Bootstrap.states s start, entry.2.Writable := by
  intro entry hentry
  have hpairs := Entries.mem_of_mem_ofPairs hentry
  simp only [List.mem_cons, List.not_mem_nil, or_false] at hpairs
  rcases hpairs with rfl | rfl | rfl
  · refine .choice ?_
    simp [Bootstrap.invocationCheck, Bootstrap.contextRule, ChoiceRule.Writable]
  · refine .task ?_
    simp [Bootstrap.stateSetup, Effects.Writable]
  · exact .pass (by simp [Bootstrap.inputFormatter]) (by simp [Bootstrap.inputFormatter])

theorem writable_assemble {x : Expanded} (hwritable : d.Writable) (hexpand : expand s d = .ok x) :
    ∀ entry ∈ (Definition.assemble s d
      (Scheme.states { settings := s } x.context x.states)).states, entry.2.Writable := by
  intro entry hentry
  rcases Entries.mem_of_mem_extend hentry with hboot | hlowered
  · exact writable_bootstrap d.startAt entry hboot
  · exact Scheme.writable_each x.context x.states (writable_of_expand hwritable hexpand) entry
      (Entries.mem_of_mem_ofPairs hlowered)

end StateFlow.Lowering
