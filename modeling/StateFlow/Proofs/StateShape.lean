import StateFlow.Proofs.LoweredMembers
import StateFlow.Proofs.Reread

/-!
# The shape of states by kind

A written state has the shape of its kind if each of its members fits (`Fits`) and its exit is
decided.  These laws say so for the kinds that lowering changes, and for machines; `scopes_machine`
and its companions take the shape of a machine to the states at any depth in it.
-/

namespace StateFlow.Playbook

/-- An exit goes on to a state or ends the machine, and not both. -/
def Exit.Decided (e : Exit) : Prop := e.next.isSome ↔ e.isEnd = none

theorem Exit.decided_continuation (e : Exit) : e.continuation.Decided := by
  obtain ⟨next, isEnd⟩ := e
  rcases isEnd with _ | _ | _ <;> rcases next with _ | target <;>
    simp [Exit.continuation, Exit.Decided]

namespace Shape

open StateFlow.Schema StateFlow.Json

variable {target : Schema} {entries : Entries Json} {kind : Json}

/-! ## Members -/

def knownMembers : Schema → Entries Inner
  | .all (_ :: _ :: .closed known :: _) => known
  | _ => []

def Fits (target shape : Schema) (entry : String × Json) : Prop :=
  ∃ inner, Entries.get? (knownMembers shape) entry.1 = some inner ∧ inner.Accepts target entry.2

theorem accepts_kindObject_cons {named : Schema} {required : List String} {known : Entries Inner}
    {rules : List Schema} (hrequired : ∀ name ∈ required, name ∈ Entries.keys entries) :
    Accepts target (kindObject named required known rules) (.obj (("Type", kind) :: entries)) ↔
      Accepts target named kind ∧
      (∀ entry ∈ entries, Fits target (kindObject named required known rules) entry) ∧
      ∀ rule ∈ rules, Accepts target rule (.obj (("Type", kind) :: entries)) := by
  constructor
  · intro hshape
    obtain ⟨-, hmembers, hrules⟩ := accepts_kindObject.mp hshape
    exact ⟨accepts_kind_of_mem hshape (by simp),
      fun entry hentry => hmembers entry (List.mem_cons_of_mem _ hentry), hrules⟩
  · rintro ⟨hkind, hmembers, hrules⟩
    refine accepts_kindObject.mpr ⟨?_, ?_, hrules⟩
    · simpa using fun name hname => Or.inr (hrequired name hname)
    · exact List.forall_mem_cons.mpr ⟨⟨_, rfl, hkind⟩, hmembers⟩

/-! ## Exits -/

/-- A state that has to say how it is left does so in one way. -/
theorem accepts_exitRule {members : Entries Json} :
    Accepts target (exitRule .required) (.obj members) ↔
      ("Next" ∈ Entries.keys members ↔ "End" ∉ Entries.keys members) := by
  rw [exitRule, accepts_exactlyOne]
  by_cases hnext : "Next" ∈ Entries.keys members <;>
    by_cases hend : "End" ∈ Entries.keys members <;> simp [hnext, hend]

theorem accepts_exit {front : Entries Json} {e : Exit} (hnext : "Next" ∉ Entries.keys front)
    (hend : "End" ∉ Entries.keys front) :
    Accepts target (exitRule .required) (.obj (("Type", kind) :: (front ++ e.entries))) ↔
      e.Decided := by
  rw [accepts_exitRule]
  simp [hnext, hend, Exit.entries, Exit.Decided]

theorem accepts_task {t : Task} :
    Accepts target (task .required) (.obj (("Type", kind) :: t.entries)) ↔
      (kind = .str Kind.task.name ∨ kind = .str Kind.interaction.name) ∧
      (∀ entry ∈ t.entries, Fits target (task .required) entry) ∧ t.exit.Decided := by
  rw [task, accepts_kindObject_cons (by simp [Task.entries]), accepts_taskKind,
    List.forall_mem_singleton, Task.entries]
  rw [accepts_exit (by simp [Header.entries, Effects.entries, Recovery.entries])
      (by simp [Header.entries, Effects.entries, Recovery.entries])]

theorem accepts_parallel {p : Parallel} {branches : Json} :
    Accepts target (parallel .required) (.obj (("Type", kind) :: p.entries branches)) ↔
      kind = .str Kind.parallel.name ∧
      (∀ entry ∈ p.entries branches, Fits target (parallel .required) entry) ∧ p.exit.Decided := by
  rw [parallel, accepts_kindObject_cons (by simp [Parallel.entries]), accepts_isKind,
    List.forall_mem_singleton, Parallel.entries]
  rw [accepts_exit (by simp [Header.entries, Effects.entries, Recovery.entries])
      (by simp [Header.entries, Effects.entries, Recovery.entries])]

theorem accepts_map {m : MapOver} {iterator : Json} :
    Accepts target map (.obj (("Type", kind) :: m.entries iterator)) ↔
      kind = .str Kind.map.name ∧
      (∀ entry ∈ m.entries iterator, Fits target map entry) ∧ m.exit.Decided := by
  rw [map, accepts_kindObject_cons (by simp [MapOver.entries]), accepts_isKind,
    List.forall_mem_singleton, MapOver.entries]
  rw [accepts_exit (by simp [Header.entries, Effects.entries, Recovery.entries])
      (by simp [Header.entries, Effects.entries, Recovery.entries])]

theorem accepts_pass {s : Pass} :
    Accepts target pass (.obj (("Type", kind) :: s.entries)) ↔
      kind = .str Kind.pass.name ∧
      (∀ entry ∈ s.entries, Fits target pass entry) ∧ s.exit.Decided := by
  rw [pass, accepts_kindObject_cons (by simp), accepts_isKind, List.forall_mem_singleton,
    Pass.entries]
  rw [accepts_exit (by simp [Header.entries]) (by simp [Header.entries])]

/-! ## Values -/

theorem accepts_text {text : String} : Shape.text.Accepts target (.str text) := by
  rw [Shape.text, accepts_inner]
  simp [TypeName.accepts]

theorem accepts_anyObject {members : Entries Json} : anyObject.Accepts target (.obj members) := by
  rw [anyObject, accepts_inner]
  simp [TypeName.accepts]

theorem accepts_ending : (inner [.const (.bool true)]).Accepts target (.bool true) := by
  rw [accepts_inner]
  simp [Constant.accepts]

theorem accepts_stateName {name : String} :
    stateName.Accepts target (.str name) ↔ Pattern.stateName.accepts name = true := by
  rw [stateName, Inner.Accepts, Inner.resolve, stateNameSchema, accepts_all]
  simp [TypeName.accepts]

theorem accepts_list {β : Type} {inner : Inner} {write : β → Json} {xs : List β} :
    (Shape.inner [.type .array, .eachItem inner]).Accepts target (Json.ofList write xs) ↔
      ∀ x ∈ xs, inner.Accepts target (write x) := by
  rw [accepts_inner, Json.ofList]
  simp [TypeName.accepts]

/-- The rules that a state has before are accepted. -/
theorem accepts_own_rules {β : Type} {shape : Schema} {key : String} {inner : Inner}
    {write : β → Json} {own : Option (List β)}
    (hknown : Entries.get? (knownMembers shape) key =
      some (Shape.inner [.type .array, .eachItem inner]))
    (hfits : ∀ entry ∈ optionalEntry key (Json.ofList write) own, Fits target shape entry) :
    ∀ rule ∈ own.getD [], inner.Accepts target (write rule) := by
  cases own with
  | none => simp
  | some rules =>
      obtain ⟨found, hfound, haccepts⟩ := hfits (key, Json.ofList write rules) (by simp)
      rw [hknown] at hfound
      cases hfound
      exact accepts_list.mp haccepts

theorem accepts_machine {members : Entries Json} :
    machine.Accepts target (.obj members) ↔
      ("StartAt" ∈ Entries.keys members ∧ "States" ∈ Entries.keys members) ∧
      ∀ entry ∈ members, Fits target (machine.resolve target) entry := by
  rw [machine, accepts_inner]
  simp only [List.forall_mem_cons, List.not_mem_nil, false_imp_iff, implies_true, and_true]
  rw [accepts_type, accepts_required, accepts_closed]
  simp only [TypeName.accepts, List.forall_mem_cons, List.not_mem_nil, false_imp_iff, implies_true,
    and_true, true_and]
  rfl

theorem accepts_map_congr {m : MapOver} {own iterator : Json}
    (hshape : Accepts target map (.obj (("Type", kind) :: m.entries own)))
    (hiterator : machine.Accepts target iterator) :
    Accepts target map (.obj (("Type", kind) :: m.entries iterator)) := by
  obtain ⟨hkind, hfits, hexit⟩ := accepts_map.mp hshape
  refine accepts_map.mpr ⟨hkind, fun entry hentry => ?_, hexit⟩
  rcases MapOver.mem_entries own hentry with hown | rfl
  · exact hfits entry hown
  · exact ⟨_, rfl, hiterator⟩

theorem fits_startAt {startAt : String} :
    Fits target (machine.resolve target) ("StartAt", .str startAt) ↔
      Pattern.stateName.accepts startAt = true := by
  rw [← accepts_stateName]
  exact ⟨fun ⟨_, hinner, haccepts⟩ => by cases hinner; exact haccepts, fun h => ⟨_, rfl, h⟩⟩

def Shaped (target : Schema) (entry : String × State) : Prop :=
  Pattern.stateName.accepts entry.1 = true ∧ Accepts target target entry.2.toJson

theorem accepts_states {own : Entries State} :
    states.Accepts target (statesToJson own) ↔ ∀ entry ∈ own, Shaped target entry := by
  rw [states, accepts_inner, statesToJson, namedToJson_eq]
  simp only [List.forall_mem_cons, List.not_mem_nil, false_imp_iff, implies_true, and_true]
  rw [accepts_type, accepts_eachName, accepts_eachMember]
  simp only [Entries.keys, Entries.mapValues, List.forall_mem_map]
  constructor
  · rintro ⟨-, hnames, hmembers⟩ entry hentry
    exact ⟨accepts_stateName.mp (hnames entry hentry), hmembers entry hentry⟩
  · intro hown
    exact ⟨rfl, fun entry hentry => accepts_stateName.mpr (hown entry hentry).1,
      fun entry hentry => (hown entry hentry).2⟩

theorem fits_states {own : Entries State} :
    Fits target (machine.resolve target) ("States", statesToJson own) ↔
      ∀ entry ∈ own, Shaped target entry := by
  rw [← accepts_states]
  exact ⟨fun ⟨_, hinner, haccepts⟩ => by cases hinner; exact haccepts, fun h => ⟨_, rfl, h⟩⟩

theorem accepts_machine_toJson {m : Machine} :
    machine.Accepts target m.toJson ↔ Pattern.stateName.accepts m.startAt = true ∧
      (∀ entry ∈ m.states, Shaped target entry) ∧
      ∀ entry ∈ m.extra, Fits target (machine.resolve target) entry := by
  obtain ⟨comment, startAt, own, extra⟩ := m
  rw [Machine.toJson, machineObject, accepts_machine, List.forall_mem_append,
    List.forall_mem_append, List.forall_mem_cons, List.forall_mem_singleton, fits_startAt]
  change _ ∧ (_ ∧ _ ∧ Fits _ _ ("States", statesToJson own)) ∧ _ ↔ _
  rw [fits_states]
  have hcomment : ∀ entry ∈ optionalEntry "Comment" Json.str comment,
      Fits target (machine.resolve target) entry := by
    intro entry hentry
    obtain ⟨text, -, rfl⟩ := mem_optionalEntry.mp hentry
    exact ⟨_, rfl, accepts_text⟩
  exact ⟨fun ⟨_, ⟨_, hstart, hown⟩, hextra⟩ => ⟨hstart, hown, hextra⟩,
    fun ⟨hstart, hown, hextra⟩ => ⟨by simp, ⟨hcomment, hstart, hown⟩, hextra⟩⟩

theorem accepts_branches {branches : List Machine} :
    (inner [.type .array, .minItems 1, .eachItem machine]).Accepts target
        (.arr (Machine.listToJson branches)) ↔
      branches ≠ [] ∧ ∀ m ∈ branches, machine.Accepts target m.toJson := by
  rw [accepts_inner, listToJson_eq]
  simp only [List.forall_mem_cons, List.not_mem_nil, false_imp_iff, implies_true, and_true]
  rw [accepts_type, accepts_minItems, accepts_eachItem]
  simp [TypeName.accepts, Nat.one_le_iff_ne_zero]

theorem branches_of_accepts {p : Parallel} {branches : List Machine}
    (hshape : Accepts target (parallel .required)
      (.obj (("Type", kind) :: p.entries (.arr (Machine.listToJson branches))))) :
    branches ≠ [] ∧ ∀ m ∈ branches, machine.Accepts target m.toJson := by
  obtain ⟨inner, hinner, haccepts⟩ :=
    (accepts_parallel.mp hshape).2.1 _ (p.branches_mem (.arr (Machine.listToJson branches)))
  cases hinner
  exact accepts_branches.mp haccepts

theorem iterator_of_accepts {m : MapOver} {iterator : Json}
    (hshape : Accepts target map (.obj (("Type", kind) :: m.entries iterator))) :
    machine.Accepts target iterator := by
  obtain ⟨inner, hinner, haccepts⟩ := (accepts_map.mp hshape).2.1 _ (m.iterator_mem iterator)
  cases hinner
  exact haccepts

theorem accepts_toJson {marker : String} {s : State} :
    Accepts target (state marker) s.toJson ↔ Accepts target (ofKind marker s.kind) s.toJson := by
  rw [State.toJson, accepts_state_iff]
  constructor
  · rintro ⟨kind, hkind, hshape⟩
    have hown : kind = s.kind := kind_unique hkind rfl
    exact hown ▸ hshape
  · exact fun hshape => ⟨s.kind, rfl, hshape⟩

/-- The rules that a state does work by are accepted. -/
theorem accepts_recovery {shape : Schema} {own : Recovery}
    (hretry : Entries.get? (knownMembers shape) "Retry" =
      some (inner [.type .array, .eachItem retrier]))
    (hcatch : Entries.get? (knownMembers shape) "Catch" =
      some (inner [.type .array, .eachItem catcher]))
    (hfits : ∀ entry ∈ own.entries, Fits target shape entry) :
    (∀ rule ∈ own.retry.getD [], retrier.Accepts target rule.toJson) ∧
      ∀ rule ∈ own.catchers.getD [], catcher.Accepts target rule.toJson := by
  rw [Recovery.entries, List.forall_mem_append] at hfits
  exact ⟨accepts_own_rules hretry hfits.1, accepts_own_rules hcatch hfits.2⟩

/-- The rules of a state of the right shape are accepted. -/
theorem recovery_of_accepts {marker : String} {s : State}
    (hshape : Accepts target (state marker) s.toJson) {own : Recovery}
    (hown : s.recovery? = some own) :
    (∀ rule ∈ own.retry.getD [], retrier.Accepts target rule.toJson) ∧
      ∀ rule ∈ own.catchers.getD [], catcher.Accepts target rule.toJson := by
  rw [accepts_toJson] at hshape
  cases s with
  | pass | succeed | fail | wait | choice => cases hown
  | task t | interaction t =>
      cases hown
      obtain ⟨-, hfits, -⟩ := accepts_task.mp hshape
      exact accepts_recovery rfl rfl fun entry hentry => hfits entry (t.recovery_subset hentry)
  | parallel p branches =>
      cases hown
      obtain ⟨-, hfits, -⟩ := accepts_parallel.mp hshape
      exact accepts_recovery rfl rfl fun entry hentry => hfits entry (p.recovery_subset _ hentry)
  | map m iterator =>
      cases hown
      obtain ⟨-, hfits, -⟩ := accepts_map.mp hshape
      refine accepts_recovery rfl rfl fun entry hentry => hfits entry ?_
      simp [MapOver.entries, hentry]

theorem catchers_of_accepts {marker : String} {s : State}
    (hshape : Accepts target (state marker) s.toJson) :
    ∀ rule ∈ s.catchers, catcher.Accepts target rule.toJson := by
  unfold State.catchers
  cases hown : s.recovery? with
  | none => simp
  | some own => exact (recovery_of_accepts hshape hown).2

theorem accepts_wait {marker : String} {s : Wait}
    (hshape : Accepts target (wait marker) (.obj (("Type", kind) :: s.entries))) :
    (∀ entry ∈ s.entries, Fits target (wait marker) entry) ∧ s.exit.Decided := by
  obtain ⟨-, hfits, hrules⟩ := (accepts_kindObject_cons (by simp)).mp hshape
  refine ⟨hfits, ?_⟩
  rw [List.forall_mem_cons, List.forall_mem_singleton, Wait.entries] at hrules
  exact (accepts_exit (by simp [Header.entries]) (by simp [Header.entries])).mp hrules.2

theorem exit_of_fits {shape : Schema} {e : Exit}
    (hknown : Entries.get? (knownMembers shape) "End" = some (inner [.const (.bool true)]))
    (hfits : ∀ entry ∈ e.entries, Fits target shape entry) (hdecided : e.Decided) :
    (∃ next, e = { next := some next }) ∨ e = { isEnd := some true } := by
  obtain ⟨next, isEnd⟩ := e
  cases isEnd with
  | none =>
      obtain ⟨target, rfl⟩ := Option.isSome_iff_exists.mp (hdecided.mpr rfl)
      exact Or.inl ⟨target, rfl⟩
  | some value =>
      obtain ⟨found, hfound, haccepts⟩ := hfits ("End", .bool value) (by simp [Exit.entries])
      rw [hknown] at hfound
      cases hfound
      have hvalue : value = true := by
        simpa [accepts_inner, Constant.accepts] using haccepts
      have hnext : next = none := by
        simpa [Exit.Decided] using hdecided
      exact Or.inr (by rw [hvalue, hnext])

/-- A state of the right shape that can be left goes on to one state or ends its machine. -/
theorem exit_of_accepts {marker : String} {s : State}
    (hshape : Accepts target (state marker) s.toJson) {e : Exit} (hexit : s.exit? = some e) :
    (∃ next, e = { next := some next }) ∨ e = { isEnd := some true } := by
  rw [accepts_toJson] at hshape
  cases s with
  | succeed | fail | choice => cases hexit
  | pass s =>
      cases hexit
      obtain ⟨-, hfits, hdecided⟩ := accepts_pass.mp hshape
      refine exit_of_fits rfl (fun entry hentry => hfits entry ?_) hdecided
      simp [Pass.entries, hentry]
  | wait s =>
      cases hexit
      obtain ⟨hfits, hdecided⟩ := accepts_wait hshape
      refine exit_of_fits rfl (fun entry hentry => hfits entry ?_) hdecided
      simp [Wait.entries, hentry]
  | task s | interaction s =>
      cases hexit
      obtain ⟨-, hfits, hdecided⟩ := accepts_task.mp hshape
      refine exit_of_fits rfl (fun entry hentry => hfits entry ?_) hdecided
      simp [Task.entries, hentry]
  | parallel s branches =>
      cases hexit
      obtain ⟨-, hfits, hdecided⟩ := accepts_parallel.mp hshape
      exact exit_of_fits rfl (fun entry hentry => hfits entry (s.exit_subset _ hentry)) hdecided
  | map s iterator =>
      cases hexit
      obtain ⟨-, hfits, hdecided⟩ := accepts_map.mp hshape
      refine exit_of_fits rfl (fun entry hentry => hfits entry ?_) hdecided
      simp [MapOver.entries, hentry]

/-! ## Scopes at any depth -/

mutual

theorem scopes_machine {marker : String} (path : String) : (m : Machine) →
    machine.Accepts (state marker) m.toJson →
      ∀ scope ∈ Machine.scopes path m, ∀ entry ∈ scope.states,
        Shaped (state marker) entry
  | ⟨comment, startAt, own, extra⟩ => by
      intro hshape
      obtain ⟨-, hown, -⟩ := accepts_machine_toJson.mp hshape
      rw [Machine.scopes, List.forall_mem_cons]
      exact ⟨hown, scopes_nested path own hown⟩

theorem scopes_branches {marker : String} (path : String) (n : Nat) : (ms : List Machine) →
    (∀ m ∈ ms, machine.Accepts (state marker) m.toJson) →
      ∀ scope ∈ branchScopes path n ms, ∀ entry ∈ scope.states,
        Shaped (state marker) entry
  | [] => by simp [branchScopes]
  | m :: rest => by
      intro hshape
      rw [List.forall_mem_cons] at hshape
      rw [branchScopes, List.forall_mem_append]
      exact ⟨scopes_machine _ m hshape.1, scopes_branches path (n + 1) rest hshape.2⟩

theorem scopes_state {marker : String} (path : String) : (st : State) →
    Accepts (state marker) (state marker) st.toJson →
      ∀ scope ∈ State.scopes path st, ∀ entry ∈ scope.states,
        Shaped (state marker) entry
  | .pass _ | .succeed _ | .fail _ | .wait _ | .task _ | .interaction _ | .choice _ => by
      simp [State.scopes]
  | .parallel p branches => by
      intro hshape
      rw [State.scopes]
      exact scopes_branches path 0 branches
        (branches_of_accepts (accepts_toJson.mp hshape)).2
  | .map m iterator => by
      intro hshape
      rw [State.scopes]
      exact scopes_machine _ iterator
        (iterator_of_accepts (accepts_toJson.mp hshape))

theorem scopes_nested {marker : String} (path : String) : (own : List (String × State)) →
    (∀ entry ∈ own, Shaped (state marker) entry) →
      ∀ scope ∈ nestedScopes path own, ∀ entry ∈ scope.states,
        Shaped (state marker) entry
  | [] => by simp [nestedScopes]
  | (name, s) :: rest => by
      intro hown
      rw [List.forall_mem_cons] at hown
      rw [nestedScopes, List.forall_mem_append]
      exact ⟨scopes_state _ s hown.1.2, scopes_nested path rest hown.2⟩

end

end Shape

end StateFlow.Playbook
