import StateFlow.Proofs.CompiledShape
import StateFlow.Proofs.Pointer

/-!
# Findings inside single states

The findings about the shape of a playbook name the place that they are about.  A state of the
playbook has a finding at its place or inside it exactly if it has one when it is checked on its own
(`shapeFindings_into_state_iff`), whatever else is wrong with the playbook.

Violations are followed down from the whole value: each part of a schema gets one law that says
when it has a violation below a step.
-/

namespace StateFlow.Schema

open StateFlow.Json

variable {target : Schema} {step : List Char} {place : List (List Char)}

/-- Some violation is at the place with these steps, or inside it. -/
def Below (place : List (List Char)) (found : List Violation) : Prop :=
  ∃ violation ∈ found, place <+: violation.path.map Segment.text

@[simp] theorem below_nil {found : List Violation} : Below [] found ↔ found ≠ [] := by
  simp only [Below, List.nil_prefix, and_true]
  exact ⟨fun ⟨_, hmem⟩ => List.ne_nil_of_mem hmem, List.exists_mem_of_ne_nil found⟩

@[simp] theorem not_below_nil : ¬ Below place [] := by
  simp [Below]

@[simp] theorem below_append {a b : List Violation} :
    Below place (a ++ b) ↔ Below place a ∨ Below place b := by
  simp [Below, or_and_right, exists_or]

@[simp] theorem below_flatMap {α : Type} {xs : List α} {f : α → List Violation} :
    Below place (xs.flatMap f) ↔ ∃ x ∈ xs, Below place (f x) := by
  simp only [Below, List.mem_flatMap]
  constructor
  · rintro ⟨violation, ⟨x, hx, hmem⟩, hplace⟩
    exact ⟨x, hx, violation, hmem, hplace⟩
  · rintro ⟨x, hx, violation, hmem, hplace⟩
    exact ⟨violation, ⟨x, hx, hmem⟩, hplace⟩

/-! ## The value at hand -/

@[simp] theorem not_below_here {cause : Cause} : ¬ Below (step :: place) (here cause) := by
  simp [Below, here]

@[simp] theorem not_below_demand {condition : Bool} {cause : Cause} :
    ¬ Below (step :: place) (demand condition cause) := by
  rw [demand]
  split
  · simp [Below]
  · exact not_below_here

theorem not_below_required {i : Instance} {names : List String} :
    ¬ Below (step :: place) (violations i (.required names)) := by
  rw [violations]
  split
  · simp
  · simp [Below]

/-! ## Members -/

@[simp] theorem below_memberViolations {name : String} {check : InnerCheck} {inner : Inner} :
    Below (step :: place) (memberViolations name check inner) ↔
      step = (Segment.key name).text ∧ Below place (check inner) := by
  simp only [Below, memberViolations, List.mem_map, exists_exists_and_eq_and, Violation.under,
    List.map_cons, List.cons_prefix_cons]
  constructor
  · rintro ⟨violation, hmem, hstep, hplace⟩
    exact ⟨hstep, violation, hmem, hplace⟩
  · rintro ⟨hstep, violation, hmem, hplace⟩
    exact ⟨violation, hmem, hstep, hplace⟩

theorem below_closed {known : Entries Inner} {members : Entries Json} {name : String} :
    Below ((Segment.key name).text :: place)
        (closedViolations known (checkMembers target members)) ↔
      ∃ value inner, (name, value) ∈ members ∧ Entries.get? known name = some inner ∧
        Below place (check target value inner) := by
  rw [closedViolations, below_append, or_iff_left not_below_demand, below_flatMap,
    checkMembers_eq_map, Entries.mapValues]
  simp only [List.mem_map, exists_exists_and_eq_and]
  constructor
  · rintro ⟨entry, hentry, hbelow⟩
    cases hinner : Entries.get? known entry.1 with
    | none => simp [hinner, Below] at hbelow
    | some inner =>
        rw [hinner, below_memberViolations, text_key_inj] at hbelow
        obtain ⟨rfl, hbelow⟩ := hbelow
        exact ⟨entry.2, inner, hentry, hinner, hbelow⟩
  · rintro ⟨value, inner, hmem, hinner, hbelow⟩
    refine ⟨(name, value), hmem, ?_⟩
    rw [hinner, below_memberViolations]
    exact ⟨rfl, hbelow⟩

theorem below_eachMember {inner : Inner} {members : Entries Json} {name : String} :
    Below ((Segment.key name).text :: place)
        (violations (Instance.of target (.obj members)) (.eachMember inner)) ↔
      ∃ value, (name, value) ∈ members ∧ Below place (check target value inner) := by
  rw [violations, below_flatMap, Instance.of, checkMembers_eq_map, Entries.mapValues]
  simp only [List.mem_map, exists_exists_and_eq_and, below_memberViolations, text_key_inj]
  constructor
  · rintro ⟨entry, hentry, rfl, hbelow⟩
    exact ⟨entry.2, hentry, hbelow⟩
  · rintro ⟨value, hmem, hbelow⟩
    exact ⟨(name, value), hmem, rfl, hbelow⟩

end StateFlow.Schema

namespace StateFlow.Playbook

open StateFlow.Schema StateFlow.Json

variable {marker : String} {place : List (List Char)}

/-! ## Playbooks and their states -/

theorem below_playbook {members : Entries Json} {name : String} :
    Below ((Segment.key name).text :: place) (Shape.checkPlaybook marker (.obj members)) ↔
      ∃ value inner, (name, value) ∈ members ∧
        Entries.get? (Shape.knownMembers Shape.playbook) name = some inner ∧
        Below place (check (Shape.state marker) value inner) := by
  rw [Shape.checkPlaybook, check_eq, Inner.resolve, Shape.playbook, violations,
    violationsEach_eq_map]
  simp only [List.map_cons, List.map_nil, List.flatten_cons, List.flatten_nil, List.append_nil,
    below_append, not_below_required, false_or]
  rw [violations, violations, or_iff_right not_below_demand, Instance.of]
  exact below_closed

/-- What is wrong with the name of a state is wrong with the object that has the name. -/
theorem not_below_stateName {step : List Char} {text : String} :
    ¬ Below (step :: place) (violations ⟨.str text, [], []⟩ Shape.stateNameSchema) := by
  rw [Shape.stateNameSchema, violations, violationsEach_eq_map]
  simp [violations]

theorem below_states {states : Entries Json} {name : String} :
    Below ((Segment.key name).text :: place)
        (check (Shape.state marker) (.obj states) Shape.states) ↔
      ∃ state, (name, state) ∈ states ∧
        Below place (check (Shape.state marker) state .recur) := by
  rw [check_eq, Shape.states, Shape.inner, Inner.resolve, violations, violationsEach_eq_map]
  simp only [List.map_cons, List.map_nil, List.flatten_cons, List.flatten_nil, List.append_nil,
    below_append]
  rw [or_iff_right, or_iff_right]
  · exact below_eachMember
  · rw [violations, below_flatMap]
    rintro ⟨text, -, hbelow⟩
    exact not_below_stateName hbelow
  · rw [violations]
    exact not_below_demand

/-! ## Single states -/

/-- A state that passes on its own names its kind. -/
theorem exists_kind_of_checkState {s : Settings} {members : Entries Json}
    (hnone : checkState s (.obj members) = []) :
    ∃ kind : Kind, Entries.get? members "Type" = some (.str kind.name) := by
  simp only [checkState, Json.kind, ne_eq, not_true_eq_false, if_false] at hnone
  split at hnone
  · next kind hkind =>
      refine ⟨kind, ?_⟩
      -- A missing name is taken for the empty text, which names no kind.
      have hsome : kind.name ≠ "" := by cases kind <;> decide
      rw [Shape.name_of_ofName? hkind] at hsome ⊢
      cases hvalue : Entries.get? members "Type" with
      | none => simp [Json.get?, hvalue] at hsome
      | some value => cases value <;> simp_all [Json.get?, asString?]
  · cases hnone

/-- A state passes on its own exactly if it has the shape of a state. -/
theorem checkState_eq_nil_iff {s : Settings} {v : Json} :
    checkState s v = [] ↔
      Accepts (Shape.state s.literalMarker) (Shape.state s.literalMarker) v := by
  constructor
  · intro hnone
    cases v with
    | obj members =>
        obtain ⟨kind, hkind⟩ := exists_kind_of_checkState hnone
        exact Shape.accepts_state_iff.mpr ⟨kind, hkind, (checkState_eq_nil kind hkind).mp hnone⟩
    | _ => simp [checkState, Json.kind] at hnone
  · intro haccepts
    obtain ⟨members, rfl⟩ := Shape.exists_obj_of_accepts haccepts
    obtain ⟨kind, hkind, hshape⟩ := Shape.accepts_state_iff.mp haccepts
    exact (checkState_eq_nil kind hkind).mpr hshape

/-! ## Findings -/

/-- Some finding about the shape of a value is at a place, or inside it. -/
theorem exists_shapeFinding_iff {s : Settings} {v : Json} {path : List Segment} :
    (∃ finding ∈ shapeFindings s v, ∃ found, finding.path = some found ∧
        PointsInto (pointer path) found) ↔
      Below (path.map Segment.text) (Shape.checkPlaybook s.literalMarker v) := by
  simp only [shapeFindings, List.mem_map, exists_exists_and_eq_and, findingOfViolation,
    Option.some.injEq, exists_eq_left', pointsInto_iff, Below]

def brokenWork : Json := .obj
  [("Playbook", .str "Broken"), ("StartAt", .str "/Rest"),
    ("Decorators", .obj [("TaskFailureHandler", .obj [("Type", .str "Task")])]),
    ("States", .obj
      [("Left/Right", .obj
        [("Type", .str "Parallel"),
          ("Branches", .arr [.obj
            [("StartAt", .str "Inner"),
              ("States", .obj [("Inner", .obj [("Type", .str "Nap")])])]]),
          ("End", .bool true)]),
        ("Rest", .obj [("Type", .str "Succeed")]),
        ("Resting", .obj [("Type", .str "Succeed"), ("End", .bool true)])])]

/-- A state of a playbook has a finding at its place or inside it exactly if it has a finding when
it is checked on its own. -/
theorem shapeFindings_into_state_iff (s : Settings) (v : Json) (hwell : v.WellFormed)
    (states : Entries Json) (hstates : v.get? "States" = some (.obj states))
    (name : String) (state : Json) (hmem : (name, state) ∈ states) :
    (∃ finding ∈ shapeFindings s v, ∃ path, finding.path = some path ∧
        PointsInto (pointer [.key "States", .key name]) path) ↔
      checkState s state ≠ [] := by
  cases v with
  | obj members =>
      have hdistinct : Entries.Distinct states :=
        (wellFormed_of_mem hwell.2 (Entries.mem_of_get? hstates)).1
      rw [exists_shapeFinding_iff, List.map_cons, List.map_singleton, below_playbook]
      have hstate : Below [] (check (Shape.state s.literalMarker) state .recur) ↔
          checkState s state ≠ [] := by
        rw [below_nil, ne_eq, check_eq_nil, ne_eq, checkState_eq_nil_iff]
        rfl
      rw [← hstate]
      constructor
      · rintro ⟨value, inner, hvalue, hinner, hbelow⟩
        cases hinner
        cases hstates.symm.trans (Entries.get?_of_mem hwell.1 hvalue)
        obtain ⟨other, hother, hbelow⟩ := below_states.mp hbelow
        cases (Entries.get?_of_mem hdistinct hmem).symm.trans (Entries.get?_of_mem hdistinct hother)
        exact hbelow
      · intro hbelow
        exact ⟨.obj states, Shape.states, Entries.mem_of_get? hstates, rfl,
          below_states.mpr ⟨state, hmem, hbelow⟩⟩
  | _ => cases hstates

theorem shapeFindings_into_state_brokenWork :
    brokenWork.WellFormed ∧
      (∃ finding ∈ shapeFindings .production brokenWork, ∃ path, finding.path = some path ∧
        PointsInto "/States/Left~1Right" path) ∧
      ¬ ∃ finding ∈ shapeFindings .production brokenWork, ∃ path, finding.path = some path ∧
        PointsInto "/States/Rest" path := by
  have hwell : brokenWork.WellFormed := by
    simp [brokenWork, Json.WellFormed, Json.WellFormedMembers, Json.WellFormedItems,
      Entries.Distinct]
  refine ⟨hwell, ?_, ?_⟩
  · exact (shapeFindings_into_state_iff .production brokenWork hwell _ rfl "Left/Right" _
      List.mem_cons_self).mpr (by decide +kernel)
  · rw [show "/States/Rest" = pointer [.key "States", .key "Rest"] by rfl,
      shapeFindings_into_state_iff .production brokenWork hwell _ rfl "Rest" _
        (List.mem_cons_of_mem _ List.mem_cons_self)]
    exact not_not_intro (by decide +kernel)

end StateFlow.Playbook
