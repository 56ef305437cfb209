import StateFlow.Proofs.Entries
import StateFlow.Schema.Check

/-!
# What schemas accept

A value is accepted if it has no violation.  Each part of a schema gets one law that says which
values it accepts; proofs about shapes use these laws and do not look at violations again.
-/

namespace StateFlow.Schema

variable {target : Schema} {v : Json}

attribute [local simp] violations

def Instance.of (target : Schema) : Json → Instance
  | .arr items => ⟨.arr items, checkItems target items, []⟩
  | .obj members => ⟨.obj members, [], checkMembers target members⟩
  | v => ⟨v, [], []⟩

/-- A value has no violation of a schema, where references go to `target`. -/
def Accepts (target schema : Schema) (v : Json) : Prop :=
  violations (Instance.of target v) schema = []

def Inner.Accepts (target : Schema) (inner : Inner) (v : Json) : Prop :=
  Schema.Accepts target (inner.resolve target) v

theorem check_eq (target : Schema) (v : Json) (inner : Inner) :
    check target v inner = violations (Instance.of target v) (inner.resolve target) := by
  cases v <;> rfl

theorem check_eq_nil {inner : Inner} : check target v inner = [] ↔ inner.Accepts target v := by
  rw [check_eq]
  rfl

@[simp] theorem value_of : (Instance.of target v).value = v := by
  cases v <;> rfl

@[simp] theorem demand_eq_nil {condition : Bool} {cause : Cause} :
    demand condition cause = [] ↔ condition = true := by
  cases condition <;> simp [demand, here]

/-! ## Combinations -/

theorem violationsEach_eq_map (i : Instance) (parts : List Schema) :
    violationsEach i parts = parts.map (violations i) := by
  induction parts with
  | nil => rfl
  | cons part parts ih => rw [violationsEach, ih, List.map_cons]

@[simp] theorem accepts_all {parts : List Schema} :
    Accepts target (.all parts) v ↔ ∀ part ∈ parts, Accepts target part v := by
  simp [Accepts, violationsEach_eq_map]

@[simp] theorem accepts_anyOf {parts : List Schema} :
    Accepts target (.anyOf parts) v ↔ ∃ part ∈ parts, Accepts target part v := by
  simp [Accepts, violationsEach_eq_map]

theorem accepts_oneOf {parts : List Schema} :
    Accepts target (.oneOf parts) v ↔
      parts.countP (fun part => (violations (Instance.of target v) part).isEmpty) = 1 := by
  simp only [Accepts, violations, violationsEach_eq_map, List.countP_map, Function.comp_def]
  split
  · next hcount => simp [here, hcount]
  · next hcount => simp [hcount]
  · next hone => simpa [here] using hone

/-- Which of several parts hold decides, and nothing else of the value. -/
theorem accepts_oneOf_congr {parts : List Schema} {w : Json}
    (hparts : ∀ part ∈ parts, Accepts target part v ↔ Accepts target part w) :
    Accepts target (.oneOf parts) v ↔ Accepts target (.oneOf parts) w := by
  have hcount : parts.countP (fun part => (violations (Instance.of target v) part).isEmpty) =
      parts.countP (fun part => (violations (Instance.of target w) part).isEmpty) := by
    refine List.countP_congr fun part hpart => ?_
    rw [List.isEmpty_iff, List.isEmpty_iff]
    exact hparts part hpart
  rw [accepts_oneOf, accepts_oneOf, hcount]

@[simp] theorem accepts_implies {condition consequence : Schema} :
    Accepts target (.implies condition consequence) v ↔
      (Accepts target condition v → Accepts target consequence v) := by
  rw [Accepts, violations]
  split
  · next hholds => simp [Accepts, List.isEmpty_iff.mp hholds]
  · next hholds => simp [Accepts, List.isEmpty_iff.not.mp hholds]

/-! ## Values of one type -/

@[simp] theorem accepts_type {name : TypeName} :
    Accepts target (.type name) v ↔ name.accepts v = true := by
  simp [Accepts]

@[simp] theorem accepts_const {value : Constant} :
    Accepts target (.const value) v ↔ value.accepts v = true := by
  simp [Accepts]

@[simp] theorem accepts_enum {values : List Constant} :
    Accepts target (.enum values) v ↔ ∃ value ∈ values, value.accepts v = true := by
  simp [Accepts]

@[simp] theorem accepts_pattern {p : Pattern} {text : String} :
    Accepts target (.pattern p) (.str text) ↔ p.accepts text = true := by
  simp [Accepts]

@[simp] theorem accepts_timestamp {text : String} :
    Accepts target .timestamp (.str text) ↔ Timestamp.accepts text = true := by
  simp [Accepts]

@[simp] theorem accepts_minLength {count : Nat} {text : String} :
    Accepts target (.minLength count) (.str text) ↔ count ≤ text.toList.length := by
  simp [Accepts]

@[simp] theorem accepts_minimum {bound : Nat} {n : Number} :
    Accepts target (.minimum bound) (.num n) ↔ n.ltNat bound = false := by
  simp [Accepts]

@[simp] theorem accepts_maximum {bound : Nat} {n : Number} :
    Accepts target (.maximum bound) (.num n) ↔ n.gtNat bound = false := by
  simp [Accepts]

/-! ## Lists -/

theorem itemViolations_eq_nil {inner : Inner} {n : Nat} {items : List Json} :
    itemViolations inner n (checkItems target items) = [] ↔
      ∀ item ∈ items, inner.Accepts target item := by
  induction items generalizing n with
  | nil => simp [checkItems, itemViolations]
  | cons item items ih =>
      rw [checkItems, itemViolations, List.append_eq_nil_iff, List.map_eq_nil_iff, check_eq_nil, ih,
        List.forall_mem_cons]

@[simp] theorem accepts_eachItem {inner : Inner} {items : List Json} :
    Accepts target (.eachItem inner) (.arr items) ↔ ∀ item ∈ items, inner.Accepts target item := by
  rw [Accepts, violations]
  exact itemViolations_eq_nil

@[simp] theorem accepts_minItems {count : Nat} {items : List Json} :
    Accepts target (.minItems count) (.arr items) ↔ count ≤ items.length := by
  simp [Accepts, Instance.of]

/-! ## Objects -/

theorem checkMembers_eq_map (members : Entries Json) :
    checkMembers target members = Entries.mapValues (check target) members := by
  induction members with
  | nil => rfl
  | cons entry members ih => rw [checkMembers, ih]; rfl

theorem has_checkMembers (target : Schema) {members : Entries Json} {name : String} :
    Entries.has (checkMembers target members) name = true ↔ name ∈ Entries.keys members := by
  rw [Entries.has_iff, checkMembers_eq_map, Entries.keys_mapValues]

theorem memberViolations_eq_nil {name : String} {inner : Inner} :
    memberViolations name (check target v) inner = [] ↔ inner.Accepts target v := by
  rw [memberViolations, List.map_eq_nil_iff, check_eq_nil]

@[simp] theorem accepts_required {names : List String} {members : Entries Json} :
    Accepts target (.required names) (.obj members) ↔
      ∀ name ∈ names, name ∈ Entries.keys members := by
  simp [Accepts, Instance.of, isObject, here, has_checkMembers]

@[simp] theorem accepts_notAll {names : List String} {members : Entries Json} :
    Accepts target (.notAll names) (.obj members) ↔
      ∃ name ∈ names, name ∉ Entries.keys members := by
  simp [Accepts, Instance.of, isObject, ← has_checkMembers target]

@[simp] theorem accepts_closed {known : Entries Inner} {members : Entries Json} :
    Accepts target (.closed known) (.obj members) ↔ ∀ entry ∈ members,
      ∃ inner, Entries.get? known entry.1 = some inner ∧ inner.Accepts target entry.2 := by
  have hstrangers : (Entries.keys members).filter (fun name => !Entries.has known name) = [] ↔
      ∀ entry ∈ members, ∃ inner, Entries.get? known entry.1 = some inner := by
    simp [Entries.keys, Entries.has, ← Option.ne_none_iff_exists']
  simp only [Accepts, violations, closedViolations, Instance.of, checkMembers_eq_map,
    Entries.keys_mapValues, List.append_eq_nil_iff, demand_eq_nil, List.isEmpty_iff, hstrangers,
    List.flatMap_eq_nil_iff]
  simp only [Entries.mapValues, List.forall_mem_map]
  constructor
  · rintro ⟨hown, hknown⟩ entry hentry
    obtain ⟨inner, hinner⟩ := hknown entry hentry
    have hown := hown entry hentry
    rw [hinner] at hown
    exact ⟨inner, hinner, memberViolations_eq_nil.mp hown⟩
  · intro haccepts
    refine ⟨fun entry hentry => ?_, fun entry hentry => ?_⟩
    · obtain ⟨inner, hinner, hentry⟩ := haccepts entry hentry
      rw [hinner]
      exact memberViolations_eq_nil.mpr hentry
    · obtain ⟨inner, hinner, -⟩ := haccepts entry hentry
      exact ⟨inner, hinner⟩

@[simp] theorem accepts_properties {known : Entries Inner} {members : Entries Json} :
    Accepts target (.properties known) (.obj members) ↔ ∀ entry ∈ known,
      ∀ value, Entries.get? members entry.1 = some value → entry.2.Accepts target value := by
  simp only [Accepts, violations, propertyViolations, Instance.of, checkMembers_eq_map,
    List.flatMap_eq_nil_iff, Entries.get?_mapValues]
  refine forall₂_congr fun entry hentry => ?_
  cases Entries.get? members entry.1 with
  | none => simp
  | some value => simpa using memberViolations_eq_nil

@[simp] theorem accepts_eachMember {inner : Inner} {members : Entries Json} :
    Accepts target (.eachMember inner) (.obj members) ↔
      ∀ entry ∈ members, inner.Accepts target entry.2 := by
  simp only [Accepts, violations, Instance.of, checkMembers_eq_map, List.flatMap_eq_nil_iff,
    Entries.mapValues, List.forall_mem_map, memberViolations_eq_nil]

@[simp] theorem accepts_eachName {schema : Schema} {members : Entries Json} :
    Accepts target (.eachName schema) (.obj members) ↔
      ∀ name ∈ Entries.keys members, Accepts target schema (.str name) := by
  simp [Accepts, Instance.of, namesOf]

end StateFlow.Schema
