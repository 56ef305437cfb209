import Mathlib.Data.List.Perm.Basic
import StateFlow.Proofs.CompiledShape

/-!
# The grammar of choice rules

The shape of a Choice says indirectly what a rule is: an object closed over all comparisons, of
which exactly one is present.  `checkState_choice_iff` puts it the other way round, as a grammar in
which each form of rule lists its own members.

A form that chooses one of several members is closed over all of them and counts those that are
there.  `accepts_selection` turns this into one form for each choice, for every shape of that kind.
-/

namespace StateFlow.Schema

/-- An object with the members of a form: each name is there, and every member has a name of the
form and a value that goes with it. -/
def HasForm (form : Entries (Json → Prop)) : Json → Prop
  | .obj members => (∀ name ∈ Entries.keys form, name ∈ Entries.keys members) ∧
      ∀ entry ∈ members, ∃ field ∈ form, field.1 = entry.1 ∧ field.2 entry.2
  | _ => False

variable {target : Schema}

/-- The form of an object that has to have all members that it may have. -/
def formOf (target : Schema) (known : Entries Inner) : Entries (Json → Prop) :=
  Entries.mapValues (Inner.Accepts target) known

theorem formOf_nil (target : Schema) : formOf target [] = [] := rfl

theorem formOf_cons {inner : Inner} {p : Json → Prop} (hinner : ∀ v, inner.Accepts target v ↔ p v)
    (name : String) (rest : Entries Inner) :
    formOf target ((name, inner) :: rest) = (name, p) :: formOf target rest := by
  have hp : inner.Accepts target = p := funext fun v => propext (hinner v)
  rw [formOf, Entries.mapValues_cons, hp]
  rfl

theorem accepts_closed_iff_mem {known : Entries Inner} {members : Entries Json}
    (hdistinct : Entries.Distinct known) :
    Accepts target (.closed known) (.obj members) ↔
      ∀ entry ∈ members, ∃ field ∈ known, field.1 = entry.1 ∧ field.2.Accepts target entry.2 := by
  rw [accepts_closed]
  refine forall₂_congr fun entry _ => ?_
  constructor
  · rintro ⟨inner, hget, haccepts⟩
    exact ⟨(entry.1, inner), Entries.mem_of_get? hget, rfl, haccepts⟩
  · rintro ⟨⟨name, inner⟩, hmem, rfl, haccepts⟩
    exact ⟨inner, Entries.get?_of_mem hdistinct hmem, haccepts⟩

theorem hasForm_formOf {known : Entries Inner} {members : Entries Json}
    (hdistinct : Entries.Distinct known) :
    HasForm (formOf target known) (.obj members) ↔
      Accepts target (.required (Entries.keys known)) (.obj members) ∧
        Accepts target (.closed known) (.obj members) := by
  rw [accepts_required, accepts_closed_iff_mem hdistinct]
  simp [HasForm, formOf, Entries.mapValues, Entries.keys]

end StateFlow.Schema

namespace StateFlow.Playbook.Shape

open StateFlow.Schema StateFlow.Json

variable {target : Schema}

/-! ## Forms with a choice -/

theorem countP_eq_one_iff {names : List String} {p : String → Bool} (hnodup : names.Nodup) :
    names.countP p = 1 ↔ ∃ name ∈ names, ∀ other ∈ names, p other = true ↔ other = name := by
  constructor
  · intro hcount
    rw [List.countP_eq_length_filter, List.length_eq_one_iff] at hcount
    obtain ⟨name, hfilter⟩ := hcount
    have hmem : ∀ other, other ∈ names ∧ p other = true ↔ other = name := by
      intro other
      rw [← List.mem_filter, hfilter, List.mem_singleton]
    refine ⟨name, ((hmem name).mpr rfl).1, fun other hother => ?_⟩
    rw [← hmem other]
    exact ⟨fun hp => ⟨hother, hp⟩, And.right⟩
  · rintro ⟨name, hname, hothers⟩
    have hcount : names.countP p = names.count name := by
      rw [List.count]
      refine List.countP_congr fun other hother => ?_
      rw [hothers other hother, beq_iff_eq]
    rw [hcount]
    exact List.count_eq_one_of_mem hnodup hname

theorem sublist_choice (fixed : Entries Inner) {choices : Entries Inner} {choice : String × Inner}
    (hchoice : choice ∈ choices) : (fixed ++ [choice]).Sublist (fixed ++ choices) :=
  (List.singleton_sublist.mpr hchoice).append_left fixed

theorem distinct_choice {fixed choices : Entries Inner} {choice : String × Inner}
    (hdistinct : Entries.Distinct (fixed ++ choices)) (hchoice : choice ∈ choices) :
    Entries.Distinct (fixed ++ [choice]) :=
  hdistinct.sublist ((sublist_choice fixed hchoice).map Prod.fst)

/-- An object that is closed over several choices and has exactly one of them is closed over that
one. -/
theorem closed_selection {fixed choices : Entries Inner} {names : List String}
    {members : Entries Json} (hdistinct : Entries.Distinct (fixed ++ choices))
    (hnames : names.Perm (Entries.keys choices)) :
    Accepts target (.closed (fixed ++ choices)) (.obj members) ∧
        Accepts target (exactlyOne names) (.obj members) ↔
      ∃ choice ∈ choices, choice.1 ∈ Entries.keys members ∧
        Accepts target (.closed (fixed ++ [choice])) (.obj members) := by
  have hkeys := hdistinct
  rw [Entries.Distinct, Entries.keys_append] at hkeys
  obtain ⟨-, hchoices, hapart⟩ := List.nodup_append.mp hkeys
  rw [accepts_closed_iff_mem hdistinct, accepts_exactlyOne,
    countP_eq_one_iff (hnames.nodup_iff.mpr hchoices)]
  simp only [decide_eq_true_eq, hnames.mem_iff]
  constructor
  · rintro ⟨hclosed, name, hname, hothers⟩
    obtain ⟨choice, hchoice, rfl⟩ := List.mem_map.mp hname
    refine ⟨choice, hchoice, (hothers _ hname).mpr rfl, ?_⟩
    rw [accepts_closed_iff_mem (distinct_choice hdistinct hchoice)]
    intro entry hentry
    obtain ⟨field, hfield, heq, haccepts⟩ := hclosed entry hentry
    refine ⟨field, ?_, heq, haccepts⟩
    rcases List.mem_append.mp hfield with hfixed | hchosen
    · exact List.mem_append_left _ hfixed
    · -- A member that is not fixed is the one choice that is there.
      have hthere : field.1 ∈ Entries.keys members := heq ▸ List.mem_map_of_mem hentry
      have hsame := (hothers _ (List.mem_map_of_mem hchosen)).mp hthere
      rw [List.inj_on_of_nodup_map hchoices hchosen hchoice hsame]
      exact List.mem_append_right _ List.mem_cons_self
  · rintro ⟨choice, hchoice, hpresent, hclosed⟩
    rw [accepts_closed_iff_mem (distinct_choice hdistinct hchoice)] at hclosed
    have hname : choice.1 ∈ Entries.keys choices := List.mem_map_of_mem hchoice
    refine ⟨fun entry hentry => ?_, choice.1, hname, fun other hother => ⟨fun hmem => ?_, ?_⟩⟩
    · obtain ⟨field, hfield, haccepts⟩ := hclosed entry hentry
      refine ⟨field, ?_, haccepts⟩
      exact (sublist_choice fixed hchoice).subset hfield
    · obtain ⟨entry, hentry, rfl⟩ := List.mem_map.mp hmem
      obtain ⟨field, hfield, heq, -⟩ := hclosed entry hentry
      rcases List.mem_append.mp hfield with hfixed | hchosen
      · exact absurd heq (hapart _ (List.mem_map_of_mem hfixed) _ hother)
      · rw [← heq, List.mem_singleton.mp hchosen]
    · rintro rfl
      exact hpresent

/-- Fixed members and exactly one of several choices: one form for each choice. -/
theorem accepts_selection {fixed choices : Entries Inner} {names : List String} {v : Json}
    (hdistinct : Entries.Distinct (fixed ++ choices))
    (hnames : names.Perm (Entries.keys choices)) :
    Accepts target (.all [.type .object, .required (Entries.keys fixed),
        .closed (fixed ++ choices), exactlyOne names]) v ↔
      ∃ choice ∈ choices, HasForm (formOf target (fixed ++ [choice])) v := by
  rw [accepts_all]
  simp only [List.forall_mem_cons, List.not_mem_nil, false_imp_iff, implies_true, and_true]
  cases v with
  | obj members =>
      rw [closed_selection hdistinct hnames]
      simp only [accepts_type, TypeName.accepts, accepts_required, true_and]
      constructor
      · rintro ⟨hfixed, choice, hchoice, hpresent, hclosed⟩
        refine ⟨choice, hchoice, ?_⟩
        refine (hasForm_formOf (distinct_choice hdistinct hchoice)).mpr ⟨?_, hclosed⟩
        simpa [or_imp, forall_and, hpresent] using hfixed
      · rintro ⟨choice, hchoice, hform⟩
        obtain ⟨hrequired, hclosed⟩ :=
          (hasForm_formOf (distinct_choice hdistinct hchoice)).mp hform
        rw [accepts_required, Entries.keys_append, List.forall_mem_append] at hrequired
        exact ⟨hrequired.1, choice, hchoice, hrequired.2 _ (by simp), hclosed⟩
  | _ => simp [TypeName.accepts, HasForm]

/-! ## Values in rules -/

def IsText : Json → Prop
  | .str _ => True
  | _ => False

def IsStateName : Json → Prop
  | .str name => Pattern.stateName.accepts name = true
  | _ => False

def Operand.Takes : Operand → Json → Prop
  | .string, .str _ => True
  | .number, .num _ => True
  | .boolean, .bool _ => True
  | .timestamp, .str text => Timestamp.accepts text = true
  | .path, .str text => Pattern.path.accepts text = true
  | _, _ => False

theorem accepts_text_iff {v : Json} : text.Accepts target v ↔ IsText v := by
  rw [text, accepts_inner]
  cases v <;> simp [TypeName.accepts, IsText]

theorem accepts_stateName_iff {v : Json} : stateName.Accepts target v ↔ IsStateName v := by
  rw [stateName, stateNameSchema, Inner.Accepts, Inner.resolve, accepts_all]
  cases v <;> simp [TypeName.accepts, IsStateName]

theorem accepts_operand_iff {operand : Operand} {v : Json} :
    operand.schema.Accepts target v ↔ operand.Takes v := by
  cases operand
  all_goals rw [Operand.schema]
  · rw [accepts_text_iff]
    cases v <;> simp [IsText, Operand.Takes]
  · rw [accepts_inner]
    cases v <;> simp [TypeName.accepts, Operand.Takes]
  · rw [boolean, accepts_inner]
    cases v <;> simp [TypeName.accepts, Operand.Takes]
  · rw [timestamp, accepts_inner]
    cases v <;> simp [TypeName.accepts, Operand.Takes]
  · rw [path, accepts_inner]
    cases v <;> simp [TypeName.accepts, Operand.Takes]

/-! ## The grammar -/

def DataTest (v : Json) : Prop :=
  ∃ comparator ∈ comparators,
    HasForm [("Variable", IsText), (comparator.1, comparator.2.Takes)] v

def TopLevelTest (v : Json) : Prop :=
  ∃ comparator ∈ comparators,
    HasForm [("Variable", IsText), ("Next", IsStateName), (comparator.1, comparator.2.Takes)] v

def Negation (v : Json) : Prop := HasForm [("Not", DataTest)] v

/-- A list of data tests and negations, at least one. -/
def Tests : Json → Prop
  | .arr items => items ≠ [] ∧ ∀ item ∈ items, DataTest item ∨ Negation item
  | _ => False

def BooleanExpression (v : Json) : Prop :=
  HasForm [("Next", IsStateName), ("Not", DataTest)] v ∨
    HasForm [("Next", IsStateName), ("And", Tests)] v ∨
    HasForm [("Next", IsStateName), ("Or", Tests)] v

theorem distinct_comparatorMembers : Entries.Distinct
    ([("Variable", text), ("Next", stateName)] ++ comparatorMembers) := by
  rw [Entries.Distinct, Entries.keys_append, comparatorMembers, Entries.keys_mapValues]
  decide +kernel

theorem perm_comparatorMembers :
    (Entries.keys comparators).Perm (Entries.keys comparatorMembers) := by
  rw [comparatorMembers, Entries.keys_mapValues]

theorem accepts_dataTest_iff {v : Json} : Accepts target dataTest v ↔ DataTest v := by
  have hdistinct : Entries.Distinct ([("Variable", text)] ++ comparatorMembers) :=
    distinct_comparatorMembers.sublist (by simp [Entries.keys])
  refine (accepts_selection hdistinct perm_comparatorMembers).trans ?_
  simp only [comparatorMembers, Entries.mapValues, List.mem_map, exists_exists_and_eq_and,
    List.cons_append, List.nil_append]
  refine exists_congr fun comparator => and_congr_right fun _ => ?_
  rw [formOf_cons fun _ => accepts_text_iff, formOf_cons fun _ => accepts_operand_iff, formOf_nil]

theorem accepts_innerTest_iff {v : Json} :
    (Inner.schema dataTest).Accepts target v ↔ DataTest v :=
  accepts_dataTest_iff

theorem accepts_topLevelDataTest_iff {v : Json} :
    Accepts target topLevelDataTest v ↔ TopLevelTest v := by
  refine (accepts_selection distinct_comparatorMembers perm_comparatorMembers).trans ?_
  simp only [comparatorMembers, Entries.mapValues, List.mem_map, exists_exists_and_eq_and,
    List.cons_append, List.nil_append]
  refine exists_congr fun comparator => and_congr_right fun _ => ?_
  rw [formOf_cons fun _ => accepts_text_iff, formOf_cons fun _ => accepts_stateName_iff,
    formOf_cons fun _ => accepts_operand_iff, formOf_nil]

theorem accepts_nestedNot_iff {v : Json} : Accepts target nestedNot v ↔ Negation v := by
  rw [nestedNot, accepts_all]
  simp only [List.forall_mem_cons, List.not_mem_nil, false_imp_iff, implies_true, and_true]
  cases v with
  | obj members =>
      rw [Negation, ← formOf_nil target, ← formOf_cons fun _ => accepts_innerTest_iff,
        hasForm_formOf (by simp [Entries.Distinct])]
      simp [TypeName.accepts]
  | _ => simp [TypeName.accepts, Negation, HasForm]

/-- A list with at least one item, each of which is one of several alternatives. -/
theorem accepts_alternatives_iff {alternatives : List Schema} {items : List Json} :
    (inner [.type .array, .minItems 1, .eachItem (.schema (.anyOf alternatives))]).Accepts target
        (.arr items) ↔
      items ≠ [] ∧ ∀ item ∈ items, ∃ part ∈ alternatives, Accepts target part item := by
  rw [accepts_inner]
  simp only [List.forall_mem_cons, List.not_mem_nil, false_imp_iff, implies_true, and_true]
  rw [accepts_type, accepts_minItems, accepts_eachItem]
  simp [TypeName.accepts, Inner.Accepts, Inner.resolve, Nat.one_le_iff_ne_zero]

theorem accepts_nestedTests_iff {v : Json} : nestedTests.Accepts target v ↔ Tests v := by
  rw [nestedTests]
  cases v with
  | arr items =>
      rw [accepts_alternatives_iff]
      simp [Tests, accepts_dataTest_iff, accepts_nestedNot_iff]
  | _ => simp [accepts_inner, TypeName.accepts, Tests]

theorem accepts_booleanExpression_iff {v : Json} :
    Accepts target booleanExpression v ↔ BooleanExpression v := by
  have hdistinct : Entries.Distinct ([("Next", stateName)] ++
      [("Not", .schema dataTest), ("And", nestedTests), ("Or", nestedTests)]) := by
    simp [Entries.Distinct]
  have hnames : ["And", "Or", "Not"].Perm (Entries.keys
      [("Not", Inner.schema dataTest), ("And", nestedTests), ("Or", nestedTests)]) := by
    decide +kernel
  refine (accepts_selection hdistinct hnames).trans ?_
  simp only [List.exists_mem_cons_iff, List.not_mem_nil, false_and, exists_false, or_false,
    List.cons_append, List.nil_append]
  simp only [formOf_cons fun _ => accepts_stateName_iff, formOf_cons fun _ => accepts_innerTest_iff,
    formOf_cons fun _ => accepts_nestedTests_iff, formOf_nil]
  exact Iff.rfl

theorem accepts_choiceRules_iff {rules : List Json} :
    (inner [.type .array, .minItems 1,
        .eachItem (.schema (.anyOf [booleanExpression, topLevelDataTest]))]).Accepts target
        (.arr rules) ↔
      rules ≠ [] ∧ ∀ rule ∈ rules, TopLevelTest rule ∨ BooleanExpression rule := by
  rw [accepts_alternatives_iff]
  simp [accepts_booleanExpression_iff, accepts_topLevelDataTest_iff, or_comm]

end StateFlow.Playbook.Shape

namespace StateFlow.Playbook

open StateFlow.Schema

/-- A Choice passes exactly if it has a rule and all its rules are in the grammar. -/
theorem checkState_choice_iff (s : Settings) (rules : List Json) :
    checkState s (.obj [("Type", .str "Choice"), ("Choices", .arr rules)]) = [] ↔
      rules ≠ [] ∧ ∀ rule ∈ rules, Shape.TopLevelTest rule ∨ Shape.BooleanExpression rule := by
  have hkind : checkState s (.obj [("Type", .str "Choice"), ("Choices", .arr rules)]) = [] ↔
      Accepts (Shape.state s.literalMarker) Shape.choice
        (.obj [("Type", .str "Choice"), ("Choices", .arr rules)]) :=
    checkState_eq_nil .choice rfl
  rw [hkind, Shape.choice, Shape.accepts_kindObject]
  constructor
  · rintro ⟨-, hmembers, -⟩
    obtain ⟨inner, hinner, haccepts⟩ := hmembers ("Choices", .arr rules) (by simp)
    cases hinner
    exact Shape.accepts_choiceRules_iff.mp haccepts
  · intro hrules
    refine ⟨by simp, ?_, by simp⟩
    rw [List.forall_mem_cons, List.forall_mem_singleton]
    refine ⟨⟨_, rfl, Shape.accepts_isKind.mpr rfl⟩, _, rfl, ?_⟩
    exact Shape.accepts_choiceRules_iff.mpr hrules

/-- A data test chooses among 39 comparisons. -/
example : Shape.comparators.length = 39 := rfl

end StateFlow.Playbook
