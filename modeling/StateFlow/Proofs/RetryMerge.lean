import Mathlib.Data.List.Basic
import StateFlow.Lowering.Retry

/-!
# What merging retry rules keeps and adds

A task keeps its own rules, and the default rule adds the error classes that these leave
(`mergeRetry_eq`).  After that nothing is left to add (`addedRules_merged`), so merging a second
time changes nothing.  `mergeRetry_spec` puts together what a task has in the end.
-/

namespace StateFlow.Lowering

open StateFlow.Playbook

def Covers (rules : List Retrier) (error : String) : Prop :=
  ∃ rule ∈ rules, error ∈ rule.errorEquals

instance (rules : List Retrier) (error : String) : Decidable (Covers rules error) :=
  inferInstanceAs (Decidable (∃ rule ∈ rules, error ∈ rule.errorEquals))

variable {own : List Retrier} {disabled : Bool} {fallback : Retrier} {error : String}

theorem covers_append {more : List Retrier} :
    Covers (own ++ more) error ↔ Covers own error ∨ Covers more error := by
  simp only [Covers, List.mem_append, or_and_right, exists_or]

/-! ## What is left for the default rule -/

theorem uncovered_eq_filter (own : List Retrier) (fallback : Retrier) :
    uncovered own fallback = fallback.errorEquals.filter fun error => ¬ Covers own error := by
  have hcovers : ∀ error, (own.flatMap Retrier.errorEquals).contains error =
      decide (Covers own error) := by
    intro error
    rw [Bool.eq_iff_iff, List.contains_iff_mem, List.mem_flatMap, decide_eq_true_iff]
    rfl
  simp only [uncovered, hcovers, decide_not]

theorem mem_uncovered :
    error ∈ uncovered own fallback ↔ error ∈ fallback.errorEquals ∧ ¬ Covers own error := by
  rw [uncovered_eq_filter, List.mem_filter, decide_eq_true_iff]

theorem uncovered_eq_nil :
    uncovered own fallback = [] ↔ ∀ error ∈ fallback.errorEquals, Covers own error := by
  simp [List.eq_nil_iff_forall_not_mem, mem_uncovered]

/-! ## What is added -/

/-- What a task has besides its own rules: the default rule for the error classes that are left, if
there are any and it is not switched off. -/
def addedRules (own : List Retrier) (disabled : Bool) (fallback : Retrier) : List Retrier :=
  if disabled = true ∨ uncovered own fallback = [] then []
  else [{ fallback with errorEquals := uncovered own fallback }]

theorem addedRules_eq_nil : addedRules own disabled fallback = [] ↔
    disabled = true ∨ ∀ error ∈ fallback.errorEquals, Covers own error := by
  rw [← uncovered_eq_nil, addedRules]
  split
  · next hnone => exact iff_of_true rfl hnone
  · next hsome => exact iff_of_false (by simp) hsome

theorem length_addedRules_le : (addedRules own disabled fallback).length ≤ 1 := by
  unfold addedRules
  split <;> simp

theorem eq_of_mem_addedRules {rule : Retrier} (hrule : rule ∈ addedRules own disabled fallback) :
    rule = { fallback with errorEquals := uncovered own fallback } := by
  unfold addedRules at hrule
  split at hrule
  · cases hrule
  · exact List.mem_singleton.mp hrule

theorem covers_addedRules :
    Covers (addedRules own false fallback) error ↔ error ∈ uncovered own fallback := by
  unfold addedRules
  split
  · next hnil => simp_all [Covers]
  · simp [Covers]

/-- The default rule covers what the own rules leave of its error classes. -/
theorem covers_merged : Covers (own ++ addedRules own false fallback) error ↔
    Covers own error ∨ error ∈ fallback.errorEquals := by
  rw [covers_append, covers_addedRules, mem_uncovered]
  constructor
  · exact Or.imp_right And.left
  · rintro (hown | hdefault)
    · exact Or.inl hown
    · by_cases hown : Covers own error
      · exact Or.inl hown
      · exact Or.inr ⟨hdefault, hown⟩

/-- Nothing is left to add to merged rules. -/
theorem addedRules_merged (own : List Retrier) (disabled : Bool) (fallback : Retrier) :
    addedRules (own ++ addedRules own disabled fallback) disabled fallback = [] := by
  rw [addedRules_eq_nil]
  cases disabled with
  | true => exact Or.inl rfl
  | false => exact Or.inr fun error herror => covers_merged.mpr (Or.inr herror)

/-! ## The rules of a task -/

theorem withDefault_eq_append (own : List Retrier) (fallback : Retrier) :
    withDefault own fallback = own ++ addedRules own false fallback := by
  rw [withDefault, addedRules]
  cases uncovered own fallback <;> simp

theorem mergeRetry_eq (own : Option (List Retrier)) (disabled : Bool) (fallback : Retrier) :
    mergeRetry own disabled fallback =
      if own = none ∧ addedRules [] disabled fallback = [] then none
      else some (own.getD [] ++ addedRules (own.getD []) disabled fallback) := by
  have hmerged : (if disabled then own.getD [] else withDefault (own.getD []) fallback) =
      own.getD [] ++ addedRules (own.getD []) disabled fallback := by
    cases disabled with
    | true => simp [addedRules]
    | false => exact withDefault_eq_append _ _
  unfold mergeRetry
  simp only [hmerged]
  cases own <;> simp

theorem mergeRetry_eq_none {own : Option (List Retrier)} :
    mergeRetry own disabled fallback = none ↔
      own = none ∧ (disabled = true ∨ fallback.errorEquals = []) := by
  have hnone : addedRules [] disabled fallback = [] ↔
      disabled = true ∨ fallback.errorEquals = [] := by
    rw [addedRules_eq_nil, List.eq_nil_iff_forall_not_mem]
    simp [Covers]
  rw [mergeRetry_eq, ite_eq_left_iff, ← hnone]
  simp

theorem eq_append_of_mergeRetry {own : Option (List Retrier)} {rules : List Retrier}
    (hrules : mergeRetry own disabled fallback = some rules) :
    rules = own.getD [] ++ addedRules (own.getD []) disabled fallback := by
  rw [mergeRetry_eq, Option.ite_none_left_eq_some, Option.some.injEq] at hrules
  exact hrules.2.symm

theorem covers_mergeRetry {own : Option (List Retrier)} :
    Covers ((mergeRetry own false fallback).getD []) error ↔
      Covers (own.getD []) error ∨ error ∈ fallback.errorEquals := by
  cases hrules : mergeRetry own false fallback with
  | none =>
      obtain ⟨rfl, hempty⟩ := mergeRetry_eq_none.mp hrules
      simp_all [Covers]
  | some rules =>
      rw [eq_append_of_mergeRetry hrules]
      exact covers_merged

theorem mergeRetry_mergeRetry (own : Option (List Retrier)) (disabled : Bool)
    (fallback : Retrier) :
    mergeRetry (mergeRetry own disabled fallback) disabled fallback =
      mergeRetry own disabled fallback := by
  cases hrules : mergeRetry own disabled fallback with
  | none =>
      obtain ⟨rfl, -⟩ := mergeRetry_eq_none.mp hrules
      exact hrules
  | some rules =>
      have hadded : addedRules rules disabled fallback = [] := by
        rw [eq_append_of_mergeRetry hrules]
        exact addedRules_merged _ _ _
      rw [mergeRetry_eq]
      simp [hadded]

/-- A task has its own rules, then at most one more.  That one is there if the default rule is not
switched off and matches an error class that no own rule matches, and it is the default rule for
just those classes.  Nothing of either side gets lost, and merging again changes nothing. -/
theorem mergeRetry_spec (own : Option (List Retrier)) (disabled : Bool) (fallback : Retrier) :
    (mergeRetry own disabled fallback = none ↔
      own = none ∧ (disabled = true ∨ fallback.errorEquals = [])) ∧
    (∀ rules, mergeRetry own disabled fallback = some rules →
      ∃ added, rules = own.getD [] ++ added ∧ added.length ≤ 1 ∧
        (added ≠ [] ↔
          disabled = false ∧ ∃ error ∈ fallback.errorEquals, ¬ Covers (own.getD []) error) ∧
        ∀ rule ∈ added,
          rule = { fallback with
            errorEquals := fallback.errorEquals.filter fun error => ¬ Covers (own.getD []) error } ∧
          ∀ error ∈ rule.errorEquals, ¬ Covers (own.getD []) error) ∧
    (disabled = false → ∀ error, Covers (own.getD []) error ∨ error ∈ fallback.errorEquals →
      Covers ((mergeRetry own disabled fallback).getD []) error) ∧
    mergeRetry (mergeRetry own disabled fallback) disabled fallback =
      mergeRetry own disabled fallback := by
  refine ⟨mergeRetry_eq_none, fun rules hrules => ?_, ?_, mergeRetry_mergeRetry _ _ _⟩
  · refine ⟨_, eq_append_of_mergeRetry hrules, length_addedRules_le, ?_, fun rule hrule => ?_⟩
    · rw [ne_eq, addedRules_eq_nil]
      push Not
      rw [ne_eq, Bool.not_eq_true]
    · obtain rfl := eq_of_mem_addedRules hrule
      refine ⟨by rw [uncovered_eq_filter], fun error herror => ?_⟩
      exact (mem_uncovered.mp herror).2
  · rintro rfl error herror
    exact covers_mergeRetry.mpr herror

end StateFlow.Lowering
