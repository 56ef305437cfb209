import StateFlow.Playbook.Writer
import StateFlow.Proofs.Lowering
import StateFlow.Proofs.RetryMerge

/-!
# What lowered states write

A written state names each of its members once (`State.distinct_entries`).  Every member of a
lowered state is a member of the source's state or one of a few that lowering puts there: envelopes,
retry and catch rules, and what leads to a merge helper.  One law for each kind that lowering
changes lists them; whatever is said of the members of a definition goes through these laws.
-/

namespace StateFlow.Playbook

open StateFlow.Json

variable {α : Type} {entry : String × Json} {key : String}

@[simp] theorem mem_optionalEntry {write : α → Json} {x : Option α} :
    entry ∈ optionalEntry key write x ↔ ∃ y, x = some y ∧ entry = (key, write y) := by
  cases x <;> simp [optionalEntry]

@[simp] theorem mem_keys_optionalEntry {name : String} {write : α → Json} {x : Option α} :
    name ∈ Entries.keys (optionalEntry key write x) ↔ name = key ∧ x.isSome = true := by
  cases x <;> simp [optionalEntry]

theorem MapOver.mem_entries {m : MapOver} {iterator : Json} (own : Json)
    (hentry : entry ∈ m.entries iterator) :
    entry ∈ m.entries own ∨ entry = ("Iterator", iterator) := by
  simp only [MapOver.entries, List.mem_append, List.mem_singleton] at hentry ⊢
  tauto

/-! ## Parts of states -/

theorem Exit.mem_continuation {e : Exit} {entry : String × Json}
    (hentry : entry ∈ e.continuation.entries) :
    entry = ("End", .bool true) ∨ ∃ target, entry = ("Next", .str target) ∧ entry ∈ e.entries := by
  obtain ⟨next, isEnd⟩ := e
  rcases isEnd with _ | _ | _ <;> rcases next with _ | target <;>
    simp_all [Exit.continuation, Exit.entries]

theorem Task.recovery_subset (t : Task) : t.recovery.entries ⊆ t.entries := by
  intro entry hentry
  simp [Task.entries, hentry]

theorem Parallel.recovery_subset (p : Parallel) (branches : Json) :
    p.recovery.entries ⊆ p.entries branches := by
  intro entry hentry
  simp [Parallel.entries, hentry]

theorem Parallel.exit_subset (p : Parallel) (branches : Json) :
    p.exit.entries ⊆ p.entries branches := by
  intro entry hentry
  simp [Parallel.entries, hentry]

theorem Parallel.branches_mem (p : Parallel) (branches : Json) :
    ("Branches", branches) ∈ p.entries branches := by
  simp [Parallel.entries]

theorem MapOver.iterator_mem (m : MapOver) (iterator : Json) :
    ("Iterator", iterator) ∈ m.entries iterator := by
  simp [MapOver.entries]

/-! ## Names of members -/

theorem keys_optionalEntry {α : Type} (key : String) (write : α → Json) (x : Option α) :
    (Entries.keys (optionalEntry key write x)).Sublist [key] := by
  cases x <;> simp [optionalEntry]

theorem Header.keys_entries (h : Header) :
    (Entries.keys h.entries).Sublist ["Comment", "InputPath", "OutputPath"] := by
  simp only [Header.entries, Entries.keys_append]
  exact ((keys_optionalEntry _ _ _).append (keys_optionalEntry _ _ _)).append
    (keys_optionalEntry _ _ _)

theorem Exit.keys_entries (e : Exit) : (Entries.keys e.entries).Sublist ["Next", "End"] := by
  simp only [Exit.entries, Entries.keys_append]
  exact (keys_optionalEntry _ _ _).append (keys_optionalEntry _ _ _)

theorem Effects.keys_entries (e : Effects) :
    (Entries.keys e.entries).Sublist ["Parameters", "ResultSelector", "ResultPath"] := by
  simp only [Effects.entries, Entries.keys_append]
  exact ((keys_optionalEntry _ _ _).append (keys_optionalEntry _ _ _)).append
    (keys_optionalEntry _ _ _)

theorem Recovery.keys_entries (r : Recovery) :
    (Entries.keys r.entries).Sublist ["Retry", "Catch"] := by
  simp only [Recovery.entries, Entries.keys_append]
  exact (keys_optionalEntry _ _ _).append (keys_optionalEntry _ _ _)

def Kind.memberNames : Kind → List String
  | .pass => ["Comment", "InputPath", "OutputPath", "Parameters", "Result", "ResultPath", "Next",
      "End"]
  | .succeed => ["Comment", "InputPath", "OutputPath"]
  | .fail => ["Comment", "Cause", "Error"]
  | .wait => ["Comment", "InputPath", "OutputPath", "Seconds", "Timestamp", "SecondsPath",
      "TimestampPath", "Next", "End"]
  | .task | .interaction => ["Comment", "InputPath", "OutputPath", "Resource", "Parameters",
      "ResultSelector", "ResultPath", "TimeoutSeconds", "TimeoutSecondsPath", "HeartbeatSeconds",
      "HeartbeatSecondsPath", "Retry", "Catch", "Next", "End"]
  | .choice => ["Comment", "InputPath", "OutputPath", "Choices", "Default"]
  | .parallel => ["Comment", "InputPath", "OutputPath", "Parameters", "ResultSelector",
      "ResultPath", "Retry", "Catch", "Branches", "Next", "End"]
  | .map => ["Comment", "InputPath", "OutputPath", "ItemsPath", "MaxConcurrency", "Iterator",
      "Parameters", "ResultSelector", "ResultPath", "Retry", "Catch", "Next", "End"]

theorem State.keys_entries (s : State) : (Entries.keys s.entries).Sublist s.kind.memberNames := by
  cases s with
  | pass s =>
      simp only [State.entries, Pass.entries, Entries.keys_append]
      exact ((((Header.keys_entries _).append (keys_optionalEntry _ _ _)).append
        (keys_optionalEntry _ _ _)).append (keys_optionalEntry _ _ _)).append (Exit.keys_entries _)
  | succeed h => exact h.keys_entries
  | fail s =>
      simp only [State.entries, Fail.entries, Entries.keys_append]
      exact ((keys_optionalEntry _ _ _).append (keys_optionalEntry _ _ _)).append
        (keys_optionalEntry _ _ _)
  | wait s =>
      simp only [State.entries, Wait.entries, Entries.keys_append]
      exact (((((Header.keys_entries _).append (keys_optionalEntry _ _ _)).append
        (keys_optionalEntry _ _ _)).append (keys_optionalEntry _ _ _)).append
        (keys_optionalEntry _ _ _)).append (Exit.keys_entries _)
  | task s | interaction s =>
      simp only [State.entries, Task.entries, Entries.keys_append]
      exact ((((((((Header.keys_entries _).append (List.Sublist.refl ["Resource"])).append
        (Effects.keys_entries _)).append (keys_optionalEntry _ _ _)).append
        (keys_optionalEntry _ _ _)).append (keys_optionalEntry _ _ _)).append
        (keys_optionalEntry _ _ _)).append (Recovery.keys_entries _)).append (Exit.keys_entries _)
  | choice s =>
      simp only [State.entries, Choice.entries, Entries.keys_append]
      exact ((Header.keys_entries _).append (List.Sublist.refl ["Choices"])).append
        (keys_optionalEntry _ _ _)
  | parallel s branches =>
      simp only [State.entries, Parallel.entries, Entries.keys_append]
      exact ((((Header.keys_entries _).append (Effects.keys_entries _)).append
        (Recovery.keys_entries _)).append (List.Sublist.refl ["Branches"])).append
        (Exit.keys_entries _)
  | map s iterator =>
      simp only [State.entries, MapOver.entries, Entries.keys_append]
      exact ((((((Header.keys_entries _).append (keys_optionalEntry _ _ _)).append
        (keys_optionalEntry _ _ _)).append (List.Sublist.refl ["Iterator"])).append
        (Effects.keys_entries _)).append (Recovery.keys_entries _)).append (Exit.keys_entries _)

/-- A written state names each of its members once. -/
theorem State.distinct_entries (s : State) :
    Entries.Distinct (("Type", .str s.kind.name) :: s.entries) := by
  have hnames : ("Type" :: s.kind.memberNames).Nodup := by
    cases s.kind <;> decide
  exact ((State.keys_entries s).cons_cons "Type").nodup hnames

end StateFlow.Playbook

namespace StateFlow.Lowering

open StateFlow.Json StateFlow.Playbook

/-! ## Retry and catch rules -/

/-- A merged rule is an own one, or the default rule for some of its error classes. -/
theorem mem_mergeRetry {own : Option (List Retrier)} {disabled : Bool} {fallback : Retrier}
    {rules : List Retrier} (hrules : mergeRetry own disabled fallback = some rules) {rule : Retrier}
    (hrule : rule ∈ rules) :
    rule ∈ own.getD [] ∨ ∃ errors, errors ≠ [] ∧ errors ⊆ fallback.errorEquals ∧
      rule = { fallback with errorEquals := errors } := by
  rw [eq_append_of_mergeRetry hrules, List.mem_append] at hrule
  refine hrule.imp_right fun hadded => ⟨_, ?_, ?_, eq_of_mem_addedRules hadded⟩
  · intro hnil
    rw [addedRules, if_pos (Or.inr hnil)] at hadded
    cases hadded
  · exact fun error herror => (mem_uncovered.mp herror).1

namespace Scheme

variable {r : Scheme} {ctx : Context} {name : String} {entry : String × Json}
  (hr : r.rename = id)

include hr

theorem mem_catchers {own : Option (List Catcher)} {rules : List Catcher}
    (hrules : r.catchers ctx name own = some rules) {rule : Catcher} (hrule : rule ∈ rules) :
    rule ∈ own.getD [] ∨
      (r.catchesFailure ctx name = true ∧ rule = failureCatch r.settings name) := by
  rw [catchers, renameCatchers_eq hr] at hrules
  split at hrules
  · next hcatches =>
      cases hrules
      rw [List.mem_append, List.mem_singleton] at hrule
      exact hrule.imp_right fun heq => ⟨hcatches, heq⟩
  · exact Or.inl (by rwa [hrules])

/-! ## Members -/

theorem mem_entries_task {t : Task} (hentry : entry ∈ (r.task ctx name t).entries) :
    entry ∈ t.entries ∨
      (∃ v, t.effects.parameters = some v ∧
        entry = ("Parameters", taskEnvelope name (some v))) ∨
      (∃ rules, mergeRetry t.recovery.retry (ctx.retryDisabled name) r.settings.defaultRetry =
        some rules ∧ entry = ("Retry", Json.ofList Retrier.toJson rules)) ∨
      ∃ rules, r.catchers ctx name t.recovery.catchers = some rules ∧
        entry = ("Catch", Json.ofList Catcher.toJson rules) := by
  simp only [task, work, exit_eq hr, Task.entries, Effects.entries, Recovery.entries,
    List.mem_append, mem_optionalEntry, Option.map_eq_some_iff] at hentry ⊢
  grind

theorem mem_entries_interaction {t : Task} (hentry : entry ∈ (r.interaction ctx name t).entries) :
    entry ∈ t.entries ∨
      entry = ("Resource", .str r.settings.tokenWaitResource) ∨
      entry = ("Parameters", interactionEnvelope name t.effects.parameters t.resource) ∨
      (∃ rules, mergeRetry t.recovery.retry (ctx.retryDisabled name) r.settings.defaultRetry =
        some rules ∧ entry = ("Retry", Json.ofList Retrier.toJson rules)) ∨
      ∃ rules, r.catchers ctx name t.recovery.catchers = some rules ∧
        entry = ("Catch", Json.ofList Catcher.toJson rules) := by
  simp only [interaction, work, exit_eq hr, Task.entries, Effects.entries, Recovery.entries,
    List.mem_append, mem_optionalEntry, List.mem_singleton] at hentry ⊢
  grind

theorem mem_entries_helper {p : Parallel} (hentry : entry ∈ (r.helper ctx name p).entries) :
    entry = ("Resource", .str r.settings.mergeHelperResource) ∨
      entry = ("Retry", Json.ofList Retrier.toJson [r.settings.defaultRetry]) ∨
      (r.catchesFailure ctx name = true ∧ entry = ("Catch", Json.ofList Catcher.toJson
        [failureCatch r.settings (mergeHelperName r.settings name)])) ∨
      entry ∈ p.exit.continuation.entries := by
  rw [Task.entries, helper_exit hr] at hentry
  simp only [helper, mergeHelper, Header.entries, Effects.entries, Recovery.entries,
    List.mem_append, mem_optionalEntry, List.mem_singleton] at hentry ⊢
  grind

theorem mapOver_eq (m : MapOver) : r.mapOver m = m := by
  simp [mapOver, renameCatchers_eq hr, exit_eq hr]

omit hr

theorem mem_entries_parallel {p : Parallel} {branches : Json} (own : Json)
    (hentry : entry ∈ (r.parallel ctx name p).entries branches) :
    entry ∈ p.entries own ∨
      entry = ("Branches", branches) ∨
      entry = ("Next", .str (mergeHelperName r.settings name)) ∨
      ∃ rules, r.catchers ctx name p.recovery.catchers = some rules ∧
        entry = ("Catch", Json.ofList Catcher.toJson rules) := by
  simp only [parallel, Parallel.entries, Recovery.entries, Exit.entries, List.mem_append,
    mem_optionalEntry, List.mem_singleton] at hentry ⊢
  grind

end Scheme

end StateFlow.Lowering
