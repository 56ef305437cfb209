import Mathlib.Data.List.Perm.Basic
import Mathlib.Data.List.Perm.Lattice
import StateFlow.Proofs.ScopeGraph

/-!
# What the rules say

Each check is matched with the condition that it finds nothing under, and `breaches_eq_nil_iff`
puts them together: a document breaks no rule exactly if it is `WellFormed`.  The conditions are
said of names and scopes alone, so what follows from them does not depend on how a check looks for
breaches.  The check of names keeps two lists on its way; `Sightings.After` is what they hold, and
`repeatedNames_eq` what they come to.
-/

namespace StateFlow.Playbook

open StateFlow.Lowering

/-! ## Names declared once -/

/-- The names that occur for the second time, in order; `before` holds the names in front. -/
def secondOccurrences : (before : List String) → List String → List String
  | _, [] => []
  | before, name :: rest =>
    (if before.count name = 1 then [name] else []) ++ secondOccurrences (name :: before) rest

namespace Sightings

theorem mem_addName {names : List String} {name other : String} :
    other ∈ addName names name ↔ other = name ∨ other ∈ names := by
  unfold addName
  by_cases hname : name ∈ names
  · rw [if_pos hname, or_iff_right_of_imp]
    rintro rfl
    exact hname
  · rw [if_neg hname, List.mem_append, List.mem_singleton, or_comm]

/-- What is known after a list of names, the last one first. -/
structure After (before : List String) (s : Sightings) : Prop where
  seen : ∀ name, name ∈ s.seen ↔ name ∈ before
  repeated : ∀ name, name ∈ s.repeated ↔ 2 ≤ before.count name

variable {before : List String} {s : Sightings}

theorem After.meet (h : After before s) (name : String) : After (name :: before) (s.meet name) := by
  unfold Sightings.meet
  simp only [h.seen]
  by_cases hname : name ∈ before
  · rw [if_pos hname]
    have hcount : 0 < before.count name := List.count_pos_iff.mpr hname
    constructor
    · intro other
      rw [h.seen, List.mem_cons, or_iff_right_of_imp]
      rintro rfl
      exact hname
    · intro other
      rw [mem_addName, h.repeated]
      by_cases hother : name = other
      · subst hother
        rw [List.count_cons_self, eq_self, true_or, true_iff]
        omega
      · rw [List.count_cons_of_ne hother, or_iff_right (Ne.symm hother)]
  · rw [if_neg hname]
    have hcount : before.count name = 0 := List.count_eq_zero_of_not_mem hname
    constructor
    · intro other
      rw [mem_addName, h.seen, List.mem_cons]
    · intro other
      rw [h.repeated]
      by_cases hother : name = other
      · subst hother
        rw [List.count_cons_self]
        omega
      · rw [List.count_cons_of_ne hother]

/-- A name joins the repeated ones when it is met for the second time. -/
theorem After.repeated_meet (h : After before s) (name : String) :
    (s.meet name).repeated = s.repeated ++ if before.count name = 1 then [name] else [] := by
  unfold Sightings.meet addName
  simp only [h.seen, h.repeated]
  by_cases hname : name ∈ before
  · have hcount : 0 < before.count name := List.count_pos_iff.mpr hname
    rw [if_pos hname]
    by_cases htwice : 2 ≤ before.count name
    · have hone : before.count name ≠ 1 := by omega
      rw [if_pos htwice, if_neg hone, List.append_nil]
    · have hone : before.count name = 1 := by omega
      rw [if_neg htwice, if_pos hone]
  · have hone : before.count name ≠ 1 := by
      rw [List.count_eq_zero_of_not_mem hname]
      omega
    rw [if_neg hname, if_neg hone, List.append_nil]

theorem After.repeated_foldl (h : After before s) (names : List String) :
    (names.foldl Sightings.meet s).repeated = s.repeated ++ secondOccurrences before names := by
  induction names generalizing before s with
  | nil => simp [secondOccurrences]
  | cons name names ih =>
      rw [List.foldl_cons, ih (h.meet name), h.repeated_meet, secondOccurrences, List.append_assoc]

end Sightings

theorem repeatedNames_eq (names : List String) :
    repeatedNames names = secondOccurrences [] names := by
  have hstart : Sightings.After [] {} := ⟨by simp, by simp⟩
  rw [repeatedNames, hstart.repeated_foldl, List.nil_append]

theorem mem_secondOccurrences {before rest : List String} {name : String} :
    name ∈ secondOccurrences before rest ↔
      before.count name ≤ 1 ∧ 2 ≤ before.count name + rest.count name := by
  induction rest generalizing before with
  | nil =>
      simp only [secondOccurrences, List.not_mem_nil, List.count_nil, false_iff]
      omega
  | cons head rest ih =>
      have hhead : name ∈ (if before.count head = 1 then [head] else []) ↔
          name = head ∧ before.count head = 1 := by
        split <;> simp [*]
      rw [secondOccurrences, List.mem_append, hhead, ih]
      by_cases hname : head = name
      · subst hname
        rw [List.count_cons_self, List.count_cons_self, eq_self, true_and]
        omega
      · rw [List.count_cons_of_ne hname, List.count_cons_of_ne hname]
        simp [Ne.symm hname]

theorem duplicateNames_eq_nil {d : Document} :
    duplicateNames d = [] ↔ d.stateNames.Nodup := by
  have hsecond : secondOccurrences [] d.stateNames = [] ↔ d.stateNames.Nodup := by
    rw [List.eq_nil_iff_forall_not_mem, List.nodup_iff_count_le_one]
    apply forall_congr'
    intro name
    rw [mem_secondOccurrences, List.count_nil]
    omega
  rw [← hsecond, duplicateNames, repeatedNames_eq]
  split <;> simp_all

/-! ## References that stay in their scope -/

theorem danglingReferences_eq_nil {d : Document} :
    danglingReferences d = [] ↔ ∀ scope ∈ d.scopes, scope.Closed := by
  simp only [danglingReferences, List.flatMap_eq_nil_iff, Scope.breaches_eq_nil]

theorem handlerMayReach_iff {s : Settings} {d : Document} {target : String} :
    handlerMayReach s d target = true ↔ target ∈ Entries.keys d.states ∨
      target ∈ [s.failure.entry, s.failure.handler, s.failure.final] := by
  simp only [handlerMayReach, Bool.or_eq_true, Entries.has_iff, decide_eq_true_eq,
    List.mem_cons, List.not_mem_nil, or_false]
  tauto

private theorem handlerBreaches_eq_nil {s : Settings} {d : Document} {n : Nat}
    {catchers : List Catcher} :
    handlerBreaches s d n catchers = [] ↔
      ∀ c ∈ catchers, handlerMayReach s d c.next = true := by
  induction catchers generalizing n with
  | nil => simp [handlerBreaches]
  | cons c catchers ih =>
      rw [handlerBreaches, List.append_eq_nil_iff, ih, List.forall_mem_cons]
      simp

theorem handlerReferences_eq_nil {s : Settings} {d : Document} :
    handlerReferences s d = [] ↔ ∀ handler ∈ d.failureHandler?, ∀ c ∈ handler.catchers,
      handlerMayReach s d c.next = true := by
  unfold handlerReferences
  cases d.failureHandler? with
  | none => simp
  | some handler => simpa using handlerBreaches_eq_nil

/-! ## Names that compiling needs -/

theorem reservedNames_eq_nil {s : Settings} {d : Document} :
    reservedNames s d = [] ↔ ∀ name ∈ s.reservedNames, name ∉ Entries.keys d.states := by
  simp only [reservedNames, List.map_eq_nil_iff, List.filter_eq_nil_iff, Entries.has_iff]

def Scope.helpers (s : Settings) (scope : Scope) : List String :=
  scope.parallels.map (mergeHelperName s)

/-- The names of states, and behind that of each Parallel the name of its merge helper. -/
def namesWithHelpers (s : Settings) (states : Entries State) : List String :=
  states.flatMap fun entry =>
    if entry.2.kind = .parallel then [entry.1, mergeHelperName s entry.1] else [entry.1]

@[simp] theorem namesWithHelpers_nil (s : Settings) : namesWithHelpers s [] = [] := rfl

@[simp] theorem namesWithHelpers_cons (s : Settings) (entry : String × State)
    (states : Entries State) :
    namesWithHelpers s (entry :: states) =
      (if entry.2.kind = .parallel then [entry.1, mergeHelperName s entry.1] else [entry.1])
        ++ namesWithHelpers s states := rfl

def Scope.Apart (s : Settings) (scope : Scope) : Prop :=
  (namesWithHelpers s scope.states).Nodup

private theorem helperBreaches_eq_nil {s : Settings} {scope : Scope} {before names : List String} :
    helperBreaches s scope before names = [] ↔
      (∀ name ∈ names, mergeHelperName s name ∉ Entries.keys scope.states) ∧
        (names.map (mergeHelperName s)).Nodup ∧
          ∀ name ∈ names, ∀ other ∈ before, mergeHelperName s other ≠ mergeHelperName s name := by
  induction names generalizing before with
  | nil => simp [helperBreaches]
  | cons name names ih =>
      have htaken : (if scope.has (mergeHelperName s name) = true
          then [Breach.helperTaken scope.path (mergeHelperName s name) name] else []) = [] ↔
          mergeHelperName s name ∉ Entries.keys scope.states := by
        rw [← Scope.has_iff]
        simp
      rw [helperBreaches]
      simp only [List.append_eq_nil_iff, htaken, List.map_eq_nil_iff, Option.toList_eq_nil_iff,
        List.find?_eq_none, decide_eq_true_eq, ih, List.forall_mem_cons, List.map_cons,
        List.nodup_cons, List.mem_map, not_exists, not_and]
      constructor
      · rintro ⟨⟨hfree, hfirst⟩, hrest, hnodup, hbefore⟩
        exact ⟨⟨hfree, hrest⟩, ⟨fun other hother heq => (hbefore other hother).1 heq.symm, hnodup⟩,
          hfirst, fun other hother => (hbefore other hother).2⟩
      · rintro ⟨⟨hfree, hrest⟩, ⟨hnew, hnodup⟩, hfirst, hbefore⟩
        exact ⟨⟨hfree, hfirst⟩, hrest, hnodup,
          fun other hother => ⟨fun heq => hnew other hother heq.symm, hbefore other hother⟩⟩

theorem namesWithHelpers_perm (s : Settings) (scope : Scope) :
    (namesWithHelpers s scope.states).Perm
      (Entries.keys scope.states ++ scope.helpers s) := by
  obtain ⟨path, startAt, states⟩ := scope
  simp only [Scope.helpers, Scope.parallels]
  induction states with
  | nil => exact List.Perm.refl _
  | cons entry states ih =>
      rw [namesWithHelpers_cons]
      by_cases hkind : entry.2.kind = .parallel
      · simp only [hkind, if_true, decide_true, List.filter_cons_of_pos, List.map_cons,
          Entries.keys_cons, List.cons_append, List.nil_append]
        refine List.Perm.cons _ ?_
        exact (List.Perm.cons _ ih).trans List.perm_middle.symm
      · simpa [hkind] using ih

theorem Scope.mem_helpers {s : Settings} {scope : Scope} {helper : String} :
    helper ∈ scope.helpers s ↔ ∃ name p branches,
      (name, State.parallel p branches) ∈ scope.states ∧ mergeHelperName s name = helper := by
  simp only [Scope.helpers, Scope.parallels, List.mem_map, List.mem_filter, decide_eq_true_eq]
  constructor
  · rintro ⟨_, ⟨⟨name, own⟩, ⟨hmem, hkind⟩, rfl⟩, rfl⟩
    cases own with
    | parallel p branches => exact ⟨name, p, branches, hmem, rfl⟩
    | _ => cases hkind
  · rintro ⟨name, p, branches, hmem, rfl⟩
    exact ⟨name, ⟨_, ⟨hmem, rfl⟩, rfl⟩, rfl⟩

theorem mem_namesWithHelpers {s : Settings} {states : Entries State} {name : String} :
    name ∈ namesWithHelpers s states ↔ name ∈ Entries.keys states ∨ ∃ other p branches,
      (other, State.parallel p branches) ∈ states ∧ mergeHelperName s other = name := by
  have hperm := (namesWithHelpers_perm s ⟨"/States", name, states⟩).mem_iff (a := name)
  rwa [List.mem_append, Scope.mem_helpers] at hperm

theorem Scope.Apart.helper_free {s : Settings} {scope : Scope} (hapart : scope.Apart s)
    {name : String} {p : Parallel} {branches : List Machine}
    (hmem : (name, State.parallel p branches) ∈ scope.states) :
    mergeHelperName s name ∉ Entries.keys scope.states := by
  intro hkey
  rw [Scope.Apart, (namesWithHelpers_perm s scope).nodup_iff, List.nodup_append] at hapart
  exact hapart.2.2 _ hkey _ (Scope.mem_helpers.mpr ⟨name, p, branches, hmem, rfl⟩) rfl

/-- Nothing is found about the merge helpers of a scope exactly if the names that it is lowered to
are distinct. -/
theorem helperBreaches_scope_eq_nil {s : Settings} {scope : Scope}
    (hdistinct : Entries.Distinct scope.states) :
    helperBreaches s scope [] scope.parallels = [] ↔ scope.Apart s := by
  rw [helperBreaches_eq_nil, Scope.Apart, (namesWithHelpers_perm s scope).nodup_iff,
    List.nodup_append]
  constructor
  · rintro ⟨hfree, hnodup, -⟩
    refine ⟨hdistinct, hnodup, ?_⟩
    rintro name hname other hother rfl
    obtain ⟨parallel, hparallel, rfl⟩ := List.mem_map.mp hother
    exact hfree parallel hparallel hname
  · rintro ⟨-, hnodup, hdisjoint⟩
    refine ⟨fun name hname hmem => ?_, hnodup, by simp⟩
    exact hdisjoint _ hmem _ (List.mem_map_of_mem hname) rfl

theorem mergeHelpers_eq_nil {s : Settings} {d : Document}
    (hdistinct : ∀ scope ∈ d.scopes, Entries.Distinct scope.states) :
    mergeHelpers s d = [] ↔
      (∀ scope ∈ d.scopes, scope.Apart s) ∧
        ∀ p branches, d.failureHandler? = some (.parallel p branches) →
          mergeHelperName s s.failure.handler ∉ Entries.keys d.states := by
  rw [mergeHelpers, List.append_eq_nil_iff, List.flatMap_eq_nil_iff]
  refine and_congr ?_ ?_
  · exact forall₂_congr fun scope hscope => helperBreaches_scope_eq_nil (hdistinct scope hscope)
  · rcases d.failureHandler? with _ | handler
    · simp
    · cases handler <;> simp [← Entries.has_iff]

/-! ## All rules together -/

structure WellFormed (s : Settings) (d : Document) : Prop where
  names : d.stateNames.Nodup
  closed : ∀ scope ∈ d.scopes, scope.Closed
  handlerCatchers : ∀ handler ∈ d.failureHandler?, ∀ c ∈ handler.catchers,
    c.next ∈ Entries.keys d.states ∨
      c.next ∈ [s.failure.entry, s.failure.handler, s.failure.final]
  reserved : ∀ name ∈ s.reservedNames, name ∉ Entries.keys d.states
  helpers : ∀ scope ∈ d.scopes, scope.Apart s
  handlerHelper : ∀ p branches, d.failureHandler? = some (.parallel p branches) →
    mergeHelperName s s.failure.handler ∉ Entries.keys d.states

theorem distinct_of_mem_scopes {d : Document} (hnames : d.stateNames.Nodup) :
    ∀ scope ∈ d.scopes, Entries.Distinct scope.states :=
  (List.nodup_flatMap.mp hnames).1

theorem topScope_mem (d : Document) : ⟨"/States", d.startAt, d.states⟩ ∈ d.scopes := by
  simp [Document.scopes]

theorem breaches_eq_nil_iff {s : Settings} {d : Document} :
    breaches s d = [] ↔ WellFormed s d := by
  simp only [breaches, List.append_eq_nil_iff, duplicateNames_eq_nil, danglingReferences_eq_nil,
    handlerReferences_eq_nil, reservedNames_eq_nil, handlerMayReach_iff]
  constructor
  · rintro ⟨⟨⟨⟨hnames, hclosed⟩, hcatchers⟩, hreserved⟩, hhelpers⟩
    rw [mergeHelpers_eq_nil (distinct_of_mem_scopes hnames)] at hhelpers
    exact ⟨hnames, hclosed, hcatchers, hreserved, hhelpers.1, hhelpers.2⟩
  · intro h
    refine ⟨⟨⟨⟨h.names, h.closed⟩, h.handlerCatchers⟩, h.reserved⟩, ?_⟩
    exact (mergeHelpers_eq_nil (distinct_of_mem_scopes h.names)).mpr ⟨h.helpers, h.handlerHelper⟩

end StateFlow.Playbook
