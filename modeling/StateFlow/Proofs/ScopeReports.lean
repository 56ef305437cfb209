import Mathlib.Data.Finset.Card
import StateFlow.Proofs.ScopeTree

/-!
# What is reported of names and references

Names that are declared twice and references that leave their scope are found in the flat list of
scopes.  Here both reports are stated over the tree of scopes: `duplicateNames_iff_declaredTwice`
says which names are reported and in which order, and `danglingReferences_eq_flatMap_places` which
references.
-/

namespace StateFlow.Playbook

/-! ## Declarations -/

def Document.namesAt (d : Document) (place : Place) : List String :=
  (d.scopeAt? place).elim [] fun scope => Entries.keys scope.states

def Document.nameAt? (d : Document) (place : Place) (i : Nat) : Option String :=
  (d.namesAt place)[i]?

def Document.DeclaredTwice (d : Document) (name : String) : Prop :=
  ∃ first second : Place × Nat, first ≠ second ∧
    d.nameAt? first.1 first.2 = some name ∧ d.nameAt? second.1 second.2 = some name

theorem isSome_scopeAt?_of_lt {d : Document} {place : Place} {i : Nat}
    (hlt : i < (d.namesAt place).length) : (d.scopeAt? place).isSome := by
  unfold Document.namesAt at hlt
  cases hscope : d.scopeAt? place with
  | none => simp [hscope] at hlt
  | some scope => rfl

/-- Positions of all states, in the order of their scopes and of the declarations there. -/
structure Document.Declared (d : Document) (declarations : List (Place × Nat)) : Prop where
  ordered : declarations.Pairwise (Prod.Lex (· < ·) (· < ·))
  complete : ∀ place i, (place, i) ∈ declarations ↔ (d.nameAt? place i).isSome
  names : d.stateNames.map some = declarations.map fun pos => d.nameAt? pos.1 pos.2

theorem map_some_eq_map_range {α : Type} (items : List α) :
    items.map some = (List.range items.length).map fun i => items[i]? := by
  apply List.ext_getElem (by simp)
  intro i hi _
  simp

theorem exists_declared (d : Document) : ∃ declarations, d.Declared declarations := by
  obtain ⟨places, horder, hmem, hlisted⟩ := enumerates_scopes d
  refine ⟨places.flatMap fun place => (List.range (d.namesAt place).length).map (place, ·),
    ?_, fun place i => ?_, ?_⟩
  · rw [List.pairwise_flatMap]
    refine ⟨fun place _ => ?_, horder.imp fun hlt => ?_⟩
    · rw [List.pairwise_map]
      exact List.pairwise_lt_range.imp fun hlt => Prod.Lex.right _ hlt
    · simp only [List.forall_mem_map]
      exact fun _ _ _ _ => Prod.Lex.left _ _ hlt
  · rw [Document.nameAt?, isSome_getElem?]
    simp only [List.mem_flatMap, List.mem_map, List.mem_range, Prod.mk.injEq]
    constructor
    · rintro ⟨_, _, _, hlt, rfl, rfl⟩
      exact hlt
    · intro hlt
      exact ⟨place, (hmem place).mpr (isSome_scopeAt?_of_lt hlt), i, hlt, rfl, rfl⟩
  · have hnames : d.stateNames = places.flatMap d.namesAt := flatMap_eq_of_map_some hlisted _
    rw [hnames, List.map_flatMap, List.map_flatMap]
    apply List.flatMap_congr
    intro place _
    rw [List.map_map]
    exact map_some_eq_map_range (d.namesAt place)

/-! ## Names that occur twice -/

/-- While the names in front hold a name at most once, its second occurrence moves by one. -/
theorem idxOfNth_cons_second {before rest : List String} {head name : String}
    (hbefore : (head :: before).count name ≤ 1) :
    (head :: rest).idxOfNth name (1 - before.count name) =
      rest.idxOfNth name (1 - (head :: before).count name) + 1 := by
  by_cases hname : head = name
  · subst hname
    rw [List.count_cons_self] at hbefore ⊢
    have hzero : before.count head = 0 := by omega
    simp [hzero]
  · rw [List.count_cons_of_ne hname, List.idxOfNth_cons_of_not_beq (by simpa using hname)]

theorem pairwise_secondOccurrences (before rest : List String) :
    (secondOccurrences before rest).Pairwise fun a b =>
      rest.idxOfNth a (1 - before.count a) < rest.idxOfNth b (1 - before.count b) := by
  induction rest generalizing before with
  | nil => exact List.Pairwise.nil
  | cons head rest ih =>
      have hmoved : ∀ name ∈ secondOccurrences (head :: before) rest,
          (head :: rest).idxOfNth name (1 - before.count name) =
            rest.idxOfNth name (1 - (head :: before).count name) + 1 :=
        fun name hname => idxOfNth_cons_second (mem_secondOccurrences.mp hname).1
      rw [secondOccurrences, List.pairwise_append]
      refine ⟨?_, ?_, ?_⟩
      · split
        · exact List.pairwise_singleton _ _
        · exact List.Pairwise.nil
      · refine (ih (head :: before)).imp_of_mem fun ha hb hlt => ?_
        rw [hmoved _ ha, hmoved _ hb]
        omega
      · intro a ha b hb
        split at ha
        next hcount =>
          obtain rfl : a = head := by simpa using ha
          rw [hmoved b hb, hcount]
          simp
        next => cases ha

/-! ## The report of names -/

theorem two_le_countP_iff {α : Type} [DecidableEq α] {items : List α} {p : α → Bool}
    (hnodup : items.Nodup) :
    2 ≤ items.countP p ↔ ∃ first ∈ items, ∃ second ∈ items,
      first ≠ second ∧ p first = true ∧ p second = true := by
  have hcard : items.countP p = (items.filter p).toFinset.card := by
    rw [List.countP_eq_length_filter, List.toFinset_card_of_nodup (hnodup.filter p)]
  rw [hcard, ← Nat.lt_iff_add_one_le, Finset.one_lt_card]
  simp only [List.mem_toFinset, List.mem_filter]
  constructor
  · rintro ⟨first, ⟨hfirst, hpfirst⟩, second, ⟨hsecond, hpsecond⟩, hne⟩
    exact ⟨first, hfirst, second, hsecond, hne, hpfirst, hpsecond⟩
  · rintro ⟨first, hfirst, second, hsecond, hne, hpfirst, hpsecond⟩
    exact ⟨first, ⟨hfirst, hpfirst⟩, second, ⟨hsecond, hpsecond⟩, hne⟩

theorem two_le_count_stateNames_iff {d : Document} {name : String} :
    2 ≤ d.stateNames.count name ↔ d.DeclaredTwice name := by
  obtain ⟨declarations, hordered, hcomplete, hnames⟩ := exists_declared d
  have hcount : d.stateNames.count name =
      declarations.countP fun pos => d.nameAt? pos.1 pos.2 == some name := by
    rw [← List.count_map_of_injective _ some (Option.some_injective _), hnames, List.count,
      List.countP_map]
    rfl
  have hdeclared : ∀ pos : Place × Nat, d.nameAt? pos.1 pos.2 = some name → pos ∈ declarations := by
    intro pos hname
    rw [← Prod.mk.eta (p := pos), hcomplete, hname, Option.isSome_some]
  rw [hcount, two_le_countP_iff hordered.nodup]
  simp only [beq_iff_eq]
  constructor
  · rintro ⟨first, _, second, _, htwo⟩
    exact ⟨first, second, htwo⟩
  · rintro ⟨first, second, hne, hfirst, hsecond⟩
    exact ⟨first, hdeclared _ hfirst, second, hdeclared _ hsecond, hne, hfirst, hsecond⟩

theorem duplicateNames_of_ne_nil {d : Document} (hne : secondOccurrences [] d.stateNames ≠ []) :
    duplicateNames d = [.duplicated (secondOccurrences [] d.stateNames)] := by
  unfold duplicateNames
  rw [repeatedNames_eq]
  split
  next hnil => exact absurd hnil hne
  next => rfl

theorem mem_secondOccurrences_stateNames {d : Document} {name : String} :
    name ∈ secondOccurrences [] d.stateNames ↔ d.DeclaredTwice name := by
  rw [mem_secondOccurrences, ← two_le_count_stateNames_iff]
  simp

/-- Every declaration of the document gives its name to the list of names once.  If two states have
one name, there is one breach; it holds each name that is declared twice, once, in the order of the
second declarations.  Otherwise there is none. -/
theorem duplicateNames_iff_declaredTwice (d : Document) :
    (∃ declarations, d.Declared declarations) ∧
      (duplicateNames d = [] ↔ ∀ name, ¬ d.DeclaredTwice name) ∧
      (duplicateNames d = [] ∨
        ∃ names, duplicateNames d = [.duplicated names] ∧ names.Nodup ∧
          (∀ name, name ∈ names ↔ d.DeclaredTwice name) ∧
          names.Pairwise fun a b => d.stateNames.idxOfNth a 1 < d.stateNames.idxOfNth b 1) := by
  have hpairwise := pairwise_secondOccurrences [] d.stateNames
  simp only [List.count_nil, Nat.sub_zero] at hpairwise
  refine ⟨exists_declared d, ?_, ?_⟩
  · rw [duplicateNames_eq_nil, List.nodup_iff_count_le_one]
    refine forall_congr' fun name => ?_
    rw [← two_le_count_stateNames_iff]
    omega
  · by_cases hnil : secondOccurrences [] d.stateNames = []
    · left
      rw [duplicateNames, repeatedNames_eq, hnil]
    · right
      refine ⟨_, duplicateNames_of_ne_nil hnil, ?_, fun name => mem_secondOccurrences_stateNames,
        hpairwise⟩
      exact hpairwise.imp fun hlt heq => by simp [heq] at hlt

/-! ## The report of references -/

/-- The breaches of references are those of each scope in depth-first order: first that of a start
which is no state of the scope, then one for each reference to no state of the scope, in the order
of the declarations.  There are none exactly if each scope has the states it starts at and refers
to; the states of other scopes do not count. -/
theorem danglingReferences_eq_flatMap_places (d : Document) :
    (∃ places : List Place, places.Pairwise (· < ·) ∧
      (∀ place, place ∈ places ↔ (d.scopeAt? place).isSome) ∧
      danglingReferences d = places.flatMap fun place => (d.scopeAt? place).elim [] fun scope =>
        (if scope.startAt ∈ Entries.keys scope.states then []
          else [.unknownStart scope.path scope.startAt]) ++
        scope.states.flatMap fun entry =>
          (entry.2.references.filter fun ref => ref.target ∉ Entries.keys scope.states).map
            fun ref => .dangling scope.path entry.1 ref) ∧
    (danglingReferences d = [] ↔ ∀ place scope, d.scopeAt? place = some scope →
      scope.startAt ∈ Entries.keys scope.states ∧
        ∀ entry ∈ scope.states, ∀ ref ∈ entry.2.references,
          ref.target ∈ Entries.keys scope.states) := by
  refine ⟨?_, ?_⟩
  · obtain ⟨places, horder, hmem, hlisted⟩ := enumerates_scopes d
    refine ⟨places, horder, hmem, ?_⟩
    rw [danglingReferences, flatMap_eq_of_map_some hlisted, funext Scope.breaches_eq]
    rfl
  · simp only [danglingReferences_eq_nil, (enumerates_scopes d).mem_iff, Scope.closed_iff]
    constructor
    · intro hclosed place scope hscope
      exact hclosed scope ⟨place, hscope⟩
    · rintro hclosed scope ⟨place, hscope⟩
      exact hclosed place scope hscope

/-- A branch cannot go on to a state that is declared around it. -/
example :
    danglingReferences
      { name := "", comment := "", startAt := "Fan", decorators := none, extra := []
        states := [("Fan", .parallel { exit := { isEnd := some true } }
          [⟨none, "Step", [("Step", .pass { exit := { next := some "Fan" } })], []⟩])] } =
      [.dangling "/States/Fan/Branches/0/States" "Step" ⟨"Fan", .next⟩] := by
  rfl

end StateFlow.Playbook
