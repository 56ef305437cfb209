import Mathlib.Data.List.Basic
import StateFlow.Proofs.Rules

/-!
# The tree of scopes

A scope has a place in the document: the position of a state and the position of a machine inside
that state, again and again down to the scope.  `Document.scopeAt?` goes to a place.  The scopes of
a document are listed in the order of their places, each once (`enumerates_scopes`), and this order
is depth first: a place comes in front of the places inside it, and these come in front of the
places inside later states.
-/

namespace StateFlow.Playbook

/-- Positions on the way down, of a state and of a machine by turns. -/
abbrev Place := List Nat

/-! ## Enumerations -/

/-- A list holds what stands at places, each place once and in order. -/
def Enumerates {α : Type} (view : Place → Option α) (listed : List α) : Prop :=
  ∃ places : List Place, places.Pairwise (· < ·) ∧
    (∀ place, place ∈ places ↔ (view place).isSome) ∧ listed.map some = places.map view

def viewFrom {α : Type} (inside : Nat → Place → Option α) : Place → Option α
  | [] => none
  | n :: place => inside n place

def Place.next : Place → Place
  | [] => []
  | n :: place => (n + 1) :: place

theorem Place.next_lt_next {a b : Place} (hlt : a < b) : a.next < b.next := by
  cases b with
  | nil => exact absurd hlt (List.not_lt_nil a)
  | cons m b =>
      cases a with
      | nil => exact List.nil_lt_cons _ _
      | cons n a =>
          rw [List.cons_lt_cons_iff] at hlt
          rw [Place.next, Place.next, List.cons_lt_cons_iff]
          exact hlt.imp (fun hless => by omega) fun hsame => ⟨by omega, hsame.2⟩

theorem Place.next_eq_nil {place : Place} : place.next = [] ↔ place = [] := by
  cases place <;> simp [Place.next]

theorem Place.next_eq_cons {place rest : Place} {n : Nat} :
    place.next = n :: rest ↔ ∃ m, n = m + 1 ∧ place = m :: rest := by
  cases place with
  | nil => simp [Place.next]
  | cons m place => simp [Place.next, eq_comm]

namespace Enumerates

variable {α : Type} {inside : Nat → Place → Option α}

theorem nil (hnone : ∀ n place, inside n place = none) : Enumerates (viewFrom inside) [] := by
  refine ⟨[], List.Pairwise.nil, fun place => ?_, rfl⟩
  cases place with
  | nil => simp [viewFrom]
  | cons n place => simp [viewFrom, hnone]

/-- The places that begin with the first position come first. -/
theorem append {first rest : List α} (hfirst : Enumerates (inside 0) first)
    (hrest : Enumerates (viewFrom fun n => inside (n + 1)) rest) :
    Enumerates (viewFrom inside) (first ++ rest) := by
  obtain ⟨firstPlaces, hfirstOrder, hfirstMem, hfirstMap⟩ := hfirst
  obtain ⟨restPlaces, hrestOrder, hrestMem, hrestMap⟩ := hrest
  have hnext : ∀ place, viewFrom inside (Place.next place) =
      viewFrom (fun n => inside (n + 1)) place := by
    intro place
    cases place <;> rfl
  refine ⟨firstPlaces.map (0 :: ·) ++ restPlaces.map Place.next, ?_, fun place => ?_, ?_⟩
  · rw [List.pairwise_append, List.pairwise_map, List.pairwise_map]
    refine ⟨hfirstOrder.imp ?_, hrestOrder.imp Place.next_lt_next, ?_⟩
    · intro a b hlt
      rw [List.cons_lt_cons_iff]
      exact Or.inr ⟨rfl, hlt⟩
    · simp only [List.forall_mem_map]
      intro a ha b hb
      cases b with
      | nil => simpa [viewFrom] using (hrestMem []).mp hb
      | cons n b =>
          rw [Place.next, List.cons_lt_cons_iff]
          omega
  · rw [List.mem_append, List.mem_map, List.mem_map]
    cases place with
    | nil =>
        have hnone : [] ∉ restPlaces := fun hnil => by
          simpa [viewFrom] using (hrestMem []).mp hnil
        simpa [viewFrom, Place.next_eq_nil] using hnone
    | cons n place =>
        simp only [Place.next_eq_cons]
        cases n with
        | zero => simpa [viewFrom] using hfirstMem place
        | succ n => simpa [viewFrom] using hrestMem (n :: place)
  · rw [List.map_append, List.map_append, List.map_map, List.map_map, hfirstMap, hrestMap]
    refine congrArg₂ _ rfl (List.map_congr_left fun place _ => ?_)
    exact (hnext place).symm

/-- A place comes in front of the places inside it. -/
theorem cons {view : Place → Option α} {first : α} {rest : List α} (hfirst : view [] = some first)
    (hview : ∀ n place, view (n :: place) = inside n place)
    (hrest : Enumerates (viewFrom inside) rest) : Enumerates view (first :: rest) := by
  obtain ⟨places, horder, hmem, hmap⟩ := hrest
  have hinside : ∀ place ∈ places, ∃ n rest, place = n :: rest := by
    intro place hplace
    cases place with
    | nil => simpa [viewFrom] using (hmem []).mp hplace
    | cons n rest => exact ⟨n, rest, rfl⟩
  refine ⟨[] :: places, ?_, fun place => ?_, ?_⟩
  · refine List.Pairwise.cons (fun place hplace => ?_) horder
    obtain ⟨n, rest, rfl⟩ := hinside place hplace
    exact List.nil_lt_cons _ _
  · cases place with
    | nil => simp [hfirst]
    | cons n place => simpa [hview, viewFrom] using hmem (n :: place)
  · rw [List.map_cons, List.map_cons, hfirst, hmap]
    refine congrArg _ (List.map_congr_left fun place hplace => ?_)
    obtain ⟨n, rest, rfl⟩ := hinside place hplace
    exact (hview n rest).symm

theorem mem_iff {view : Place → Option α} {listed : List α} (hlisted : Enumerates view listed)
    {item : α} : item ∈ listed ↔ ∃ place, view place = some item := by
  obtain ⟨places, _, hmem, hmap⟩ := hlisted
  have hitem : item ∈ listed ↔ some item ∈ places.map view := by
    simp [← hmap]
  rw [hitem, List.mem_map]
  constructor
  · rintro ⟨place, _, hview⟩
    exact ⟨place, hview⟩
  · rintro ⟨place, hview⟩
    exact ⟨place, (hmem place).mpr (by simp [hview]), hview⟩

end Enumerates

theorem flatMap_eq_of_map_some {α β : Type} {view : Place → Option α} {listed : List α}
    {places : List Place} (hlisted : listed.map some = places.map view) (f : α → List β) :
    listed.flatMap f = places.flatMap fun place => (view place).elim [] f := by
  calc listed.flatMap f
      = (listed.map some).flatMap fun item => item.elim [] f := by simp [List.flatMap_map]
    _ = places.flatMap fun place => (view place).elim [] f := by rw [hlisted, List.flatMap_map]

/-! ## Scopes at places -/

def Machine.branchScope (path : String) (n : Nat) (m : Machine) : Scope :=
  ⟨path ++ "/Branches/" ++ toString n ++ "/States", m.startAt, m.states⟩

def State.scope? (path : String) : State → Nat → Option Scope
  | .parallel _ branches, n => branches[n]?.map (Machine.branchScope path n)
  | .map _ iterator, 0 => some ⟨path ++ "/Iterator/States", iterator.startAt, iterator.states⟩
  | _, _ => none

def placed (path : String) (states : Entries State) : List (String × State) :=
  states.map fun entry => (path ++ "/" ++ entry.1, entry.2)

def Scope.at? : Scope → Place → Option Scope
  | scope, [] => some scope
  | _, [_] => none
  | scope, i :: n :: place => do
    let (path, s) ← (placed scope.path scope.states)[i]?
    let inner ← s.scope? path n
    inner.at? place

def State.at? (path : String) (s : State) : Place → Option Scope :=
  viewFrom fun n place => (s.scope? path n).bind fun inner => inner.at? place

def statesAt? (entries : List (String × State)) : Place → Option Scope :=
  viewFrom fun i place => entries[i]?.bind fun entry => entry.2.at? entry.1 place

def Document.placedHandler (d : Document) : List (String × State) :=
  match d.failureHandler? with
  | some (.parallel p branches) => [("/Decorators/TaskFailureHandler", .parallel p branches)]
  | _ => []

/-- The scope at a place of a document.  The failure handler counts as a state behind the last one
of the top level. -/
def Document.scopeAt? (d : Document) : Place → Option Scope
  | [] => some ⟨"/States", d.startAt, d.states⟩
  | place => statesAt? (placed "/States" d.states ++ d.placedHandler) place

theorem Scope.at?_cons (scope : Scope) (i : Nat) (place : Place) :
    scope.at? (i :: place) = statesAt? (placed scope.path scope.states) (i :: place) := by
  cases place with
  | nil => simp [Scope.at?, statesAt?, State.at?, viewFrom]
  | cons n place => rfl

/-! ## The listing -/

theorem enumerates_statesAt?_nil : Enumerates (statesAt? []) [] :=
  Enumerates.nil fun _ _ => rfl

mutual

theorem enumerates_machine (path : String) : (m : Machine) →
    Enumerates (Scope.at? ⟨path, m.startAt, m.states⟩) (Machine.scopes path m)
  | ⟨_, startAt, states, _⟩ => by
      have hnested := enumerates_nested path states enumerates_statesAt?_nil
      rw [List.append_nil, List.append_nil] at hnested
      rw [Machine.scopes]
      exact Enumerates.cons rfl (Scope.at?_cons _) hnested

theorem enumerates_state (path : String) : (s : State) →
    Enumerates (s.at? path) (State.scopes path s)
  | .parallel fields branches => by
      have hbranches := enumerates_branches path 0 branches
      simp only [Nat.zero_add] at hbranches
      rw [State.scopes]
      exact hbranches
  | .map fields iterator => by
      have hiterator := enumerates_machine (path ++ "/Iterator/States") iterator
      rw [State.scopes, ← List.append_nil (Machine.scopes _ iterator)]
      exact Enumerates.append hiterator (Enumerates.nil fun _ _ => rfl)
  | .pass _ | .succeed _ | .fail _ | .wait _ | .task _ | .interaction _ | .choice _ =>
      Enumerates.nil fun _ _ => rfl

theorem enumerates_branches (path : String) (n : Nat) : (branches : List Machine) →
    Enumerates (viewFrom fun j place => (branches[j]?.map (Machine.branchScope path (n + j))).bind
      fun inner => inner.at? place) (branchScopes path n branches)
  | [] => Enumerates.nil fun _ _ => rfl
  | m :: rest => by
      have hrest := enumerates_branches path (n + 1) rest
      simp only [Nat.add_right_comm n 1] at hrest
      rw [branchScopes]
      exact Enumerates.append (enumerates_machine _ m) hrest

/-- The states of a scope may be followed by other states. -/
theorem enumerates_nested (path : String) {tail : List (String × State)} {listed : List Scope} :
    (states : Entries State) → Enumerates (statesAt? tail) listed →
      Enumerates (statesAt? (placed path states ++ tail)) (nestedScopes path states ++ listed)
  | [], htail => htail
  | (name, s) :: rest, htail => by
      rw [nestedScopes, List.append_assoc]
      exact Enumerates.append (enumerates_state _ s) (enumerates_nested path rest htail)

end

theorem enumerates_handler (d : Document) :
    Enumerates (statesAt? d.placedHandler) (handlerScopes d.failureHandler?) := by
  unfold Document.placedHandler handlerScopes
  cases d.failureHandler? with
  | none => exact enumerates_statesAt?_nil
  | some handler =>
      cases handler with
      | parallel fields branches =>
          have hhandler : Enumerates
              (statesAt? [("/Decorators/TaskFailureHandler", .parallel fields branches)]) _ :=
            Enumerates.append (enumerates_state _ _) enumerates_statesAt?_nil
          rwa [List.append_nil, State.scopes] at hhandler
      | _ => exact enumerates_statesAt?_nil

/-- Every scope of a document is listed once, in depth-first order. -/
theorem enumerates_scopes (d : Document) : Enumerates d.scopeAt? d.scopes :=
  Enumerates.cons rfl (fun _ _ => rfl) (enumerates_nested "/States" d.states (enumerates_handler d))

end StateFlow.Playbook
