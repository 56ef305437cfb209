import StateFlow.Proofs.Entries
import StateFlow.Rules.Basic

/-!
# The graph of a scope and its references

Building a graph goes through the references of a scope one by one.  `foldl_addReference` and
`foldl_addState` say what a run of steps comes to: edges in front of the edges that were there, and
breaches behind the breaches that were there.  The breaches are what leads nowhere (`links_eq`), so
a graph is built exactly for closed scopes, and the edges of a node are the references of its state
from the last to the first (`ofScope_faithful`).  The rules report of a scope what its graph fails
with, and `Scope.breaches_eq` says what that is.
-/

namespace StateFlow.Playbook

/-! ## Closed scopes -/

namespace Scope

theorem has_iff {scope : Scope} {name : String} :
    scope.has name = true ↔ name ∈ Entries.keys scope.states :=
  Entries.has_iff

theorem closed_iff {scope : Scope} :
    scope.Closed ↔ scope.startAt ∈ Entries.keys scope.states ∧
      ∀ entry ∈ scope.states, ∀ ref ∈ entry.2.references,
        ref.target ∈ Entries.keys scope.states := by
  simp only [Closed, references, has_iff, List.mem_flatMap, List.mem_map]
  constructor
  · rintro ⟨hstart, hrefs⟩
    exact ⟨hstart, fun entry hentry ref href => hrefs _ ⟨entry, hentry, ref, href, rfl⟩⟩
  · rintro ⟨hstart, hrefs⟩
    refine ⟨hstart, ?_⟩
    rintro _ ⟨entry, hentry, ref, href, rfl⟩
    exact hrefs entry hentry ref href

/-- The start and the references of a scope that lead nowhere, said without its graph. -/
def unresolved (scope : Scope) : List Breach :=
  (if scope.startAt ∈ Entries.keys scope.states then []
    else [.unknownStart scope.path scope.startAt]) ++
  scope.states.flatMap fun entry =>
    (entry.2.references.filter fun ref => ref.target ∉ Entries.keys scope.states).map fun ref =>
      .dangling scope.path entry.1 ref

theorem unresolved_eq_nil {scope : Scope} : scope.unresolved = [] ↔ scope.Closed := by
  rw [closed_iff, unresolved, List.append_eq_nil_iff, List.flatMap_eq_nil_iff]
  apply and_congr
  · by_cases hstart : scope.startAt ∈ Entries.keys scope.states
    · simp [hstart]
    · simp [hstart]
  · apply forall_congr'
    intro entry
    apply forall_congr'
    intro hentry
    rw [List.map_eq_nil_iff, List.filter_eq_nil_iff]
    simp

end Scope

namespace Graph

/-! ## Places -/

section Places

variable {names : List String} {name : String}

theorem index_eq_ofPairs (names : List String) :
    index names = Entries.ofPairs ((List.finRange names.length).map fun i => (names.get i, i)) := by
  rw [index, Entries.ofPairs, Entries.extend, List.foldl_map]

/-- A name stands at its place. -/
theorem get_of_get?_index {i : Fin names.length}
    (hplace : Entries.get? (index names) name = some i) : names.get i = name := by
  rw [index_eq_ofPairs] at hplace
  have hmem := Entries.mem_of_mem_ofPairs (Entries.mem_of_get? hplace)
  obtain ⟨j, -, heq⟩ := List.mem_map.mp hmem
  cases heq
  rfl

theorem mem_keys_index : name ∈ Entries.keys (index names) ↔ name ∈ names := by
  have hkeys : Entries.keys ((List.finRange names.length).map fun i => (names.get i, i)) =
      names := by
    rw [Entries.keys, List.map_map]
    exact List.map_get_finRange names
  rw [index_eq_ofPairs, Entries.mem_keys_ofPairs, hkeys]

end Places

/-! ## Adding references -/

section Links

variable {n : Nat} {places : Entries (Fin n)} {path : String}

def edgesFrom (places : Entries (Fin n)) (source : Fin n) (refs : List Reference) :
    List (Edge n) :=
  refs.filterMap fun ref =>
    (Entries.get? places ref.target).map fun target => ⟨source, target, ref.transition⟩

def danglingFrom (places : Entries (Fin n)) (path : String) (entry : String × State) :
    List Breach :=
  (entry.2.references.filter fun ref => ref.target ∉ Entries.keys places).map
    fun ref => .dangling path entry.1 ref

theorem addReference_of_mem {name : String} {source target : Fin n} {links : Links n}
    {ref : Reference} (hplace : Entries.get? places ref.target = some target) :
    addReference places path name source links ref =
      { links with edges := ⟨source, target, ref.transition⟩ :: links.edges } := by
  rw [addReference, hplace]

theorem addReference_of_not_mem {name : String} {source : Fin n} {links : Links n}
    {ref : Reference} (hplace : Entries.get? places ref.target = none) :
    addReference places path name source links ref =
      { links with breaches := links.breaches.push (.dangling path name ref) } := by
  rw [addReference, hplace]

/-- A run through references puts their edges in front and their breaches behind. -/
theorem foldl_addReference (name : String) (source : Fin n) (refs : List Reference)
    (links : Links n) :
    refs.foldl (addReference places path name source) links =
      { edges := (edgesFrom places source refs).reverse ++ links.edges
        breaches := links.breaches ++
          ((refs.filter fun ref => ref.target ∉ Entries.keys places).map
            fun ref => Breach.dangling path name ref).toArray } := by
  induction refs generalizing links with
  | nil => simp [edgesFrom]
  | cons ref refs ih =>
      rw [List.foldl_cons]
      cases hplace : Entries.get? places ref.target with
      | some target =>
          have hmem : ref.target ∈ Entries.keys places :=
            Entries.mem_keys_iff_get?.mpr ⟨target, hplace⟩
          rw [addReference_of_mem hplace, ih]
          simp [edgesFrom, hplace, hmem]
      | none =>
          have hmem : ref.target ∉ Entries.keys places := Entries.get?_eq_none.mp hplace
          rw [addReference_of_not_mem hplace, ih]
          simp [edgesFrom, hplace, hmem]

def stateEdges (places : Entries (Fin n)) (entry : String × State) : List (Edge n) :=
  (Entries.get? places entry.1).elim [] fun source => edgesFrom places source entry.2.references

/-- A run through states does so state by state, each under its own place. -/
theorem foldl_addState (states : Entries State) (links : Links n)
    (hnamed : ∀ entry ∈ states, entry.1 ∈ Entries.keys places) :
    states.foldl (addState places path) links =
      { edges := (states.flatMap (stateEdges places)).reverse ++ links.edges
        breaches := links.breaches ++ (states.flatMap (danglingFrom places path)).toArray } := by
  induction states generalizing links with
  | nil => simp
  | cons entry states ih =>
      rw [List.forall_mem_cons] at hnamed
      -- Every state is a node, so none is passed over.
      obtain ⟨source, hsource⟩ := Entries.mem_keys_iff_get?.mp hnamed.1
      rw [List.foldl_cons, addState, hsource]
      simp only
      rw [foldl_addReference, ih _ hnamed.2]
      simp [stateEdges, danglingFrom, hsource]

end Links

/-! ## Graphs of scopes -/

section Scopes

variable {scope : Scope}

abbrev placesOf (scope : Scope) : Entries (Fin (Entries.keys scope.states).length) :=
  index (Entries.keys scope.states)

/-- The edges of a scope, and what keeps it from being closed. -/
theorem links_eq (scope : Scope) :
    links (placesOf scope) scope =
      { edges := (scope.states.flatMap (stateEdges (placesOf scope))).reverse
        breaches := scope.unresolved.toArray } := by
  have hnamed : ∀ entry ∈ scope.states, entry.1 ∈ Entries.keys (placesOf scope) :=
    fun entry hentry => mem_keys_index.mpr (Entries.mem_keys_of_mem hentry)
  have hdangling : scope.states.flatMap (danglingFrom (placesOf scope) scope.path) =
      scope.states.flatMap fun entry =>
        (entry.2.references.filter fun ref => ref.target ∉ Entries.keys scope.states).map fun ref =>
          .dangling scope.path entry.1 ref := by
    refine List.flatMap_congr fun entry _ => ?_
    simp only [danglingFrom, mem_keys_index]
  rw [links, foldl_addState _ _ hnamed, hdangling, Scope.unresolved]
  simp only [Entries.has_iff, mem_keys_index]
  split <;> simp

/-- A scope that is not closed has no graph but its breaches. -/
theorem ofScope_of_not_closed (hopen : ¬ scope.Closed) :
    ofScope scope = .error scope.unresolved := by
  rw [← Scope.unresolved_eq_nil] at hopen
  unfold ofScope
  simp only [links_eq]
  split
  · next hnil => exact absurd hnil hopen
  · rfl

abbrev closedGraph (scope : Scope) (startPlace : Fin (Entries.keys scope.states).length) :
    Graph where
  nodes := Entries.keys scope.states
  places := placesOf scope
  startPlace := startPlace
  edges := (scope.states.flatMap (stateEdges (placesOf scope))).reverse

theorem ofScope_of_closed (hclosed : scope.Closed) :
    ∃ startPlace, Entries.get? (placesOf scope) scope.startAt = some startPlace ∧
      ofScope scope = .ok (closedGraph scope startPlace) := by
  have hstart : scope.startAt ∈ Entries.keys (placesOf scope) :=
    mem_keys_index.mpr (Scope.closed_iff.mp hclosed).1
  obtain ⟨startPlace, hplace⟩ := Entries.mem_keys_iff_get?.mp hstart
  refine ⟨startPlace, hplace, ?_⟩
  unfold ofScope
  simp only [links_eq, hplace, Scope.unresolved_eq_nil.mpr hclosed]

theorem ofScope_eq_ok {g : Graph} (hg : ofScope scope = .ok g) :
    scope.Closed ∧ ∃ startPlace,
      Entries.get? (placesOf scope) scope.startAt = some startPlace ∧
        g = closedGraph scope startPlace := by
  have hclosed : scope.Closed := by
    by_contra hopen
    rw [ofScope_of_not_closed hopen] at hg
    cases hg
  obtain ⟨startPlace, hplace, hok⟩ := ofScope_of_closed hclosed
  rw [hok] at hg
  cases hg
  exact ⟨hclosed, startPlace, hplace, rfl⟩

/-! ## Edges and references -/

/-- Where all targets have places, the edges of a node stand for its references. -/
theorem map_reference_edgesFrom {names : List String} {source : Fin names.length}
    {refs : List Reference} (htargets : ∀ ref ∈ refs, ref.target ∈ names) :
    (edgesFrom (index names) source refs).map (Edge.reference names) = refs := by
  induction refs with
  | nil => rfl
  | cons ref refs ih =>
      rw [List.forall_mem_cons] at htargets
      obtain ⟨target, hplace⟩ := Entries.mem_keys_iff_get?.mp (mem_keys_index.mpr htargets.1)
      have hedge : Edge.reference names ⟨source, target, ref.transition⟩ = ref := by
        rw [Edge.reference, get_of_get?_index hplace]
      rw [edgesFrom, List.filterMap_cons, hplace]
      simp only [Option.map_some, List.map_cons, hedge]
      exact congrArg (ref :: ·) (ih htargets.2)

theorem map_reference_stateEdges (hclosed : scope.Closed) {entry : String × State}
    (hentry : entry ∈ scope.states) :
    (stateEdges (placesOf scope) entry).map (Edge.reference (Entries.keys scope.states)) =
      entry.2.references := by
  obtain ⟨source, hsource⟩ := Entries.mem_keys_iff_get?.mp
    (mem_keys_index.mpr (Entries.mem_keys_of_mem hentry))
  rw [stateEdges, hsource]
  exact map_reference_edgesFrom ((Scope.closed_iff.mp hclosed).2 entry hentry)

theorem get?_of_mem_stateEdges {n : Nat} {places : Entries (Fin n)} {entry : String × State}
    {edge : Edge n} (hedge : edge ∈ stateEdges places entry) :
    Entries.get? places entry.1 = some edge.source := by
  cases hsource : Entries.get? places entry.1 with
  | none => simp [stateEdges, hsource] at hedge
  | some source =>
      rw [stateEdges, hsource, Option.elim_some, edgesFrom, List.mem_filterMap] at hedge
      obtain ⟨ref, -, href⟩ := hedge
      obtain ⟨target, -, rfl⟩ := Option.map_eq_some_iff.mp href
      rfl

/-- The edges that leave the node of a state are those that its own references come to. -/
theorem filter_flatMap_stateEdges (hdistinct : Entries.Distinct scope.states)
    {entry : String × State} (hentry : entry ∈ scope.states)
    {node : Fin (Entries.keys scope.states).length}
    (hnode : Entries.get? (placesOf scope) entry.1 = some node) :
    (scope.states.flatMap (stateEdges (placesOf scope))).filter (fun edge => edge.source = node) =
      stateEdges (placesOf scope) entry := by
  rw [List.filter_flatMap, Entries.flatMap_eq_of_distinct hdistinct hentry, List.filter_eq_self]
  · intro edge hedge
    rw [get?_of_mem_stateEdges hedge, Option.some.injEq] at hnode
    exact decide_eq_true hnode
  · -- Two names at one place would be the same name.
    intro other _ hne
    rw [List.filter_eq_nil_iff]
    intro edge hedge hsource
    rw [decide_eq_true_iff] at hsource
    apply hne
    rw [← get_of_get?_index (get?_of_mem_stateEdges hedge), hsource, get_of_get?_index hnode]

variable {startPlace : Fin (Entries.keys scope.states).length}

theorem length_edges_closedGraph (hclosed : scope.Closed) :
    (closedGraph scope startPlace).edges.length =
      (scope.states.flatMap fun entry => entry.2.references).length := by
  have hrefs : (scope.states.flatMap (stateEdges (placesOf scope))).map
      (Edge.reference (Entries.keys scope.states)) =
        scope.states.flatMap fun entry => entry.2.references := by
    rw [List.map_flatMap]
    exact List.flatMap_congr fun entry hentry => map_reference_stateEdges hclosed hentry
  rw [closedGraph, List.length_reverse, ← hrefs, List.length_map]

theorem successors_closedGraph (hclosed : scope.Closed)
    (hdistinct : Entries.Distinct scope.states) {entry : String × State}
    (hentry : entry ∈ scope.states) :
    (closedGraph scope startPlace).successors entry.1 = entry.2.references.reverse := by
  obtain ⟨node, hnode⟩ := Entries.mem_keys_iff_get?.mp
    (mem_keys_index.mpr (Entries.mem_keys_of_mem hentry))
  have houtgoing : (closedGraph scope startPlace).outgoing node =
      (stateEdges (placesOf scope) entry).reverse := by
    rw [outgoing, List.filter_reverse, filter_flatMap_stateEdges hdistinct hentry hnode]
  rw [successors, hnode]
  simp only
  rw [houtgoing, List.map_reverse, map_reference_stateEdges hclosed hentry]

theorem successors_of_not_mem {name : String} (hname : name ∉ Entries.keys scope.states) :
    (closedGraph scope startPlace).successors name = [] := by
  have hnone : Entries.get? (closedGraph scope startPlace).places name = none :=
    Entries.get?_eq_none.mpr fun hmem => hname (mem_keys_index.mp hmem)
  rw [successors, hnone]

end Scopes

/-- A scope has a graph exactly if it is closed.  The graph starts where the scope does, has a node
for each state and an edge for each reference, and leads from a state to what the state refers to,
from the last reference to the first. -/
theorem ofScope_faithful (scope : Scope) (hdistinct : Entries.Distinct scope.states) :
    ((∃ g, ofScope scope = .ok g) ↔
      scope.startAt ∈ Entries.keys scope.states ∧
        ∀ entry ∈ scope.states, ∀ ref ∈ entry.2.references,
          ref.target ∈ Entries.keys scope.states) ∧
    ∀ g, ofScope scope = .ok g →
      g.start = scope.startAt ∧
      g.nodes = Entries.keys scope.states ∧
      g.edges.length = (scope.states.flatMap fun entry => entry.2.references).length ∧
      (∀ entry ∈ scope.states, g.successors entry.1 = entry.2.references.reverse) ∧
      ∀ name, name ∉ Entries.keys scope.states → g.successors name = [] := by
  rw [← Scope.closed_iff]
  constructor
  · constructor
    · rintro ⟨g, hg⟩
      exact (ofScope_eq_ok hg).1
    · intro hclosed
      obtain ⟨startPlace, -, hok⟩ := ofScope_of_closed hclosed
      exact ⟨_, hok⟩
  · intro g hg
    obtain ⟨hclosed, startPlace, hstart, rfl⟩ := ofScope_eq_ok hg
    refine ⟨get_of_get?_index hstart, rfl, length_edges_closedGraph hclosed, ?_, ?_⟩
    · intro entry hentry
      exact successors_closedGraph hclosed hdistinct hentry
    · intro name hname
      exact successors_of_not_mem hname

def retriedWork : Scope where
  path := "/States"
  startAt := "Work"
  states :=
    [("Work", .task
        { resource := "arn:work"
          recovery :=
            { catchers := some
                [{ errorEquals := ["States.Timeout"], next := "Work" },
                  { errorEquals := ["States.ALL"], next := "Done" }] }
          exit := { next := some "Done" } }),
      ("Done", .succeed {})]

theorem ofScope_faithful_retriedWork :
    Entries.Distinct retriedWork.states ∧
      ∃ g, ofScope retriedWork = .ok g ∧ g.start = "Work" ∧ g.edges.length = 3 ∧
        g.successors "Work" =
          [⟨"Done", .catchNext⟩, ⟨"Work", .catchNext⟩, ⟨"Done", .next⟩] ∧
        g.successors "Done" = [] ∧ g.successors "Elsewhere" = [] := by
  have hdistinct : Entries.Distinct retriedWork.states := by
    simp [Entries.Distinct, retriedWork]
  obtain ⟨hexists, hgraph⟩ := ofScope_faithful retriedWork hdistinct
  obtain ⟨g, hg⟩ := hexists.mpr (by decide)
  obtain ⟨hstart, -, hedges, hsuccessors, helsewhere⟩ := hgraph g hg
  refine ⟨hdistinct, g, hg, hstart, hedges, ?_, ?_, ?_⟩
  · exact hsuccessors _ (List.mem_cons_self ..)
  · exact hsuccessors ("Done", .succeed {}) (by simp [retriedWork])
  · exact helsewhere "Elsewhere" (by simp [retriedWork])

end Graph

/-! ## What is reported of a scope -/

namespace Scope

theorem breaches_eq (scope : Scope) : scope.breaches = scope.unresolved := by
  unfold breaches
  by_cases hclosed : scope.Closed
  · obtain ⟨startPlace, -, hok⟩ := Graph.ofScope_of_closed hclosed
    rw [hok, unresolved_eq_nil.mpr hclosed]
  · rw [Graph.ofScope_of_not_closed hclosed]

theorem breaches_eq_nil {scope : Scope} : scope.breaches = [] ↔ scope.Closed := by
  rw [breaches_eq, unresolved_eq_nil]

end Scope

end StateFlow.Playbook
