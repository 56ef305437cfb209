import StateFlow.Rules.Breach
import StateFlow.Rules.Scope

/-!
# The graph of a scope

The states of a closed scope are nodes, and every reference is an edge of its own. A node is known
by its place among the states. Edges are added state by state, and the edges of a node are listed
from the newest to the oldest.
-/

namespace StateFlow.Playbook

structure Edge (n : Nat) where
  source : Fin n
  target : Fin n
  transition : Transition

def Edge.reference (nodes : List String) (edge : Edge nodes.length) : Reference :=
  ⟨nodes.get edge.target, edge.transition⟩

structure Graph where
  nodes : List String
  /-- The place of each name. -/
  places : Entries (Fin nodes.length)
  startPlace : Fin nodes.length
  /-- The edges, newest first. -/
  edges : List (Edge nodes.length)

namespace Graph

/-! ## Building -/

def index (names : List String) : Entries (Fin names.length) :=
  (List.finRange names.length).foldl (fun places i => Entries.insert places (names.get i) i) []

/-- What the references of a scope come to: edges, newest first, and breaches by those that lead
nowhere. -/
structure Links (n : Nat) where
  edges : List (Edge n) := []
  breaches : Array Breach := #[]

def addReference {n : Nat} (places : Entries (Fin n)) (path name : String) (source : Fin n)
    (links : Links n) (ref : Reference) : Links n :=
  match Entries.get? places ref.target with
  | some target => { links with edges := ⟨source, target, ref.transition⟩ :: links.edges }
  | none => { links with breaches := links.breaches.push (.dangling path name ref) }

def addState {n : Nat} (places : Entries (Fin n)) (path : String) (links : Links n)
    (entry : String × State) : Links n :=
  match Entries.get? places entry.1 with
  | some source => entry.2.references.foldl (addReference places path entry.1 source) links
  -- Never taken, since every state has a place.
  | none => links

/-- The references of a scope whose states have places. A start that is no state comes first. -/
def links {n : Nat} (places : Entries (Fin n)) (scope : Scope) : Links n :=
  scope.states.foldl (addState places scope.path)
    { breaches :=
        if Entries.has places scope.startAt then #[]
        else #[.unknownStart scope.path scope.startAt] }

/-- The graph of a scope, or the references that keep it from being closed. -/
def ofScope (scope : Scope) : Except (List Breach) Graph :=
  let nodes := Entries.keys scope.states
  let places := index nodes
  let found := links places scope
  match Entries.get? places scope.startAt, found.breaches.toList with
  | some startPlace, [] => .ok { nodes, places, startPlace, edges := found.edges }
  | _, breaches => .error breaches

/-! ## Reading -/

def start (g : Graph) : String := g.nodes.get g.startPlace

/-- The edges that leave a node, newest first. -/
def outgoing (g : Graph) (node : Fin g.nodes.length) : List (Edge g.nodes.length) :=
  g.edges.filter fun edge => edge.source = node

def successors (g : Graph) (name : String) : List Reference :=
  match Entries.get? g.places name with
  | some node => (g.outgoing node).map (Edge.reference g.nodes)
  | none => []

end Graph

end StateFlow.Playbook
