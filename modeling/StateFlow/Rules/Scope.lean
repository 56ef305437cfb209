import StateFlow.Playbook.Document

/-!
# Scopes

A scope is the top level of a playbook or a machine inside a state. References never leave their
scope. Scopes are listed depth first, and those of a failure handler's branches come last.
-/

namespace StateFlow.Playbook

/-- The states of one machine, and where they stand in the document. -/
structure Scope where
  path : String
  startAt : String
  states : Entries State

mutual

/-- The scopes of a machine whose states stand at a path: its own, then those inside. -/
def Machine.scopes (path : String) : Machine → List Scope
  | ⟨_, startAt, states, _⟩ => ⟨path, startAt, states⟩ :: nestedScopes path states

def State.scopes (path : String) : State → List Scope
  | .parallel _ branches => branchScopes path 0 branches
  | .map _ iterator => Machine.scopes (path ++ "/Iterator/States") iterator
  | _ => []

def branchScopes (path : String) (n : Nat) : List Machine → List Scope
  | [] => []
  | m :: rest =>
    Machine.scopes (path ++ "/Branches/" ++ toString n ++ "/States") m
      ++ branchScopes path (n + 1) rest

def nestedScopes (path : String) : List (String × State) → List Scope
  | [] => []
  | (name, s) :: rest => State.scopes (path ++ "/" ++ name) s ++ nestedScopes path rest

end

def handlerScopes : Option State → List Scope
  | some (.parallel _ branches) => branchScopes "/Decorators/TaskFailureHandler" 0 branches
  | _ => []

def Document.scopes (d : Document) : List Scope :=
  ⟨"/States", d.startAt, d.states⟩ :: nestedScopes "/States" d.states
    ++ handlerScopes d.failureHandler?

/-- The name of every state, once for each time it is declared. -/
def Document.stateNames (d : Document) : List String :=
  d.scopes.flatMap fun scope => Entries.keys scope.states

def Scope.has (scope : Scope) (name : String) : Bool := Entries.has scope.states name

def Scope.references (scope : Scope) : List (String × Reference) :=
  scope.states.flatMap fun entry => entry.2.references.map fun ref => (entry.1, ref)

def Scope.Closed (scope : Scope) : Prop :=
  scope.has scope.startAt = true ∧ ∀ ref ∈ scope.references, scope.has ref.2.target = true

end StateFlow.Playbook
