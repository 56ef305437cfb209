import StateFlow.Lowering.MergeHelper
import StateFlow.Rules.Graph

/-!
# Rules between states

Names are unique in the whole document, references stay in their scope, a failure handler's catch
rules lead to states that will be there, and no state has a name that compiling needs.
-/

namespace StateFlow.Playbook

/-! ## Names -/

/-- The names met so far and those met again, each once and in the order in which they came. -/
structure Sightings where
  seen : List String := []
  repeated : List String := []

namespace Sightings

def addName (names : List String) (name : String) : List String :=
  if name ∈ names then names else names ++ [name]

def meet (s : Sightings) (name : String) : Sightings :=
  if name ∈ s.seen then { s with repeated := addName s.repeated name }
  else { s with seen := addName s.seen name }

end Sightings

def repeatedNames (names : List String) : List String :=
  (names.foldl Sightings.meet {}).repeated

/-- One breach for all names that are declared more than once. -/
def duplicateNames (d : Document) : List Breach :=
  match repeatedNames d.stateNames with
  | [] => []
  | names => [.duplicated names]

/-! ## References -/

/-- What keeps a scope from having a graph. -/
def Scope.breaches (scope : Scope) : List Breach :=
  match Graph.ofScope scope with
  | .ok _ => []
  | .error found => found

def danglingReferences (d : Document) : List Breach := d.scopes.flatMap Scope.breaches

def handlerMayReach (s : Settings) (d : Document) (target : String) : Bool :=
  Entries.has d.states target || target = s.failure.handler || target = s.failure.entry
    || target = s.failure.final

def handlerBreaches (s : Settings) (d : Document) : (n : Nat) → List Catcher → List Breach
  | _, [] => []
  | n, c :: rest =>
    (if handlerMayReach s d c.next then [] else [.handlerDangling n c.next])
      ++ handlerBreaches s d (n + 1) rest

def handlerReferences (s : Settings) (d : Document) : List Breach :=
  match d.failureHandler? with
  | some handler => handlerBreaches s d 0 handler.catchers
  | none => []

/-! ## Names that compiling needs -/

def reservedNames (s : Settings) (d : Document) : List Breach :=
  (s.reservedNames.filter fun name => Entries.has d.states name).map .reserved

/-- The breaches by the merge helpers of Parallels; `before` holds the Parallels in front, nearest
first. -/
def helperBreaches (s : Settings) (scope : Scope) :
    (before : List String) → List String → List Breach
  | _, [] => []
  | before, name :: rest =>
    let helper := Lowering.mergeHelperName s name
    (if scope.has helper then [.helperTaken scope.path helper name] else [])
      ++ (before.find? fun other => Lowering.mergeHelperName s other = helper).toList.map
        (fun first => .helperShared scope.path helper first name)
      ++ helperBreaches s scope (name :: before) rest

def Scope.parallels (scope : Scope) : List String :=
  (scope.states.filter fun entry => entry.2.kind = .parallel).map Prod.fst

def mergeHelpers (s : Settings) (d : Document) : List Breach :=
  let handlerHelper := Lowering.mergeHelperName s s.failure.handler
  (d.scopes.flatMap fun scope => helperBreaches s scope [] scope.parallels)
    ++ match d.failureHandler? with
      | some (.parallel _ _) =>
        if Entries.has d.states handlerHelper then [.handlerHelperTaken handlerHelper] else []
      | _ => []

def breaches (s : Settings) (d : Document) : List Breach :=
  duplicateNames d ++ danglingReferences d ++ handlerReferences s d ++ reservedNames s d
    ++ mergeHelpers s d

end StateFlow.Playbook
