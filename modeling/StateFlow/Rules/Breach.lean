import StateFlow.Finding
import StateFlow.Playbook.State

/-!
# Breaches

How a document can break the rules between its states, what is said about it, and where it is said
to be. The place is put together from names as they stand, without escapes.
-/

namespace StateFlow.Playbook

inductive Breach where
  | duplicated (names : List String)
  | unknownStart (scope : String) (startAt : String)
  | dangling (scope : String) (name : String) (ref : Reference)
  | handlerDangling (index : Nat) (target : String)
  | reserved (name : String)
  | helperTaken (scope : String) (helper name : String)
  | helperShared (scope : String) (helper first second : String)
  | handlerHelperTaken (helper : String)

/-- The path of the machine whose states stand at a path. -/
def parentPath (path : String) : String :=
  let tail := "/States".toList
  if tail.isSuffixOf path.toList then
    String.ofList (path.toList.take (path.toList.length - tail.length))
  else path

def named (name : String) : String := "'" ++ name ++ "'"

namespace Breach

def message : Breach → String
  | .duplicated names =>
    "The following states in the playbook are duplicated: " ++ ", ".intercalate names
  | .unknownStart _ startAt => "StartAt references unknown state " ++ named startAt
  | .dangling _ name ref =>
    "State " ++ named name ++ " " ++ ref.transition.text ++ " references unknown state "
      ++ named ref.target
  | .handlerDangling _ target =>
    "Decorators.TaskFailureHandler Catch[].Next references unknown state " ++ named target
  | .reserved name =>
    "State name " ++ named name ++ " is reserved for states the compiler generates"
  | .helperTaken _ helper name =>
    "State name " ++ named helper ++ " is taken by the merge helper generated for Parallel "
      ++ named name
  | .helperShared _ helper first second =>
    "Parallel states " ++ named first ++ " and " ++ named second
      ++ " both generate the merge helper " ++ named helper
  | .handlerHelperTaken helper =>
    "State name " ++ named helper
      ++ " is taken by the merge helper generated for Decorators.TaskFailureHandler"

def path : Breach → String
  | .duplicated _ => "/States"
  | .unknownStart scope _ => parentPath scope
  | .dangling scope name _ => scope ++ "/" ++ name
  | .handlerDangling index _ => "/Decorators/TaskFailureHandler/Catch/" ++ toString index
  | .reserved name => "/States/" ++ name
  | .helperTaken scope helper _ => scope ++ "/" ++ helper
  | .helperShared scope _ _ second => scope ++ "/" ++ second
  | .handlerHelperTaken helper => "/States/" ++ helper

def toFinding (b : Breach) : Finding := ⟨.rule, b.message, some b.path⟩

end Breach

end StateFlow.Playbook
