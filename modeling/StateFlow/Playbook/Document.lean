import StateFlow.Playbook.State

/-!
# Playbook documents

A playbook is a named machine with decorators: a handler for failed tasks, and tasks for which the
default retry rule is switched off.
-/

namespace StateFlow.Playbook

structure DisableDefaultRetry where
  all : Option Bool := none
  tasks : Option (List String) := none
deriving DecidableEq

def DisableDefaultRetry.disables (d : DisableDefaultRetry) (name : String) : Bool :=
  d.all = some true || (d.tasks.getD []).contains name

structure Decorators where
  taskFailureHandler : Option State := none
  disableDefaultRetry : Option DisableDefaultRetry := none

/-- A playbook. Members of other names are carried along. -/
structure Document where
  name : String
  comment : String
  startAt : String
  states : Entries State
  decorators : Option Decorators
  extra : Entries Json

def Document.failureHandler? (d : Document) : Option State :=
  d.decorators.bind Decorators.taskFailureHandler

end StateFlow.Playbook
