import StateFlow.Settings
import StateFlow.Text.Lowercase

/-!
# Merge helpers

Behind every Parallel stands a Task that merges the outputs of its branches and then goes on where
the Parallel would have gone.
-/

namespace StateFlow.Lowering

open StateFlow.Playbook

/-- The catch rule that leads a failed state to the failure handler and keeps the error under the
state's name. -/
def failureCatch (s : Settings) (name : String) : Catcher where
  errorEquals := [s.taskFailedError]
  resultPath := some ("$.errors." ++ name)
  next := s.failure.entry

/-- The name of a Parallel's merge helper, cut to the length that names may have. -/
def mergeHelperName (s : Settings) (name : String) : String :=
  String.ofList ((s.mergeHelperStem ++ Text.lowercase name).toList.take s.maxNameLength)

def mergeHelper (s : Settings) (helper : String) (next : Option String)
    (retryDisabled catches : Bool) : Task where
  resource := s.mergeHelperResource
  recovery :=
    -- The default rule as it is, even where it names no error class.
    { retry := if retryDisabled then none else some [s.defaultRetry]
      catchers := if catches then some [failureCatch s helper] else none }
  exit := { next := next, isEnd := if next.isNone then some true else none }

end StateFlow.Lowering
