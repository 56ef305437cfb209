import StateFlow.Playbook.State

/-!
# Settings

The names, resources and limits that compiling a playbook takes for granted.
-/

namespace StateFlow

/-- The names of the three states around a failure handler. -/
structure FailureLabels where
  handler : String
  entry : String
  final : String

structure BootstrapLabels where
  invocationCheck : String
  stateSetup : String
  inputFormatter : String

structure Settings where
  /-- The retry rule that every task has besides its own. -/
  defaultRetry : Playbook.Retrier
  /-- The error class of a failed task. -/
  taskFailedError : String
  failure : FailureLabels
  bootstrap : BootstrapLabels
  /-- What a merge helper's name begins with. -/
  mergeHelperStem : String
  mergeHelperResource : String
  /-- The number of characters a state's name may have. -/
  maxNameLength : Nat
  tokenWaitResource : String
  stateSetupResource : String
  executionRoleArn : String
  logGroupArn : String
  /-- What a text is wrapped in that is to stand in the definition without quotes. -/
  literalMarker : String

namespace Settings

/-- The names of all states that compiling may add at the top level, merge helpers apart. -/
def reservedNames (s : Settings) : List String :=
  [s.bootstrap.invocationCheck, s.bootstrap.stateSetup, s.bootstrap.inputFormatter,
    s.failure.handler, s.failure.entry, s.failure.final]

def small (n : Nat) (h : n < 0x10000000000000000 := by decide) : Number :=
  .int n ⟨by omega, by omega⟩

def production : Settings where
  defaultRetry :=
    { errorEquals :=
        ["Lambda.ServiceException", "Lambda.AWSLambdaException", "Lambda.SdkClientException"]
      intervalSeconds := some 2
      maxAttempts := some 6
      backoffRate := some (small 2) }
  taskFailedError := "States.TaskFailed"
  failure := ⟨"_Handle_Task_Failure", "_Task_Failed", "_End_With_Failure"⟩
  bootstrap :=
    ⟨"Was_Playbook_Direct_Executed", "Setup_Socless_Global_State", "PLAYBOOK_FORMATTER"⟩
  mergeHelperStem := "merge_"
  mergeHelperResource := "$\x7b\x7bself:custom.core.MergeParallelOutput\x7d\x7d"
  maxNameLength := 128
  tokenWaitResource := "arn:aws:states:::lambda:invoke.waitForTaskToken"
  stateSetupResource :=
    "arn:aws:lambda:$\x7bAWS::Region\x7d:$\x7bAWS::AccountId\x7d:function:"
      ++ "_socless_setup_global_state_for_direct_invoked_playbook"
  executionRoleArn :=
    "$\x7b\x7bcf:socless-$\x7b\x7bself:provider.stage\x7d\x7d.StatesExecutionRoleArn\x7d\x7d"
  logGroupArn :=
    "$\x7b\x7bcf:socless-$\x7b\x7bself:provider.stage\x7d\x7d.PlaybooksLogGroup\x7d\x7d"
  literalMarker := "apb_render_nonstring_value"

end Settings

end StateFlow
