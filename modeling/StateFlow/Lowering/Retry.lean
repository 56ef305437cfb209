import StateFlow.Playbook.State

/-!
# Default retry rules

A task keeps its own retry rules and gets the default rule behind them, without the error classes
that its own rules cover. A default rule with nothing left to match is not added.
-/

namespace StateFlow.Lowering

open StateFlow.Playbook

def uncovered (own : List Retrier) (fallback : Retrier) : List String :=
  fallback.errorEquals.filter fun error => !(own.flatMap Retrier.errorEquals).contains error

/-- The own rules, and the default rule for the error classes they leave. -/
def withDefault (own : List Retrier) (fallback : Retrier) : List Retrier :=
  match uncovered own fallback with
  | [] => own
  | remaining => own ++ [{ fallback with errorEquals := remaining }]

def mergeRetry (own : Option (List Retrier)) (disabled : Bool) (fallback : Retrier) :
    Option (List Retrier) :=
  let merged := if disabled then own.getD [] else withDefault (own.getD []) fallback
  if own.isNone && merged.isEmpty then none else some merged

end StateFlow.Lowering
