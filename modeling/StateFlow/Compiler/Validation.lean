import StateFlow.Playbook.Reader
import StateFlow.Playbook.Shape
import StateFlow.Rules.Basic

/-!
# Validation

A playbook is checked in two steps, and the second is only taken if the first finds nothing: its
shape, and then the rules between its states. A single state is checked against the shape of its
kind.
-/

namespace StateFlow.Playbook

open StateFlow.Json

def findingOfViolation (v : Schema.Violation) : Finding :=
  ⟨.shape, v.cause.message, some (pointer v.path)⟩

def shapeFindings (s : Settings) (v : Json) : List Finding :=
  (Shape.checkPlaybook s.literalMarker v).map findingOfViolation

def ruleFindings (s : Settings) (d : Document) : List Finding :=
  (breaches s d).map Breach.toFinding

/-- The finding about a playbook whose members are not what a document needs. -/
def mismatchFinding (m : Mismatch) : Finding :=
  ⟨.shape, "Playbook does not match its schema: " ++ m.message, none⟩

/-- The document of a valid playbook, or everything that is wrong with it. -/
def checkDocument (s : Settings) (v : Json) : Except (List Finding) Document :=
  if v.kind ≠ .object then
    .error [⟨.type, "Provided playbook is of incorrect type. Expected 'object'", none⟩]
  else
    match shapeFindings s v with
    | [] =>
      match Document.ofJson v with
      | .error m => .error [mismatchFinding m]
      | .ok d =>
        match ruleFindings s d with
        | [] => .ok d
        | findings => .error findings
    | findings => .error findings

def checkPlaybook (s : Settings) (v : Json) : List Finding :=
  match checkDocument s v with
  | .ok _ => []
  | .error findings => findings

def checkState (s : Settings) (v : Json) : List Finding :=
  if v.kind ≠ .object then
    [⟨.type, "Provided input is of incorrect type. Expected 'object', received " ++ v.kind.name,
      none⟩]
  else
    let name := ((v.get? "Type").bind asString?).getD ""
    match Kind.ofName? name with
    | some kind => (Shape.checkState s.literalMarker kind v).map findingOfViolation
    | none =>
      [⟨.shape, "State.Type of " ++ (if name.isEmpty then "<missing>" else name)
          ++ " is not supported. Please ensure the provided input has a Type key"
          ++ " that is a supported Playbook Type", some "/Type"⟩]

end StateFlow.Playbook
