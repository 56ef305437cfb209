import StateFlow.Finding

/-!
# Compile errors

Why a playbook does not compile, and in which phase that comes out.
-/

namespace StateFlow

inductive Phase where
  | parse | validate | lower | generate
deriving DecidableEq

def Phase.name : Phase → String
  | .parse => "Parse"
  | .validate => "Validate"
  | .lower => "Lower"
  | .generate => "Codegen"

/-- Why a playbook does not compile. -/
inductive CompileError where
  /-- The text of the playbook or of the options cannot be read. -/
  | unreadable (reason : String)
  /-- The playbook has the wrong shape or breaks rules. -/
  | invalid (findings : List Finding)
  /-- The failure handler is of a kind that cannot be one. -/
  | handlerKind (kind : String)
  /-- The result cannot be written. -/
  | unwritable (reason : String)
  /-- The shape of playbooks is itself not well formed. -/
  | malformedShape (reason : String)

namespace CompileError

def phase : CompileError → Phase
  | .unreadable _ => .parse
  | .invalid _ => .validate
  | .handlerKind _ => .lower
  | .unwritable _ => .generate
  | .malformedShape _ => .validate

def code : CompileError → String
  | .unreadable _ => "PARSE_ERROR"
  | .invalid _ => "VALIDATION_ERROR"
  | .handlerKind _ => "CONFIGURATION_ERROR"
  | .unwritable _ => "SERIALIZATION_ERROR"
  | .malformedShape _ => "SCHEMA_BUILD_ERROR"

def message : CompileError → String
  | .unreadable reason => "failed to parse playbook: " ++ reason
  | .invalid findings =>
    "playbook failed validation with " ++ toString findings.length ++ " error(s):\n"
      ++ "\n".intercalate (findings.map fun f => "  - " ++ f.text)
  | .handlerKind kind =>
    "Decorators.TaskFailureHandler configured incorrectly. "
      ++ "Must be a Task or Parallel state, found '" ++ kind ++ "'"
  | .unwritable reason => "failed to serialize compiled playbook: " ++ reason
  | .malformedShape reason => "playbook schema could not be built: " ++ reason

def findings : CompileError → List Finding
  | .invalid findings => findings
  | _ => []

end CompileError

end StateFlow
