import StateFlow.Compiler

/-!
# The service

What a host calls that hands over texts and shows the answers: everything that is wrong comes back
as data, also where the text cannot be read.
-/

namespace StateFlow.Service

open StateFlow.Json

structure Report where
  code : String
  phase : Phase
  message : String
  path : Option String := none

def Report.toJson (r : Report) : Json := .obj <|
  [("code", .str r.code), ("phase", .str r.phase.name), ("message", .str r.message)]
    ++ optionalEntry "path" Json.str r.path

/-- An error as reports: one for each finding that it carries, or one for the error itself. -/
def reports (e : CompileError) : List Report :=
  match e.findings with
  | [] => [⟨e.code, e.phase, e.message, none⟩]
  | findings => findings.map fun f => ⟨f.category.code, e.phase, f.message, f.path⟩

/-- Checks a text; one that cannot be read is a finding too. -/
private def checkText (check : Json → List Finding) (text : String) : List Finding :=
  match readPlaybook text with
  | .ok v => check v
  | .error e => [⟨.type, e.message, none⟩]

def checkPlaybook : String → List Finding := checkText (Playbook.checkPlaybook .production)

def checkState : String → List Finding := checkText (Playbook.checkState .production)

def compile (text options : String) : Except (List Report) Compiled :=
  Except.mapError reports do
    let options ← readOptions options
    let v ← readPlaybook text
    StateFlow.compile .production options v

def answer : Except (List Report) Compiled → Json
  | .ok compiled => .obj
      [("status", .str "success"), ("manifest", compiled.manifest.toJson),
        ("definition", .str compiled.text)]
  | .error reports => .obj
      [("status", .str "errors"), ("errors", Json.ofList Report.toJson reports)]

end StateFlow.Service
