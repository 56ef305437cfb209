import StateFlow.Compiler.Error
import StateFlow.Compiler.Validation
import StateFlow.Definition.Basic
import StateFlow.Json.Reader
import StateFlow.Lowering.Basic
import StateFlow.Manifest
import StateFlow.Yaml.Reader

/-!
# Compiling playbooks

A playbook is validated, lowered and put together with its bootstrap states; the definition goes
into the manifest that deploys it.
-/

namespace StateFlow

open StateFlow.Playbook

def readPlaybook (text : String) : Except CompileError Json :=
  (Json.parse text).mapError fun fault =>
    .unreadable ("Failed to parse playbook JSON: " ++ fault.message)

def readYamlPlaybook (text : String) : Except CompileError Json :=
  match Yaml.parse? text with
  | some v => .ok v
  | none => .error (.unreadable "Failed to parse playbook YAML")

def readOptions (text : String) : Except CompileError Options :=
  (Options.parse text).mapError fun fault =>
    .unreadable ("invalid compile options: " ++ fault.message)

structure Compiled where
  definition : Definition
  /-- The text of the definition. -/
  text : String
  manifest : Manifest

def lowerDocument (s : Settings) (d : Document) : Except CompileError (Entries State) :=
  (Lowering.lower s d).mapError fun kind => .handlerKind kind.name

/-- Puts a document and its lowered states together. -/
def assemble (s : Settings) (options : Options) (d : Document) (lowered : Entries State) :
    Compiled :=
  let definition := Definition.assemble s d lowered
  let text := definition.text s
  ⟨definition, text, Manifest.ofDefinition s options d.name d.comment text⟩

def compile (s : Settings) (options : Options) (v : Json) : Except CompileError Compiled := do
  let d ← (checkDocument s v).mapError .invalid
  let lowered ← lowerDocument s d
  return assemble s options d lowered

end StateFlow
