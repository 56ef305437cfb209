import StateFlow.Json.Members
import StateFlow.Options
import StateFlow.Settings
import StateFlow.Yaml.Writer

/-!
# Deployment manifests

A manifest deploys definitions: a resource for each state machine and an output that refers to it.
-/

namespace StateFlow

open StateFlow.Json

/-- What an execution's log is written to, and how much of it. -/
structure LogConfiguration where
  /-- The log groups. -/
  destinations : List String
  includeExecutionData : Bool
  level : String

structure MachineResource where
  type : String
  roleArn : String
  name : String
  definition : String
  logging : Option LogConfiguration := none

structure Output where
  description : String
  reference : String

structure Manifest where
  resources : Entries MachineResource
  outputs : Entries Output

namespace Manifest

def ofDefinition (s : Settings) (options : Options) (name comment definition : String) :
    Manifest where
  resources :=
    [(name,
      { type := "AWS::StepFunctions::StateMachine"
        roleArn := s.executionRoleArn
        name := name
        definition := definition
        logging := if options.logging then some ⟨[s.logGroupArn], false, "ALL"⟩ else none })]
  outputs := [(name, ⟨comment, name⟩)]

/-- The definition in the first resource. -/
def definition? (m : Manifest) : Option String := m.resources.head?.map fun entry => entry.2.definition

/-! ## Writing -/

private def destinationToJson (group : String) : Json :=
  .obj [("CloudWatchLogsLogGroup", .obj [("LogGroupArn", .str group)])]

private def loggingToJson (l : LogConfiguration) : Json := .obj
  [("Destinations", Json.ofList destinationToJson l.destinations),
    ("IncludeExecutionData", .bool l.includeExecutionData), ("Level", .str l.level)]

private def resourceToJson (r : MachineResource) : Json := .obj
  [("Type", .str r.type),
    ("Properties", .obj <|
      [("RoleArn", .str r.roleArn), ("StateMachineName", .str r.name),
        ("DefinitionString", .obj [("Fn::Sub", .str r.definition)])]
        ++ optionalEntry "LoggingConfiguration" loggingToJson r.logging)]

private def outputToJson (o : Output) : Json := .obj
  [("Description", .str o.description), ("Value", .obj [("Ref", .str o.reference)])]

def entries (m : Manifest) : Entries Json :=
  [("Resources", .obj (Entries.mapValues resourceToJson m.resources)),
    ("Outputs", .obj (Entries.mapValues outputToJson m.outputs))]

def toJson (m : Manifest) : Json := .obj m.entries

def jsonText (m : Manifest) : String := m.toJson.prettyText 2

def yamlText (m : Manifest) : String := Yaml.write m.entries

/-! ## Reading -/

private def groupOfJson : Json → Except Mismatch String :=
  readRecord "LogGroup" fun m => Members.required m "LogGroupArn" readString

private def destinationOfJson : Json → Except Mismatch String :=
  readRecord "LogDestination" fun m => Members.required m "CloudWatchLogsLogGroup" groupOfJson

private def loggingOfJson : Json → Except Mismatch LogConfiguration :=
  readRecord "LoggingConfiguration" fun m => LogConfiguration.mk
    <$> Members.required m "Destinations" (readList destinationOfJson)
    <*> Members.required m "IncludeExecutionData" readBool
    <*> Members.required m "Level" readString

private def definitionOfJson : Json → Except Mismatch String :=
  readRecord "DefinitionString" fun m => Members.required m "Fn::Sub" readString

private def propertiesOfJson : Json → Except Mismatch (String → MachineResource) :=
  readRecord "StateMachineProperties" fun m =>
    (fun role name definition logging type => MachineResource.mk type role name definition logging)
    <$> Members.required m "RoleArn" readString
    <*> Members.required m "StateMachineName" readString
    <*> Members.required m "DefinitionString" definitionOfJson
    <*> Members.optional m "LoggingConfiguration" (readOptional loggingOfJson)

private def resourceOfJson : Json → Except Mismatch MachineResource :=
  readRecord "StateMachineResource" fun m => (fun type properties => properties type)
    <$> Members.required m "Type" readString
    <*> Members.required m "Properties" propertiesOfJson

private def referenceOfJson : Json → Except Mismatch String :=
  readRecord "OutputRef" fun m => Members.required m "Ref" readString

private def outputOfJson : Json → Except Mismatch Output :=
  readRecord "OutputEntry" fun m => Output.mk
    <$> Members.required m "Description" readString
    <*> Members.required m "Value" referenceOfJson

def ofJson : Json → Except Mismatch Manifest :=
  readRecord "DeploymentManifest" fun m => Manifest.mk
    <$> Members.required m "Resources" (readEntries resourceOfJson)
    <*> Members.required m "Outputs" (readEntries outputOfJson)

end Manifest

end StateFlow
