import StateFlow.Definition.Bootstrap
import StateFlow.Definition.Literal
import StateFlow.Playbook.Reader
import StateFlow.Playbook.Writer

/-!
# Definitions

The definition of a state machine is what a playbook compiles to: the lowered states behind the
bootstrap states. Its text is indented by four spaces a level, with literals unwrapped.
-/

namespace StateFlow

open StateFlow.Json StateFlow.Playbook

/-- A compiled playbook. Members of other names come from the playbook. -/
structure Definition where
  extra : Entries Json
  comment : String
  startAt : String
  states : Entries State

namespace Definition

def assemble (s : Settings) (d : Document) (lowered : Entries State) : Definition where
  extra := d.extra
  comment := d.comment
  startAt := s.bootstrap.invocationCheck
  states := Entries.extend (Bootstrap.states s d.startAt) lowered

def toJson (d : Definition) : Json := .obj <|
  d.extra
    ++ [("Comment", .str d.comment), ("StartAt", .str d.startAt),
      ("States", statesToJson d.states)]

def ofJson : Json → Except Mismatch Definition :=
  readRecord "CompiledDocument" fun m => Definition.mk
    <$> pure (others ["Comment", "StartAt", "States"] m)
    <*> Members.required m "Comment" readString
    <*> Members.required m "StartAt" readString
    <*> Members.required m "States" statesOfJson

/-- The text before literals are unwrapped. -/
def prettyChars (d : Definition) : List Char := d.toJson.pretty 4

def text (s : Settings) (d : Definition) : String :=
  String.ofList (Literal.strip s.literalMarker d.prettyChars)

end Definition

end StateFlow
