import StateFlow.Json.Members

/-!
# Parameter envelopes

The parameters of a task travel in an envelope that names the state and brings the context of the
execution. An interaction is dispatched with its envelope and a token to answer with.
-/

namespace StateFlow.Lowering

open StateFlow.Json

def taskEnvelope (name : String) (parameters : Option Json) : Json := .obj
  [("execution_id.$", .str "$.execution_id"),
    ("artifacts.$", .str "$.artifacts"),
    ("errors.$", .str "$.errors"),
    ("results.$", .str "$.results"),
    ("State_Config", .obj ([("Name", .str name)] ++ optionalEntry "Parameters" id parameters))]

/-- The envelope of an interaction: the function to call, and the envelope of the task for it. -/
def interactionEnvelope (name : String) (parameters : Option Json) (function : String) : Json := .obj
  [("FunctionName", .str function),
    ("Payload", .obj
      [("sfn_context", taskEnvelope name parameters),
        ("task_token.$", .str "$$.Task.Token")])]

end StateFlow.Lowering
