import StateFlow.Json.Basic
import StateFlow.Yaml.Node
import StateFlow.Yaml.Plain

/-!
# Reading Yaml

A document is read as a Json value. Aliases are replaced by what they stand for, in bounds: values
nest at most 128 deep, and aliases are followed at most a hundred times as often as the document is
long. The keys of a mapping are texts, whatever they might stand for as values.
-/

namespace StateFlow.Yaml

/-- What reading a document depends on besides the node at hand. -/
structure Anchored where
  nodes : List (Nat × Node)
  /-- How often aliases may be followed. -/
  limit : Nat

/-- Reading counts how often aliases have been followed. -/
abbrev Reading := StateT Nat Option

private def follow (a : Anchored) : Node → Reading Node
  | .alias n => do
    let followed ← getModify (· + 1)
    if followed ≥ a.limit then failure
    match a.nodes.find? fun entry => entry.1 = n with
    | some (_, node) => return node
    | none => failure
  | node => return node

/-- Whether a tag belongs to an application and says nothing here. -/
private def isLocal (tag : Option String) : Bool :=
  tag.any fun text => text.toList.head? = some '!'

private def ofInt? (n : Int) : Option Json := (Number.ofInt? n).map .num

private def ofReal : Real → Json
  | .finite x => .num (.float x)
  | .special => .null

/-- What a scalar stands for by its tag, or else by its text if that has no quotes. -/
def scalarValue? (tag : Option String) (text : String) (plain : Bool) : Option Json :=
  let chars := text.toList
  match tag with
  | some "tag:yaml.org,2002:bool" => (readBool? chars).map .bool
  | some "tag:yaml.org,2002:int" => (readInt? chars).bind ofInt?
  | some "tag:yaml.org,2002:float" => (readReal? chars).map ofReal
  | some "tag:yaml.org,2002:null" => if isNull chars then some .null else none
  | some _ => if isLocal tag then none else some (.str text)
  | none =>
    if plain then
      match Plain.ofText chars with
      | .null => some .null
      | .bool b => some (.bool b)
      | .int n => ofInt? n
      | .real x => some (ofReal x)
      | .text => some (.str text)
    else some (.str text)

private def keyText (a : Anchored) (n : Node) : Reading String := do
  match ← follow a n with
  | .scalar _ text _ => return text
  | _ => failure

/-- The value that a node stands for; `depth` bounds how deep values nest. -/
def nodeValue (a : Anchored) : (depth : Nat) → Node → Reading Json
  | depth, n => do
    match ← follow a n, depth with
    | .scalar tag text plain, _ => StateT.lift (scalarValue? tag text plain)
    | .sequence tag items, depth + 1 =>
      if isLocal tag then failure
      return .arr (← items.mapM (nodeValue a depth))
    | .mapping tag entries, depth + 1 =>
      if isLocal tag then failure
      let members ← entries.mapM fun (key, value) => do
        let key ← keyText a key
        return (key, ← nodeValue a depth value)
      return .obj (Entries.ofPairs members)
    | _, _ => failure

def Document.value? (d : Document) : Option Json :=
  (nodeValue ⟨d.anchored, 100 * d.root.size⟩ 128 d.root).run' 0

def parse? (text : String) : Option Json := do
  if !text.toList.all isAllowed then none
  else
    let tokens ← Token.scan (unifyBreaks text.toList)
    let document ← Document.ofTokens? tokens
    document.value?

end StateFlow.Yaml
