import StateFlow.Yaml.Token

/-!
# Nodes of Yaml

The tokens of a document form one node: a scalar, a sequence, a mapping or an alias. A node may have
a tag, and an anchor by which aliases refer to it.
-/

namespace StateFlow.Yaml

inductive Node where
  | scalar (tag : Option String) (text : String) (plain : Bool)
  | sequence (tag : Option String) (items : List Node)
  | mapping (tag : Option String) (entries : List (Node × Node))
  | alias (anchor : Nat)

def Node.empty : Node := .scalar none "" true

mutual

/-- The number of scalars and aliases, and twice that of the collections. -/
def Node.size : Node → Nat
  | .scalar _ _ _ => 1
  | .alias _ => 1
  | .sequence _ items => 2 + sizeOfItems items
  | .mapping _ entries => 2 + sizeOfEntries entries

def Node.sizeOfItems : List Node → Nat
  | [] => 0
  | n :: rest => n.size + sizeOfItems rest

def Node.sizeOfEntries : List (Node × Node) → Nat
  | [] => 0
  | (key, value) :: rest => key.size + value.size + sizeOfEntries rest

end

/-- A document: its node, and the nodes with an anchor in the order in which they end up behind
aliases, the latest first. -/
structure Document where
  root : Node
  anchored : List (Nat × Node)

namespace Document

structure State where
  tokens : List Token
  /-- What the handles of tags stand for. -/
  handles : Entries String := []
  /-- The number of each anchor's name. -/
  anchors : Entries Nat := []
  anchored : List (Nat × Node) := []

abbrev Parser := StateT State Option

private def peek? : Parser (Option Token) := do return (← get).tokens.head?

private def drop : Parser Unit := modify fun s => { s with tokens := s.tokens.tail }

private def take (t : Token) : Parser Bool := do
  if (← peek?) = some t then drop; return true else return false

private def expect (t : Token) : Parser Unit := do
  if !(← take t) then failure

private def isNext (tokens : List Token) : Parser Bool := do
  return (← peek?).any fun t => tokens.contains t

private def fullTag (handle suffix : String) : Parser String := do
  if handle.isEmpty then return suffix
  else
    match Entries.get? (← get).handles handle with
    | some stem => return stem ++ suffix
    | none => failure

private def anchor? : Parser (Option String) := do
  match ← peek? with
  | some (.anchor name) => drop; return some name
  | _ => return none

private def tag? : Parser (Option String) := do
  match ← peek? with
  | some (.tag handle suffix) => drop; return some (← fullTag handle suffix)
  | _ => return none

private def properties : Parser (Option String × Option String) := do
  match ← anchor? with
  | some name => return (some name, ← tag?)
  | none =>
    match ← tag? with
    | some tag => return (← anchor?, some tag)
    | none => return (none, none)

/-- Numbers the anchor of a node that begins here. The number is that of the names so far, so a name
that is used again shares its new number with the next new name. -/
private def number (name : String) : Parser Nat := do
  let s ← get
  let n := s.anchors.length
  set { s with anchors := Entries.insert s.anchors name n }
  return n

/-- Reads a node and notes it under its anchor, behind what is anchored inside it. -/
private def anchoring (name : Option String) (read : Parser Node) : Parser Node := do
  match name with
  | none => read
  | some name =>
    let n ← number name
    let before := (← get).anchored
    let node ← read
    modify fun s =>
      let inside := s.anchored.take (s.anchored.length - before.length)
      { s with anchored := inside ++ (n, node) :: before }
    return node

/-- A scalar. The tag that only says that there is none is dropped. -/
private def scalar (tag : Option String) (text : String) (plain : Bool) : Node :=
  .scalar (if tag = some "!" then none else tag) text plain

mutual

/-- Reads a node; `fuel` bounds the work. Blocks may only stand where `block` says so, and a sequence
in the column of its key only where `indentless` does. -/
def node (block indentless : Bool) : (fuel : Nat) → Parser Node
  | 0 => failure
  | fuel + 1 => do
    match ← peek? with
    | some (.alias name) =>
      drop
      match Entries.get? (← get).anchors name with
      | some n => return .alias n
      | none => failure
    | _ =>
      let (name, tag) ← properties
      anchoring name do
        match ← peek? with
        | some (.scalar text plain) => drop; return scalar tag text plain
        | some .flowSequence => drop; return .sequence tag (← flowItems true fuel)
        | some .flowMapping => drop; return .mapping tag (← flowEntries true fuel)
        | some .blockEntry =>
          if indentless then return .sequence tag (← indentlessItems fuel)
          else bare name tag
        | some .blockSequence =>
          if block then drop; return .sequence tag (← blockItems fuel) else bare name tag
        | some .blockMapping =>
          if block then drop; return .mapping tag (← blockEntries fuel) else bare name tag
        | _ => bare name tag
where
  /-- A node of which only the properties are there. -/
  bare (name tag : Option String) : Parser Node := do
    if name.isSome || tag.isSome then return .scalar tag "" true else failure

def nodeUnless (ends : List Token) (block indentless : Bool) : (fuel : Nat) → Parser Node
  | 0 => failure
  | fuel + 1 => do
    if (← isNext ends) then return .empty else node block indentless fuel

def blockItems : (fuel : Nat) → Parser (List Node)
  | 0 => failure
  | fuel + 1 => do
    if (← take .blockEntry) then
      let item ← nodeUnless [.blockEntry, .blockEnd] true false fuel
      return item :: (← blockItems fuel)
    else expect .blockEnd; return []

def indentlessItems : (fuel : Nat) → Parser (List Node)
  | 0 => failure
  | fuel + 1 => do
    if (← take .blockEntry) then
      let item ← nodeUnless [.blockEntry, .key, .value, .blockEnd] true false fuel
      return item :: (← indentlessItems fuel)
    else return []

def blockEntries : (fuel : Nat) → Parser (List (Node × Node))
  | 0 => failure
  | fuel + 1 => do
    if (← take .key) then
      let key ← nodeUnless [.key, .value, .blockEnd] true true fuel
      let value ←
        if (← take .value) then nodeUnless [.key, .value, .blockEnd] true true fuel
        else pure .empty
      return (key, value) :: (← blockEntries fuel)
    else expect .blockEnd; return []

def flowItems (first : Bool) : (fuel : Nat) → Parser (List Node)
  | 0 => failure
  | fuel + 1 => do
    if (← take .flowSequenceEnd) then return []
    if !first then expect .flowEntry
    if (← take .flowSequenceEnd) then return []
    let item ←
      if (← take .key) then flowPair fuel
      else node false false fuel
    return item :: (← flowItems false fuel)

/-- Reads a key with its value that stands as an item of a sequence. Where the key is left out, the
token behind it goes with it. -/
def flowPair : (fuel : Nat) → Parser Node
  | 0 => failure
  | fuel + 1 => do
    let key ←
      if (← isNext [.value, .flowEntry, .flowSequenceEnd]) then drop; pure .empty
      else node false false fuel
    let value ←
      if (← take .value) then nodeUnless [.flowEntry, .flowSequenceEnd] false false fuel
      else pure .empty
    return .mapping none [(key, value)]

def flowEntries (first : Bool) : (fuel : Nat) → Parser (List (Node × Node))
  | 0 => failure
  | fuel + 1 => do
    if (← take .flowMappingEnd) then return []
    if !first then expect .flowEntry
    if (← take .flowMappingEnd) then return []
    let entry ←
      if (← take .key) then do
        let key ← nodeUnless [.value, .flowEntry, .flowMappingEnd] false false fuel
        let value ←
          if (← take .value) then nodeUnless [.flowEntry, .flowMappingEnd] false false fuel
          else pure .empty
        pure (key, value)
      else do
        let key ← node false false fuel
        pure (key, .empty)
    return entry :: (← flowEntries false fuel)

end

def standardHandles : Entries String := [("!", "!"), ("!!", "tag:yaml.org,2002:")]

def directives (seenVersion : Bool) (handles : Entries String) :
    List Token → Option (Entries String × List Token)
  | .version major minor :: rest =>
    if seenVersion || major ≠ 1 || (minor ≠ 1 && minor ≠ 2) then none
    else directives true handles rest
  | .tagDirective handle stem :: rest =>
    if Entries.has handles handle then none
    else directives seenVersion (handles ++ [(handle, stem)]) rest
  | tokens => some (handles, tokens)

private def content (explicit : Bool) (fuel : Nat) : Parser Document := do
  let next ← peek?
  let isEmpty := explicit && next.all fun t => t = .documentStart || t = .documentEnd
  let root ← if isEmpty then pure .empty else node true false fuel
  modify fun s => { s with tokens := s.tokens.dropWhile (· = .documentEnd) }
  if (← peek?).isSome then failure
  return ⟨root, (← get).anchored⟩

def ofTokens? (tokens : List Token) : Option Document := do
  match tokens with
  | [] => return ⟨.empty, []⟩
  | tokens =>
    let (own, rest) ← directives false [] tokens
    let handles := Entries.extend standardHandles own
    let fuel := 2 * tokens.length + 2
    match rest with
    | .documentStart :: rest => (content true fuel).run' { tokens := rest, handles := handles }
    | _ =>
      if rest.length < tokens.length then none
      else (content false fuel).run' { tokens := rest, handles := handles }

end Document

end StateFlow.Yaml
