import StateFlow.Json.Writer
import StateFlow.Yaml.Char
import StateFlow.Yaml.Plain

/-!
# Writing Yaml

Values are written in block style, two columns a level; a list stands in the column of the key above
it. A text is written plain if it reads back as itself, as a literal block if it has several lines,
and otherwise in the weaker of the quotes that can hold it.
-/

namespace StateFlow.Yaml

inductive Style where
  | plain | single | double | literal
deriving DecidableEq

private def adjacent (p q : Char → Bool) : List Char → Bool
  | a :: b :: rest => (p a && q b) || adjacent p q (b :: rest)
  | _ => false

private def isSpace (c : Char) : Bool := c = ' '

/-- Whether a text holds what would end a plain scalar behind its first character. -/
private def hasIndicator : List Char → Bool
  | [] => false
  | [c] => c = ':'
  | c :: d :: rest =>
    (c = ':' && atGap (d :: rest)) || (atGap [c] && d = '#') || hasIndicator (d :: rest)

private def hasLeadingIndicator (text : List Char) : Bool :=
  match text with
  | [] => false
  | c :: rest =>
    "#,[]\x7b\x7d&*!|>'\"%@`".toList.contains c || ("-?:".toList.contains c && atGap rest)
      || "---".toList.isPrefixOf text || "...".toList.isPrefixOf text

private def touches (p : Char → Bool) (text : List Char) : Bool :=
  text.head?.any p || text.getLast?.any p

def plainAllowed (text : List Char) : Bool :=
  !text.any isBreak && text.all isPrintable && !touches isSpace text && !hasIndicator text
    && !hasLeadingIndicator text

def singleAllowed (text : List Char) : Bool :=
  text.all isPrintable && !adjacent isSpace isBreak text && !adjacent isBreak isSpace text

def literalAllowed (text : List Char) : Bool :=
  text.all isPrintable && !adjacent isSpace isBreak text && !text.getLast?.any isSpace

/-- Whether a plain scalar would read as something else than the text. -/
def isAmbiguous (text : List Char) : Bool :=
  match Plain.ofText text with
  | .text => isPaddedNumber text
  | _ => true

def Style.of (text : List Char) : Style :=
  if text.contains '\n' then if literalAllowed text then .literal else .double
  else if !isAmbiguous text && plainAllowed text then .plain
  else if singleAllowed text then .single
  else .double

private def hexDigits (width n : Nat) : List Char :=
  let digits := (Nat.toDigits 16 n).map Char.toUpper
  List.replicate (width - digits.length) '0' ++ digits

private def doubleChar (c : Char) : List Char :=
  if c = '"' || c = '\\' then ['\\', c]
  else if isPrintable c && !isBreak c then [c]
  else '\\' ::
    match c.toNat with
    | 0x00 => ['0']
    | 0x07 => ['a']
    | 0x08 => ['b']
    | 0x09 => ['t']
    | 0x0A => ['n']
    | 0x0B => ['v']
    | 0x0C => ['f']
    | 0x0D => ['r']
    | 0x1B => ['e']
    | 0x85 => ['N']
    | 0x2028 => ['L']
    | 0x2029 => ['P']
    | n => if n ≤ 0xFF then 'x' :: hexDigits 2 n else 'u' :: hexDigits 4 n

def spaces (n : Nat) : List Char := List.replicate n ' '

/-- The inside of single quotes; a line begins in column `indent`. -/
private def singleText (indent : Nat) : (broken : Bool) → List Char → List Char
  | broken, [] => if broken then spaces indent else []
  | broken, c :: rest =>
    if isBreak c then c :: singleText indent true rest
    else
      (if broken then spaces indent else []) ++ (if c = '\'' then ['\'', '\''] else [c])
        ++ singleText indent false rest

private def literalText (indent : Nat) : (fresh : Bool) → List Char → List Char
  | _, [] => []
  | fresh, c :: rest =>
    if isBreak c then c :: literalText indent true rest
    else (if fresh then spaces indent else []) ++ c :: literalText indent false rest

private def chomping (text : List Char) : List Char :=
  match text.reverse with
  | last :: rest =>
    if !isBreak last then ['-']
    else if rest.head?.all isBreak then ['+'] else []
  | [] => ['-']

private def literalHeader (text : List Char) : List Char :=
  '|' :: (if text.head?.any fun c => isSpace c || isBreak c then ['2'] else []) ++ chomping text

/-- A text with the end of its line; what it puts on further lines stands in column `indent`. -/
def scalarLine (indent : Nat) (text : List Char) : List Char :=
  match Style.of text with
  | .plain => text ++ ['\n']
  | .single => '\'' :: singleText indent false text ++ ['\'', '\n']
  | .double => '"' :: text.flatMap doubleChar ++ ['"', '\n']
  | .literal =>
    literalHeader text ++ '\n' :: literalText indent true text
      ++ if text.getLast?.any isBreak then [] else ['\n']

def isSimpleKey (key : String) : Bool := key.utf8ByteSize ≤ 128 && !key.toList.any isBreak

mutual

/-- What stands behind a mark in column `indent`; the first entry of a container either goes on
behind the mark or begins a line of its own. -/
def valueText (inline : Bool) (indent : Nat) : Json → List Char
  | .str text => ' ' :: scalarLine (indent + 2) text.toList
  | .arr [] => " []\n".toList
  | .obj [] => " \x7b\x7d\n".toList
  | .arr (v :: rest) =>
    if inline then ' ' :: itemsText (indent + 2) (v :: rest)
    else '\n' :: spaces indent ++ itemsText indent (v :: rest)
  | .obj (m :: rest) =>
    if inline then ' ' :: membersText (indent + 2) (m :: rest)
    else '\n' :: spaces (indent + 2) ++ membersText (indent + 2) (m :: rest)
  | v => ' ' :: v.compact ++ ['\n']

/-- The items of a list in column `indent`; the first has its column already. -/
def itemsText (indent : Nat) : List Json → List Char
  | [] => []
  | v :: rest =>
    '-' :: valueText true indent v
      ++ (if rest.isEmpty then [] else spaces indent) ++ itemsText indent rest

def membersText (indent : Nat) : List (String × Json) → List Char
  | [] => []
  | (key, v) :: rest =>
    (if isSimpleKey key then
      (scalarLine (indent + 2) key.toList).dropLast ++ ':' :: valueText false indent v
    else
      '?' :: ' ' :: scalarLine (indent + 2) key.toList ++ spaces indent
        ++ ':' :: valueText true indent v)
      ++ (if rest.isEmpty then [] else spaces indent) ++ membersText indent rest

end

def write (members : Entries Json) : String := String.ofList (membersText 0 members)

end StateFlow.Yaml
