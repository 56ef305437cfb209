/-!
# Characters of Yaml

The classes of characters that reading and writing go by.
-/

namespace StateFlow.Yaml

def isBlank (c : Char) : Bool := c = ' ' || c = '\t'

def isBreak (c : Char) : Bool :=
  c = '\n' || c = '\r' || c = '\u0085' || c = '\u2028' || c = '\u2029'

/-- Whether a text is over or goes on with a blank or a line break. -/
def atGap : List Char → Bool
  | [] => true
  | c :: _ => isBlank c || isBreak c

def byteOrderMark : Char := '\ufeff'

private def isLetterLike (c : Char) : Bool :=
  (0xA0 ≤ c.toNat && c.toNat ≤ 0xD7FF) || (0xE000 ≤ c.toNat && c.toNat ≤ 0xFFFD)
    || 0x10000 ≤ c.toNat

private def isAsciiGraphic (c : Char) : Bool := 0x20 ≤ c.toNat && c.toNat ≤ 0x7E

def isAllowed (c : Char) : Bool :=
  isAsciiGraphic c || isLetterLike c || c = '\t' || c = '\n' || c = '\r' || c = '\u0085'

def isPrintable (c : Char) : Bool :=
  c = '\n' || isAsciiGraphic c || (isLetterLike c && c ≠ byteOrderMark)

def isNameChar (c : Char) : Bool := c.isAlphanum || c = '_' || c = '-'

def atDocumentMark : List Char → Bool
  | '-' :: '-' :: '-' :: rest => atGap rest
  | '.' :: '.' :: '.' :: rest => atGap rest
  | _ => false

end StateFlow.Yaml
