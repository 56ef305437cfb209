import StateFlow.Text.Visible

/-!
# Quoted text in messages

A text shown in a message stands in double quotes, and every character that could not be seen there
is written as an escape.
-/

namespace StateFlow.Text

/-- The lower-case hexadecimal digits of a code point, in braces. -/
private def codePoint (c : Char) : List Char :=
  ['\\', 'u', '\x7b'] ++ Nat.toDigits 16 c.toNat ++ ['\x7d']

def quotedChar (c : Char) : List Char :=
  if c = '"' then ['\\', '"']
  else if c = '\\' then ['\\', '\\']
  else if c = '\n' then ['\\', 'n']
  else if c = '\r' then ['\\', 'r']
  else if c = '\t' then ['\\', 't']
  else if c.toNat = 0 then ['\\', '0']
  else if isVisible c then [c]
  else codePoint c

def quoted (text : String) : String :=
  String.ofList ('"' :: text.toList.flatMap quotedChar ++ ['"'])

end StateFlow.Text
