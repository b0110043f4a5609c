import InfraDiagram.Text.Unprintable

/-!
# Texts quoted in messages

A message that names a text puts it in double quotes: the quote, the backslash, the line breaks,
the tab and the null character are escaped by a letter, and characters that do not show by their
number in braces.
-/

namespace InfraDiagram.Text

/-- One character of a text quoted in a message. -/
def quotedChar (c : Char) : List Char :=
  if c == '"' then ['\\', '"']
  else if c == '\\' then ['\\', '\\']
  else if c == '\n' then ['\\', 'n']
  else if c == '\r' then ['\\', 'r']
  else if c == '\t' then ['\\', 't']
  else if c == '\x00' then ['\\', '0']
  else if isUnprintable c then ['\\', 'u', '\x7b'] ++ Nat.toDigits 16 c.toNat ++ ['\x7d']
  else [c]

/-- A text as a message quotes it. -/
def quoted (s : String) : String :=
  String.ofList ('"' :: s.toList.flatMap quotedChar ++ ['"'])

end InfraDiagram.Text
