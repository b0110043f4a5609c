/-!
# Text inside literals of the stack program

`escape` writes a text so that it can stand in a literal with either kind of quotes: backslash,
quotes and line feed by escapes, and carriage returns not at all.
-/

namespace InfraDiagram.Literal

/-- One character inside a literal. -/
def escapeChar (c : Char) : List Char :=
  if c == '\r' then []
  else if c == '\n' then ['\\', 'n']
  else if c == '\\' then ['\\', '\\']
  else if c == '"' then ['\\', '"']
  else if c == '\'' then ['\\', '\'']
  else [c]

/-- A text inside a literal. -/
def escape (s : String) : String := String.ofList (s.toList.flatMap escapeChar)

end InfraDiagram.Literal
