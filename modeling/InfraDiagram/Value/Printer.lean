import InfraDiagram.Value.Basic

/-!
# The text of a value

Two layouts of one format. `compact` writes a value on one line without blanks; it is what an
error message quotes. `pretty` indents by two blanks a level and is the layout of a report; empty
arrays and objects stay on their line in both.

In strings, the quote and the backslash are escaped, and so are the control characters below
U+0020 (by a letter where there is one, else by four hexadecimal digits); everything else stands
as it is.
-/

namespace InfraDiagram.Value

/-! ## 1. Strings -/

private def hexDigit (n : Nat) : Char := (Nat.toDigits 16 n).getLastD '0'

/-- One character inside a quoted string. -/
def escapeChar (c : Char) : List Char :=
  if c == '"' then ['\\', '"']
  else if c == '\\' then ['\\', '\\']
  else if c == '\n' then ['\\', 'n']
  else if c == '\r' then ['\\', 'r']
  else if c == '\t' then ['\\', 't']
  else if c == '\x08' then ['\\', 'b']
  else if c == '\x0c' then ['\\', 'f']
  else if c.toNat < 0x20 then ['\\', 'u', '0', '0', hexDigit (c.toNat / 16), hexDigit (c.toNat % 16)]
  else [c]

/-- A string in quotes. -/
def quote (s : String) : String :=
  String.ofList ('"' :: s.toList.flatMap escapeChar ++ ['"'])

/-! ## 2. On one line -/

/-- The texts with a separator between neighbours. -/
def joinWith (sep : String) : List String → String
  | [] => ""
  | [s] => s
  | s :: rest => s ++ sep ++ joinWith sep rest

mutual

/-- A value on one line, without blanks. -/
def compact : Value → String
  | .null => "null"
  | .bool true => "true"
  | .bool false => "false"
  | .int i => toString i
  | .double d => d.text
  | .str s => quote s
  | .arr items => "[" ++ joinWith "," (compactItems items) ++ "]"
  | .obj fields => "\x7b" ++ joinWith "," (compactFields fields) ++ "\x7d"

/-- Items, each on one line. -/
def compactItems : List Value → List String
  | [] => []
  | v :: vs => compact v :: compactItems vs

/-- Fields, each on one line. -/
def compactFields : List (String × Value) → List String
  | [] => []
  | (k, v) :: vs => (quote k ++ ":" ++ compact v) :: compactFields vs

end

/-! ## 3. Indented -/

private def margin (level : Nat) : String := String.ofList (List.replicate (2 * level) ' ')

mutual

/-- A value indented by two blanks a level, its first line continuing the current one. -/
def prettyAt (level : Nat) : Value → String
  | .arr [] => "[]"
  | .arr items =>
    "[\n" ++ joinWith ",\n" (prettyItems (level + 1) items) ++ "\n" ++ margin level ++ "]"
  | .obj [] => "\x7b\x7d"
  | .obj fields =>
    "\x7b\n" ++ joinWith ",\n" (prettyFields (level + 1) fields) ++ "\n" ++ margin level ++ "\x7d"
  | .null => compact .null
  | .bool b => compact (.bool b)
  | .int i => compact (.int i)
  | .double d => compact (.double d)
  | .str s => compact (.str s)

/-- Items, each at a level. -/
def prettyItems (level : Nat) : List Value → List String
  | [] => []
  | v :: vs => (margin level ++ prettyAt level v) :: prettyItems level vs

/-- Fields, each at a level. -/
def prettyFields (level : Nat) : List (String × Value) → List String
  | [] => []
  | (k, v) :: vs => (margin level ++ quote k ++ ": " ++ prettyAt level v) :: prettyFields level vs

end

/-- A value indented by two blanks a level. -/
def pretty (v : Value) : String := prettyAt 0 v

end InfraDiagram.Value
