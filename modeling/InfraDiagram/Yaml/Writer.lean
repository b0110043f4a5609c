import InfraDiagram.Yaml.Resolve

/-!
# Writing scalars as YAML

A text is written plain where that cannot be taken for anything else, in single quotes where it
could, and in double quotes with escapes where it holds characters that do not stand on one line
or do not show.
-/

namespace InfraDiagram.Yaml

/-! ## 1. Which form a text takes -/

/-- Characters that stand for themselves on a line. -/
def isPrintable (c : Char) : Bool :=
  let n := c.toNat
  (0x20 ≤ n && n ≤ 0x7E) || (0xA0 ≤ n && n ≤ 0xD7FF && n != 0x2028 && n != 0x2029)
    || (0xE000 ≤ n && n ≤ 0xFFFD && n != 0xFEFF) || 0x10000 ≤ n

/-- The marks that a plain scalar may not start with. -/
def startMarks : List Char :=
  ['#', ',', '[', ']', '\x7b', '\x7d', '&', '*', '!', '|', '>', '\'', '"', '%', '@', '\x60']

/-- Whether the first character lets a text be plain. -/
def plainStart : List Char → Bool
  | [] => false
  | c :: rest =>
    !startMarks.contains c && c != ' '
      && !((c == '-' || c == '?' || c == ':') && atGap rest)
      && !(isMarker '-' (c :: rest)) && !(isMarker '.' (c :: rest))

/-- Whether no colon before a gap and no number sign after one stand in a text. -/
def plainInside : List Char → Bool
  | [] => true
  | c :: rest =>
    !(c == ':' && atGap rest) && !(c == ' ' && (startsWith '#' rest || rest.isEmpty))
      && plainInside rest

/-- Words that older readers take for truth values. -/
def oldFlags : List String :=
  ["y", "Y", "yes", "Yes", "YES", "n", "N", "no", "No", "NO", "on", "On", "ON", "off", "Off", "OFF"]

/-- Whether a plain scalar would be read, or could be by some reader, as something else than a
    text. -/
def isAmbiguous (s : String) : Bool :=
  hasLeadingZero s.toList || oldFlags.contains s ||
    match plainValue s with
    | some (.str _) => false
    | _ => true

/-- Whether a text can be written plain. -/
def isPlain (s : String) : Bool :=
  let cs := s.toList
  cs.all isPrintable && plainStart cs && plainInside cs && !isAmbiguous s

/-! ## 2. Quotes -/

/-- A number in hexadecimal, with at least `width` digits. -/
def hexWidth (width n : Nat) : List Char :=
  let ds := Nat.toDigits 16 n
  List.replicate (width - ds.length) '0' ++ ds

/-- One character inside double quotes. -/
def escapeChar (c : Char) : List Char :=
  if c == '"' then ['\\', '"']
  else if c == '\\' then ['\\', '\\']
  else if c == '\n' then ['\\', 'n']
  else if c == '\t' then ['\\', 't']
  else if c == '\r' then ['\\', 'r']
  else if isPrintable c then [c]
  else if c.toNat < 0x100 then ['\\', 'x'] ++ hexWidth 2 c.toNat
  else ['\\', 'u'] ++ hexWidth 4 c.toNat

/-- A text in single quotes, its own ones doubled. -/
def singleQuoted (s : String) : String :=
  String.ofList ('\'' :: s.toList.flatMap (fun c => if c == '\'' then [c, c] else [c]) ++ ['\''])

/-- A text in double quotes. -/
def doubleQuoted (s : String) : String :=
  String.ofList ('"' :: s.toList.flatMap escapeChar ++ ['"'])

/-- A text as a scalar. -/
def writeText (s : String) : String :=
  if isPlain s then s
  else if s.toList.all isPrintable then singleQuoted s
  else doubleQuoted s

end InfraDiagram.Yaml
