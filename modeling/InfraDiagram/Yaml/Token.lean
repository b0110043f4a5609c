import InfraDiagram.Text.Size

/-!
# Tokens of YAML text

A document is first cut into tokens. The tokens of block structure (`blockSeqStart`,
`blockMapStart`, `blockEnd`, `key`) stand for indentation: they have no character of their own.
There are none for directives and tags, which are not read. This file fixes the tokens, the classes
of characters and the place in the text (`Cursor`).
-/

namespace InfraDiagram.Yaml

/-! ## 1. Tokens -/

/-- A token. A scalar is `plain` when it is written without quotes and not as a block. -/
inductive Token where
  | documentStart
  | documentEnd
  | blockSeqStart
  | blockMapStart
  | blockEnd
  | flowSeqStart
  | flowSeqEnd
  | flowMapStart
  | flowMapEnd
  | blockEntry
  | flowEntry
  | key
  | value
  | alias (name : String)
  | anchor (name : String)
  | scalar (plain : Bool) (text : String)
  deriving DecidableEq, Repr

/-! ## 2. Characters -/

/-- Line breaks. -/
def isBreak (c : Char) : Bool :=
  c == '\n' || c == '\r' || c.toNat == 0x85 || c.toNat == 0x2028 || c.toNat == 0x2029

/-- The blank and the tab. -/
def isBlank (c : Char) : Bool := c == ' ' || c == '\t'

/-- Whether a text starts with a line break. -/
def atBreak : List Char → Bool
  | c :: _ => isBreak c
  | [] => false

/-- Whether a text starts with a blank. -/
def atBlank : List Char → Bool
  | c :: _ => isBlank c
  | [] => false

/-- Whether a text has ended, or starts with a line break. -/
def atBreakOrEnd : List Char → Bool
  | c :: _ => isBreak c
  | [] => true

/-- Whether a text has ended, or starts with a blank or a line break. -/
def atGap : List Char → Bool
  | c :: _ => isBlank c || isBreak c
  | [] => true

/-- Whether a text starts with a character. -/
def startsWith (c : Char) : List Char → Bool
  | d :: _ => c == d
  | [] => false

/-- The characters a document may hold at all. -/
def isAllowed (c : Char) : Bool :=
  let n := c.toNat
  n == 0x9 || n == 0xA || n == 0xD || (0x20 ≤ n && n ≤ 0x7E) || n == 0x85
    || (0xA0 ≤ n && n ≤ 0xD7FF) || (0xE000 ≤ n && n ≤ 0xFFFD) || 0x10000 ≤ n

/-- The characters of the name of an anchor. -/
def isAnchorChar (c : Char) : Bool := c.isAlphanum || c == '_' || c == '-'

/-- Three equal marks, then a gap: how a line that divides documents starts. -/
def isMarker (mark : Char) : List Char → Bool
  | a :: b :: c :: rest => a == mark && b == mark && c == mark && atGap rest
  | _ => false

/-- A line that divides documents. -/
def isDivider (cs : List Char) : Bool := isMarker '-' cs || isMarker '.' cs

/-! ## 3. Places -/

/-- A place in the text: what is left of it, line, column and number of bytes so far, and the
    number of characters of the whole text, which bounds every walk through it. -/
structure Cursor where
  rest : List Char
  line : Nat := 0
  column : Nat := 0
  index : Nat := 0
  size : Nat := rest.length
  deriving Repr

namespace Cursor

/-- One character further on the same line. -/
def next (c : Cursor) : Cursor :=
  match c.rest with
  | [] => c
  | d :: rest => { c with rest := rest, column := c.column + 1, index := c.index + d.utf8Size }

/-- Some characters further on the same line. -/
def skip (c : Cursor) (n : Nat) : Cursor :=
  { c with
    rest := c.rest.drop n
    column := c.column + n
    index := c.index + Text.byteCount (c.rest.take n) }

/-- Past a line break. A carriage return and the line feed after it are one break. -/
def nextLine (c : Cursor) : Cursor :=
  match c.rest with
  | '\r' :: '\n' :: rest =>
    { c with rest := rest, line := c.line + 1, column := 0, index := c.index + 2 }
  | d :: rest =>
    if isBreak d then
      { c with rest := rest, line := c.line + 1, column := 0, index := c.index + d.utf8Size }
    else c
  | [] => c

/-- The text of the line break at the cursor: a line feed, except for the two separators of lines
    and paragraphs, which stand for themselves. -/
def breakText (c : Cursor) : List Char :=
  match c.rest with
  | d :: _ =>
    if d.toNat == 0x2028 || d.toNat == 0x2029 then [d] else if isBreak d then ['\n'] else []
  | [] => []

/-- The characters up to a line break or the end, and the place after them. -/
def takeLine (c : Cursor) : List Char × Cursor :=
  let line := c.rest.takeWhile fun d => !isBreak d
  (line, c.skip line.length)

end Cursor

end InfraDiagram.Yaml
