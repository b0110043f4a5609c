import InfraDiagram.Yaml.Scalar

/-!
# From YAML text to tokens

Indentation opens and closes blocks. A mapping key without a mark of its own shows only by the
colon after it, so the place where a key may have started is noted (`Key`), and the tokens `key`
and `blockMapStart` are put in there once the colon turns up. Such a key has to stand on one line
and within 1024 bytes.

A scanning step gives `none` where the text is no YAML, and also where it has a directive (`%` at the
start of a line) or a node a tag (`!`): those are YAML, but of a part that is not read here.
-/

namespace InfraDiagram.Yaml

/-! ## 1. The state -/

/-- A place where a key may have started: the number of tokens before it, whether it has to be a
    key (it stands at the indentation of its block), and where it is. -/
structure Key where
  position : Nat
  required : Bool
  line : Nat
  column : Nat
  index : Nat
  deriving Repr

/-- The longest key without a mark of its own, in bytes. -/
def maxKeyLength : Nat := 1024

/-- The state of the scan. `tokens` are those found so far, the last one first, and `count` is their
    number; `keys` has one entry for each level of flow collections and one for the blocks around
    them. -/
structure Scan where
  cursor : Cursor
  tokens : List Token := []
  count : Nat := 0
  indent : Int := -1
  indents : List Int := []
  flow : Nat := 0
  keyAllowed : Bool := true
  keys : List (Option Key) := [none]

namespace Scan

/-- The state with one more token. -/
def push (s : Scan) (t : Token) : Scan := { s with tokens := t :: s.tokens, count := s.count + 1 }

/-- The state with a token put in where `position` tokens stand before it. -/
def insert (s : Scan) (position : Nat) (t : Token) : Scan :=
  let after := s.count - position
  { s with tokens := s.tokens.take after ++ t :: s.tokens.drop after, count := s.count + 1 }

/-- The state some characters further. -/
def skip (s : Scan) (n : Nat) : Scan := { s with cursor := s.cursor.skip n }

/-- Whether the scan is inside a flow collection. -/
def inFlow (s : Scan) : Bool := s.flow != 0

/-! ## 2. Keys -/

/-- Notes that a key may start here. -/
def saveKey (s : Scan) : Option Scan :=
  if s.keyAllowed then
    let required := !s.inFlow && s.indent == (s.cursor.column : Int)
    match s.keys with
    | some k :: rest =>
      if k.required then none
      else some { s with keys := some ⟨s.count, required, s.cursor.line, s.cursor.column,
        s.cursor.index⟩ :: rest }
    | _ => some { s with keys := some ⟨s.count, required, s.cursor.line, s.cursor.column,
        s.cursor.index⟩ :: s.keys.drop 1 }
  else some s

/-- Forgets the key noted at this level; a required key must not be forgotten. -/
def dropKey (s : Scan) : Option Scan :=
  match s.keys with
  | some k :: rest => if k.required then none else some { s with keys := none :: rest }
  | _ => some s

/-- Forgets the keys that have become too long or gone over a line break. -/
def dropStaleKeys (s : Scan) : Option Scan := do
  let keys ← s.keys.mapM fun key =>
    match key with
    | none => some none
    | some k =>
      if k.line < s.cursor.line || k.index + maxKeyLength < s.cursor.index then
        if k.required then none else some none
      else some (some k)
  some { s with keys }

/-! ## 3. Indentation -/

/-- Opens a block at a column further right than the current one, by a token put in at a
    position. -/
def openBlock (s : Scan) (column : Nat) (position : Nat) (t : Token) : Scan :=
  if s.inFlow || (column : Int) ≤ s.indent then s
  else
    let s := s.insert position t
    { s with indents := s.indent :: s.indents, indent := column }

/-- Closes the blocks indented further than a column; the list bounds their number. -/
def closeBlocksOf (column : Int) : List Int → Scan → Scan
  | [], s => s
  | outer :: rest, s =>
    if column < s.indent then
      closeBlocksOf column rest { s.push .blockEnd with indent := outer, indents := rest }
    else s

/-- Closes the blocks indented further than a column. -/
def closeBlocks (s : Scan) (column : Int) : Scan :=
  if s.inFlow then s else closeBlocksOf column s.indents s

/-! ## 4. Gaps between tokens -/

/-- Passes over blanks, comments and line breaks. A tab is only a blank where no key may start. -/
def toNextToken : Nat → Scan → Scan
  | 0, s => s
  | fuel + 1, s =>
    let c := s.cursor
    let c := if c.column == 0 && startsWith (Char.ofNat 0xFEFF) c.rest then c.next else c
    let tabs := s.inFlow || !s.keyAllowed
    let c := c.skip (c.rest.takeWhile fun d => d == ' ' || (tabs && d == '\t')).length
    let c := if startsWith '#' c.rest then c.takeLine.2 else c
    if atBreak c.rest then
      toNextToken fuel { s with cursor := c.nextLine, keyAllowed := s.keyAllowed || !s.inFlow }
    else { s with cursor := c }

/-! ## 5. Single tokens -/

/-- A line that divides documents. -/
def divider (s : Scan) (t : Token) : Option Scan := do
  let s ← (s.closeBlocks (-1)).dropKey
  some (({ s with keyAllowed := false }.skip 3).push t)

/-- The start of a flow collection. -/
def flowStart (s : Scan) (t : Token) : Option Scan := do
  let s ← s.saveKey
  some (({ s with keys := none :: s.keys, flow := s.flow + 1, keyAllowed := true }.skip 1).push t)

/-- The end of a flow collection. -/
def flowEnd (s : Scan) (t : Token) : Option Scan := do
  let s ← s.dropKey
  let s := if s.inFlow then { s with keys := s.keys.drop 1, flow := s.flow - 1 } else s
  some (({ s with keyAllowed := false }.skip 1).push t)

/-- The comma of a flow collection. -/
def flowEntry (s : Scan) : Option Scan := do
  let s ← s.dropKey
  some (({ s with keyAllowed := true }.skip 1).push .flowEntry)

/-- The dash of a block sequence. -/
def blockEntry (s : Scan) : Option Scan := do
  let s ←
    if s.inFlow then some s
    else if s.keyAllowed then
      some (s.openBlock s.cursor.column s.count .blockSeqStart)
    else none
  let s ← s.dropKey
  some (({ s with keyAllowed := true }.skip 1).push .blockEntry)

/-- The mark of a key. -/
def markedKey (s : Scan) : Option Scan := do
  let s ←
    if s.inFlow then some s
    else if s.keyAllowed then
      some (s.openBlock s.cursor.column s.count .blockMapStart)
    else none
  let s ← s.dropKey
  some (({ s with keyAllowed := !s.inFlow }.skip 1).push .key)

/-- The colon before a value, which makes a key of what was noted as one. -/
def colon (s : Scan) : Option Scan :=
  match s.keys with
  | some k :: rest =>
    let s := (s.insert k.position .key).openBlock k.column k.position .blockMapStart
    some (({ s with keys := none :: rest, keyAllowed := false }.skip 1).push .value)
  | _ =>
    if s.inFlow then some (({ s with keyAllowed := false }.skip 1).push .value)
    else if s.keyAllowed then
      let s := s.openBlock s.cursor.column s.count .blockMapStart
      some (({ s with keyAllowed := true }.skip 1).push .value)
    else none

/-- The name of an anchor or an alias, after its mark. -/
def anchorName (cs : List Char) : Option (List Char) :=
  let name := cs.takeWhile isAnchorChar
  let rest := cs.drop name.length
  let ends := atGap rest || ['?', ':', ',', ']', '\x7d', '%', '@', '\x60'].any (startsWith · rest)
  if name.isEmpty || !ends then none else some name

/-- An anchor or an alias. -/
def named (s : Scan) (token : String → Token) : Option Scan := do
  let s ← s.saveKey
  let name ← anchorName (s.cursor.rest.drop 1)
  some (({ s with keyAllowed := false }.skip (name.length + 1)).push (token (String.ofList name)))

/-- A block scalar. -/
def blockScalar (s : Scan) (literal : Bool) : Option Scan := do
  let s ← s.dropKey
  let (text, cursor) ← scanBlock literal s.indent s.cursor.next
  some ({ s with keyAllowed := true, cursor }.push (.scalar false (String.ofList text)))

/-- A quoted scalar. -/
def quotedScalar (s : Scan) (single : Bool) : Option Scan := do
  let s ← s.saveKey
  let c := s.cursor.next
  let (text, cursor) ← scanQuoted single (c.size + 1) [] c
  some ({ s with keyAllowed := false, cursor }.push (.scalar false (String.ofList text)))

/-- A plain scalar. -/
def plainScalar (s : Scan) : Option Scan := do
  let s ← s.saveKey
  let c := s.cursor
  let (text, broken, cursor) ← scanPlain s.inFlow (s.indent + 1) (c.size + 1) [] {} c
  some ({ s with keyAllowed := broken, cursor }.push (.scalar true (String.ofList text)))

/-! ## 6. The whole text -/

/-- Whether a plain scalar may start with a character that something follows. -/
def startsPlain (flow : Bool) (c : Char) (rest : List Char) : Bool :=
  let marks := ['-', '?', ':', ',', '[', ']', '\x7b', '\x7d', '#', '&', '*', '!', '|', '>', '\'',
    '"', '%', '@', '\x60']
  (!isBlank c && !isBreak c && !marks.contains c)
    || (c == '-' && !atBlank rest)
    || (!flow && (c == '?' || c == ':') && !atGap rest)

/-- The token at the cursor, where a token starts. Directives and tags are refused. -/
def token (s : Scan) : Option Scan :=
  match s.cursor.rest with
  | [] => some s
  | c :: rest =>
    if s.cursor.column == 0 && c == '%' then none
    else if s.cursor.column == 0 && isMarker '-' (c :: rest) then s.divider .documentStart
    else if s.cursor.column == 0 && isMarker '.' (c :: rest) then s.divider .documentEnd
    else if c == '[' then s.flowStart .flowSeqStart
    else if c == '\x7b' then s.flowStart .flowMapStart
    else if c == ']' then s.flowEnd .flowSeqEnd
    else if c == '\x7d' then s.flowEnd .flowMapEnd
    else if c == ',' then s.flowEntry
    else if c == '-' && atGap rest then s.blockEntry
    else if c == '?' && (s.inFlow || atGap rest) then s.markedKey
    else if c == ':' && (s.inFlow || atGap rest) then s.colon
    else if c == '*' then s.named .alias
    else if c == '&' then s.named .anchor
    else if c == '|' && !s.inFlow then s.blockScalar true
    else if c == '>' && !s.inFlow then s.blockScalar false
    else if c == '\'' then s.quotedScalar true
    else if c == '"' then s.quotedScalar false
    else if startsPlain s.inFlow c rest then s.plainScalar
    else none

/-- The end of the text closes all blocks. -/
def finish (s : Scan) : Option (List Token) := do
  let s ← (s.closeBlocks (-1)).dropKey
  some s.tokens.reverse

/-- One token after the other; every token takes at least one character. -/
def run : Nat → Scan → Option (List Token)
  | 0, _ => none
  | fuel + 1, s => do
    let s := toNextToken (s.cursor.size + 1) s
    let s ← s.dropStaleKeys
    let s := s.closeBlocks s.cursor.column
    if s.cursor.rest.isEmpty then s.finish
    else
      let s ← s.token
      run fuel s

end Scan

/-- The tokens of a text. -/
def tokens? (text : String) : Option (List Token) :=
  let cs := text.toList
  if cs.all isAllowed then Scan.run (cs.length + 1) { cursor := { rest := cs } } else none

end InfraDiagram.Yaml
