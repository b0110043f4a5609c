import InfraDiagram.Yaml.Token

/-!
# Scalars of YAML text

Plain scalars, quoted scalars and block scalars. A line break inside a plain or a quoted scalar is
folded: it becomes a blank, or, followed by more breaks, just these.

Text that is being gathered is kept with its last character first.
-/

namespace InfraDiagram.Yaml

/-! ## 1. Folding -/

/-- What line breaks and blanks inside a scalar come to. `first` is the first line break, if
    there was one, `more` are those after it, and `blanks` the blanks when there was none; the last
    of them stands first. -/
structure Gap where
  broken : Bool := false
  blanks : List Char := []
  first : List Char := []
  more : List Char := []

/-- The text of a gap: a single line feed is folded into a blank. -/
def Gap.text (g : Gap) : List Char :=
  if g.broken then
    if g.first == ['\n'] then (if g.more.isEmpty then [' '] else g.more.reverse)
    else g.first ++ g.more.reverse
  else g.blanks.reverse

/-- Passes over the blanks and line breaks of a gap. In a plain scalar (`indent` given) a tab may
    not stand in the indentation of a continued line. -/
def scanGap (indent : Option Int) : Nat → Gap → Cursor → Option (Gap × Cursor)
  | 0, g, c => some (g, c)
  | fuel + 1, g, c =>
    match c.rest with
    | [] => some (g, c)
    | d :: _ =>
      if isBlank d then
        let abuses := match indent with
          | some n => g.broken && (c.column : Int) < n && d == '\t'
          | none => false
        if abuses then none
        else
          let g := if g.broken then g else { g with blanks := d :: g.blanks }
          scanGap indent fuel g c.next
      else if isBreak d then
        let g :=
          if g.broken then { g with more := c.breakText ++ g.more }
          else { g with broken := true, blanks := [], first := c.breakText }
        scanGap indent fuel g c.nextLine
      else some (g, c)

/-! ## 2. Plain scalars -/

/-- The marks of flow collections. -/
def isFlowMark (c : Char) : Bool := c == ',' || c == '[' || c == ']' || c == '\x7b' || c == '\x7d'

/-- The characters of a plain scalar up to the next gap or to a mark that ends it. In a flow
    collection a colon may not be followed by a mark. -/
def plainRun (flow : Bool) : List Char → Option (List Char)
  | [] => some []
  | d :: rest =>
    if isBlank d || isBreak d then some []
    else
      let next := rest.headD ' '
      if flow && d == ':' && (isFlowMark next || next == '?') && !rest.isEmpty then none
      else if d == ':' && atGap rest then some []
      else if flow && isFlowMark d then some []
      else (plainRun flow rest).map (d :: ·)

/-- A plain scalar: its text, whether it ended after a line break, and the place after it. `gap`
    is what stands before the place and is only kept if the scalar goes on. -/
def scanPlain (flow : Bool) (indent : Int) :
    Nat → (done : List Char) → Gap → Cursor → Option (List Char × Bool × Cursor)
  | 0, done, gap, c => some (done.reverse, gap.broken, c)
  | fuel + 1, done, gap, c =>
    if (c.column == 0 && isDivider c.rest) || startsWith '#' c.rest then
      some (done.reverse, gap.broken, c)
    else do
      let run ← plainRun flow c.rest
      let c := c.skip run.length
      let (done, gap) :=
        if run.isEmpty then (done, gap) else ((gap.text ++ run).reverse ++ done, {})
      if atBlank c.rest || atBreak c.rest then
        let (gap, c) ← scanGap (some indent) (c.size + 1) gap c
        if !flow && (c.column : Int) < indent then some (done.reverse, gap.broken, c)
        else scanPlain flow indent fuel done gap c
      else some (done.reverse, gap.broken, c)

/-! ## 3. Quoted scalars -/

/-- The value of a hexadecimal digit. -/
def hexDigit? (c : Char) : Option Nat :=
  if c.isDigit then some (c.toNat - 48)
  else if 'a' ≤ c && c ≤ 'f' then some (c.toNat - 87)
  else if 'A' ≤ c && c ≤ 'F' then some (c.toNat - 55)
  else none

/-- The character of a code of `n` hexadecimal digits. -/
def codeChar (n : Nat) (cs : List Char) : Option Char := do
  if (cs.take n).length < n then none
  else
    let digits ← (cs.take n).mapM hexDigit?
    let code := digits.foldl (fun acc d => acc * 16 + d) 0
    if (0xD800 ≤ code && code ≤ 0xDFFF) || 0x10FFFF < code then none else some (Char.ofNat code)

/-- What an escape in double quotes stands for, and how many characters it takes after the
    backslash. -/
def escape? : List Char → Option (Char × Nat)
  | [] => none
  | 'x' :: rest => (codeChar 2 rest).map (·, 3)
  | 'u' :: rest => (codeChar 4 rest).map (·, 5)
  | 'U' :: rest => (codeChar 8 rest).map (·, 9)
  | c :: _ =>
    let table := [('0', '\x00'), ('a', '\x07'), ('b', '\x08'), ('t', '\t'), ('\t', '\t'),
      ('n', '\n'), ('v', '\x0b'), ('f', '\x0c'), ('r', '\r'), ('e', '\x1b'), (' ', ' '),
      ('"', '"'), ('/', '/'), ('\\', '\\'), ('N', Char.ofNat 0x85), ('_', Char.ofNat 0xA0),
      ('L', Char.ofNat 0x2028), ('P', Char.ofNat 0x2029)]
    (table.lookup c).map (·, 1)

/-- The characters of a quoted scalar up to the next gap, to its closing quote, or past a line
    break that a backslash takes away (then the flag is set), put before those of `done`. -/
def quotedRun (single : Bool) : Nat → (done : List Char) → Cursor → Option (List Char × Bool × Cursor)
  | 0, done, c => some (done, false, c)
  | fuel + 1, done, c =>
    match c.rest with
    | [] => some (done, false, c)
    | d :: rest =>
      if isBlank d || isBreak d then some (done, false, c)
      else if single then
        if d == '\'' then
          if startsWith '\'' rest then quotedRun single fuel ('\'' :: done) (c.skip 2)
          else some (done, false, c)
        else quotedRun single fuel (d :: done) c.next
      else if d == '"' then some (done, false, c)
      else if d == '\\' then
        if atBreak rest then some (done, true, c.next.nextLine)
        else
          match escape? rest with
          | some (ch, n) => quotedRun single fuel (ch :: done) (c.skip (n + 1))
          | none => none
      else quotedRun single fuel (d :: done) c.next

/-- A quoted scalar after its opening quote: its text, and the place after its closing quote. -/
def scanQuoted (single : Bool) : Nat → (done : List Char) → Cursor → Option (List Char × Cursor)
  | 0, _, _ => none
  | fuel + 1, done, c =>
    if (c.column == 0 && isDivider c.rest) || c.rest.isEmpty then none
    else do
      let (done, escaped, c) ← quotedRun single (c.size + 1) done c
      if startsWith (if single then '\'' else '"') c.rest then some (done.reverse, c.next)
      else
        let (gap, c) ← scanGap none (c.size + 1) { broken := escaped } c
        scanQuoted single fuel (gap.text.reverse ++ done) c

/-! ## 4. Block scalars -/

/-- What becomes of the line breaks at the end of a block scalar. -/
inductive Chomping where
  | strip
  | clip
  | keep
  deriving DecidableEq, Repr

/-- The marks of a block scalar's header: how to chomp, and how far its text is indented. -/
def blockHeader (cs : List Char) : Option (Chomping × Option Nat × List Char) :=
  let sign := fun (cs : List Char) =>
    match cs with
    | '+' :: rest => (Chomping.keep, rest)
    | '-' :: rest => (Chomping.strip, rest)
    | _ => (Chomping.clip, cs)
  let digit := fun (cs : List Char) =>
    match cs with
    | d :: rest =>
      if d == '0' then none
      else if d.isDigit then some (some (d.toNat - 48), rest)
      else some (none, cs)
    | [] => some (none, cs)
  match cs with
  | '+' :: _ | '-' :: _ => do
    let (chomp, rest) := sign cs
    let (n, rest) ← digit rest
    some (chomp, n, rest)
  | _ => do
    let (n, rest) ← digit cs
    match n with
    | some n =>
      let (chomp, rest) := sign rest
      some (chomp, some n, rest)
    | none => some (.clip, none, rest)

/-- Passes over empty lines and the indentation of the first line that is not empty. `indent` is
    zero as long as it is not known. The result has the line breaks and the widest column seen. -/
def scanBlockBreaks (indent : Nat) :
    Nat → (breaks : List Char) → (widest : Nat) → Cursor → Option (List Char × Nat × Cursor)
  | 0, breaks, widest, c => some (breaks.reverse, widest, c)
  | fuel + 1, breaks, widest, c =>
    let spaces := c.rest.takeWhile fun d => d == ' '
    let room := if indent == 0 then spaces.length else min spaces.length (indent - c.column)
    let c := c.skip room
    let widest := max widest c.column
    if (indent == 0 || c.column < indent) && startsWith '\t' c.rest then none
    else if atBreak c.rest then
      scanBlockBreaks indent fuel (c.breakText ++ breaks) widest c.nextLine
    else some (breaks.reverse, widest, c)

/-- The lines of a block scalar. `leading` is the line break before the current line and
    `trailing` are the empty lines after it; `blankLine` says that the line before started with a
    blank, in which case nothing is folded. -/
def scanBlockLines (literal : Bool) (indent : Nat) :
    Nat → (done leading trailing : List Char) → (blankLine : Bool) → Cursor →
      Option (List Char × List Char × List Char × Cursor)
  | 0, done, leading, trailing, _, c => some (done.reverse, leading, trailing, c)
  | fuel + 1, done, leading, trailing, blankLine, c =>
    if c.column == indent && !c.rest.isEmpty then do
      let blank := atBlank c.rest
      let join :=
        if !literal && leading == ['\n'] && !blankLine && !blank then
          (if trailing.isEmpty then [' '] else [])
        else leading
      let (line, c) := c.takeLine
      let leading := c.breakText
      let (trailing', _, c) ← scanBlockBreaks indent (c.size + 1) [] 0 c.nextLine
      scanBlockLines literal indent fuel ((join ++ trailing ++ line).reverse ++ done) leading
        trailing' blank c
    else some (done.reverse, leading, trailing, c)

/-- A block scalar after its `|` or `>`, inside a block indented by `parent`. -/
def scanBlock (literal : Bool) (parent : Int) (c : Cursor) : Option (List Char × Cursor) := do
  let (chomp, explicit, rest) ← blockHeader c.rest
  let c := c.skip (c.rest.length - rest.length)
  let c := c.skip (c.rest.takeWhile isBlank).length
  let c := if startsWith '#' c.rest then c.takeLine.2 else c
  if !atBreakOrEnd c.rest then none
  else
    let c := c.nextLine
    let given : Nat := match explicit with
      | some n => if 0 ≤ parent then parent.toNat + n else n
      | none => 0
    let (trailing, widest, c) ← scanBlockBreaks given (c.size + 1) [] 0 c
    let indent :=
      if given == 0 then max (max widest (parent + 1).toNat) 1 else given
    let (done, leading, trailing, c) ←
      scanBlockLines literal indent (c.size + 1) [] [] trailing false c
    let tail := match chomp with
      | .strip => []
      | .clip => leading
      | .keep => leading ++ trailing
    some (done ++ tail, c)

end InfraDiagram.Yaml
