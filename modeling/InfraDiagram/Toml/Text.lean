import InfraDiagram.Binary64.Basic

/-!
# Strings, numbers and dates of TOML

Each reader takes the text from where the thing starts and gives it with the text after it, or
`none`.
-/

namespace InfraDiagram.Toml

/-! ## 1. Characters -/

/-- The blank and the tab. -/
def isSpace (c : Char) : Bool := c == ' ' || c == '\t'

/-- The text after the blanks it starts with. -/
def skipSpace (cs : List Char) : List Char := cs.dropWhile isSpace

/-- The text after a line break, if it starts with one. -/
def newline? : List Char → Option (List Char)
  | '\n' :: rest => some rest
  | '\r' :: '\n' :: rest => some rest
  | _ => none

/-- The characters that may stand in a comment: all but the controls other than the tab. -/
def isText (c : Char) : Bool := c == '\t' || (0x20 ≤ c.toNat && c.toNat != 0x7F)

/-- The text after a comment, if there is one; what follows is a line break or nothing. -/
def skipComment (cs : List Char) : List Char :=
  match cs with
  | '#' :: rest => rest.dropWhile isText
  | _ => cs

/-- The characters of a bare key. -/
def isBareKeyChar (c : Char) : Bool := c.isAlphanum || c == '_' || c == '-'

/-! ## 2. Strings -/

/-- The value of a hexadecimal digit. -/
def hexDigit? (c : Char) : Option Nat :=
  if c.isDigit then some (c.toNat - 48)
  else if 'a' ≤ c && c ≤ 'f' then some (c.toNat - 87)
  else if 'A' ≤ c && c ≤ 'F' then some (c.toNat - 55)
  else none

/-- A character by its number of `n` hexadecimal digits. -/
def codeChar (n : Nat) (cs : List Char) : Option (Char × List Char) :=
  if (cs.take n).length < n then none
  else do
    let digits ← (cs.take n).mapM hexDigit?
    let code := digits.foldl (fun acc d => acc * 16 + d) 0
    if (0xD800 ≤ code && code ≤ 0xDFFF) || 0x10FFFF < code then none
    else some (Char.ofNat code, cs.drop n)

/-- The character of an escape, after its backslash. -/
def escape? : List Char → Option (Char × List Char)
  | 'u' :: rest => codeChar 4 rest
  | 'U' :: rest => codeChar 8 rest
  | c :: rest =>
    let table := [('b', '\x08'), ('t', '\t'), ('n', '\n'), ('f', '\x0c'), ('r', '\r'), ('"', '"'),
      ('\\', '\\')]
    (table.lookup c).map (·, rest)
  | [] => none

/-- A string on one line, after its opening quote. -/
def lineString (quote : Char) : Nat → (done : List Char) → List Char → Option (String × List Char)
  | 0, _, _ => none
  | _ + 1, _, [] => none
  | fuel + 1, done, c :: cs =>
    if c == quote then some (String.ofList done.reverse, cs)
    else if c == '\\' && quote == '"' then do
      let (ch, cs) ← escape? cs
      lineString quote fuel (ch :: done) cs
    else if isText c then lineString quote fuel (c :: done) cs
    else none

/-- The text after the blanks and line breaks that a backslash at the end of a line takes away. -/
def skipLines : Nat → List Char → List Char
  | 0, cs => cs
  | fuel + 1, cs =>
    let cs := skipSpace cs
    match newline? cs with
    | some rest => skipLines fuel rest
    | none => cs

/-- A string over several lines, after its opening quotes. Up to two quotes may stand directly
    before the closing three. -/
def blockString (quote : Char) : Nat → (done : List Char) → List Char → Option (String × List Char)
  | 0, _, _ => none
  | _ + 1, _, [] => none
  | fuel + 1, done, c :: cs =>
    if c == quote then
      let quotes := (c :: cs).takeWhile fun d => d == quote
      if quotes.length < 3 then
        blockString quote fuel (quotes ++ done) ((c :: cs).drop quotes.length)
      else if quotes.length ≤ 5 then
        some (String.ofList (done.reverse ++ quotes.drop 3), (c :: cs).drop quotes.length)
      else none
    else if c == '\\' && quote == '"' then
      match newline? (skipSpace cs) with
      | some rest => blockString quote fuel done (skipLines (rest.length + 1) rest)
      | none => do
        let (ch, cs) ← escape? cs
        blockString quote fuel (ch :: done) cs
    else
      match newline? (c :: cs) with
      | some rest => blockString quote fuel ('\n' :: done) rest
      | none => if isText c then blockString quote fuel (c :: done) cs else none

/-- A string of any kind, from its first quote. -/
def string? : List Char → Option (String × List Char)
  | a :: b :: c :: rest =>
    if (a == '"' || a == '\'') && b == a && c == a then
      let body := (newline? rest).getD rest
      blockString a (body.length + 1) [] body
    else if a == '"' || a == '\'' then lineString a (rest.length + 4) [] (b :: c :: rest)
    else none
  | a :: rest =>
    if a == '"' || a == '\'' then lineString a (rest.length + 2) [] rest else none
  | [] => none

/-! ## 3. Numbers -/

/-- Digits with single underscores between them, as digits only. -/
def ungroup (isDigit : Char → Bool) : List Char → Option (List Char)
  | [] => none
  | [d] => if isDigit d then some [d] else none
  | d :: '_' :: rest => if isDigit d then (ungroup isDigit rest).map (d :: ·) else none
  | d :: rest => if isDigit d then (ungroup isDigit rest).map (d :: ·) else none

/-- Digits in a base as a number. -/
def number (base : Nat) (cs : List Char) : Option Nat :=
  (cs.mapM hexDigit?).map fun ds => ds.foldl (fun n d => n * base + d) 0

/-- The sign of a number, and what follows it. -/
def sign (cs : List Char) : Bool × List Char :=
  match cs with
  | '-' :: rest => (true, rest)
  | '+' :: rest => (false, rest)
  | _ => (false, cs)

/-- Decimal digits without a zero they do not need. -/
def decimalDigits? (cs : List Char) : Option (List Char) := do
  let ds ← ungroup Char.isDigit cs
  match ds with
  | '0' :: _ :: _ => none
  | _ => some ds

/-- An integer, before its range is looked at. -/
def integer? : List Char → Option Int
  | '0' :: 'x' :: rest => do
    let ds ← ungroup (fun c => (hexDigit? c).isSome) rest
    (number 16 ds).map fun n => (n : Int)
  | '0' :: 'o' :: rest => do
    let ds ← ungroup (fun c => '0' ≤ c && c ≤ '7') rest
    (number 8 ds).map fun n => (n : Int)
  | '0' :: 'b' :: rest => do
    let ds ← ungroup (fun c => c == '0' || c == '1') rest
    (number 2 ds).map fun n => (n : Int)
  | cs => do
    let (negative, cs) := sign cs
    let ds ← decimalDigits? cs
    let n ← number 10 ds
    some (if negative then -(n : Int) else n)

/-- The exponent of a number with a point or an exponent. -/
def isExponent (cs : List Char) : Bool :=
  match cs with
  | e :: rest => (e == 'e' || e == 'E') && (ungroup Char.isDigit (sign rest).2).isSome
  | [] => false

/-- Whether a text is a number with a point, an exponent or both, or a special number. -/
def isFloat (cs : List Char) : Bool :=
  let body := (sign cs).2
  if body == ['i', 'n', 'f'] || body == ['n', 'a', 'n'] then true
  else
    let isPart := fun c : Char => c.isDigit || c == '_'
    let whole := body.takeWhile isPart
    let rest := body.dropWhile isPart
    (decimalDigits? whole).isSome &&
      match rest with
      | '.' :: rest =>
        let frac := rest.takeWhile isPart
        let tail := rest.dropWhile isPart
        (ungroup Char.isDigit frac).isSome && (tail.isEmpty || isExponent tail)
      | _ => isExponent rest

/-- The value of decimal digits among which underscores do not count. -/
def digitsValue (cs : List Char) : Nat :=
  (cs.filter Char.isDigit).foldl (fun n c => n * 10 + (c.toNat - 48)) 0

/-- Whether a number with a point or an exponent is above all doubles. -/
def isTooLarge (cs : List Char) : Bool :=
  let (negative, body) := sign cs
  let isPart := fun c : Char => c != 'e' && c != 'E'
  let decimal := body.takeWhile isPart
  let (negativeExponent, exponent) := sign (body.drop (decimal.length + 1))
  let places := ((decimal.dropWhile fun c => c != '.').filter Char.isDigit).length
  let size : Int := digitsValue exponent
  let exponent := (if negativeExponent then -size else size) - places
  !negative && (Binary64.ofDecimal? false (digitsValue decimal) exponent).isNone

/-! ## 4. Dates and times -/

/-- A number of exactly `n` digits within bounds, and what follows it. -/
def field? (n lo hi : Nat) (cs : List Char) : Option (Nat × List Char) :=
  let ds := cs.take n
  if ds.length == n && ds.all Char.isDigit then do
    let v ← number 10 ds
    if lo ≤ v && v ≤ hi then some (v, cs.drop n) else none
  else none

/-- A given character, and what follows it. -/
def mark? (c : Char) : List Char → Option (List Char)
  | d :: rest => if c == d then some rest else none
  | [] => none

/-- The number of days of a month. -/
def daysIn (year month : Nat) : Nat :=
  if month == 2 then
    if (year % 4 == 0 && year % 100 != 0) || year % 400 == 0 then 29 else 28
  else if [4, 6, 9, 11].contains month then 30
  else 31

/-- A date, and what follows it. -/
def date? (cs : List Char) : Option (List Char) := do
  let (year, cs) ← field? 4 0 9999 cs
  let cs ← mark? '-' cs
  let (month, cs) ← field? 2 1 12 cs
  let cs ← mark? '-' cs
  let (_, cs) ← field? 2 1 (daysIn year month) cs
  some cs

/-- A time of day, and what follows it. -/
def time? (cs : List Char) : Option (List Char) := do
  let (_, cs) ← field? 2 0 23 cs
  let cs ← mark? ':' cs
  let (_, cs) ← field? 2 0 59 cs
  let cs ← mark? ':' cs
  let (_, cs) ← field? 2 0 60 cs
  match cs with
  | '.' :: rest =>
    let frac := rest.takeWhile Char.isDigit
    if frac.isEmpty then none else some (rest.drop frac.length)
  | _ => some cs

/-- Whether a text is a distance from universal time. -/
def isOffset (cs : List Char) : Bool :=
  match cs with
  | ['Z'] | ['z'] => true
  | s :: rest =>
    (s == '+' || s == '-') &&
      (do
        let (_, cs) ← field? 2 0 23 rest
        let cs ← mark? ':' cs
        let (_, cs) ← field? 2 0 59 cs
        if cs.isEmpty then some () else none).isSome
  | [] => false

/-- Whether a text is a date, a time, or a date with a time. -/
def isDate (cs : List Char) : Bool :=
  match date? cs with
  | some [] => true
  | some (sep :: rest) =>
    (sep == 'T' || sep == 't' || sep == ' ') &&
      match time? rest with
      | some [] => true
      | some tail => isOffset tail
      | none => false
  | none => time? cs == some []

end InfraDiagram.Toml
