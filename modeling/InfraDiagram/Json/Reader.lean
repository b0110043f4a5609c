import InfraDiagram.Text.Size
import InfraDiagram.Value.Basic

/-!
# Reading JSON text

`Json.read` takes the strict format: no comments, no trailing commas, no raw control characters in
strings, escapes of surrogates only in pairs. Two kinds of failure are told apart, by the first
place where the text cannot go on: it ended too early, or it went on wrongly. Arrays and objects
nest at most 127 deep.

A number is an integer when it is written as one and fits 64 bits (with or without sign); every
other number is a double, and so is `-0`. A double beyond the finite ones is refused.
-/

namespace InfraDiagram.Json

/-! ## 1. Failures -/

/-- Why a text is no JSON document. -/
inductive Fault where
  /-- The text ended inside a value. -/
  | endOfText
  /-- The text goes on with something that does not belong there, `left` characters from its end. -/
  | malformed (left : Nat)
  deriving DecidableEq, Repr

/-- Where a text goes wrong: the text from there on has the given length. -/
def malformedAt (cs : List Char) : Fault := .malformed cs.length

namespace Fault

/-- The number of characters from the place of a fault on. -/
def left : Fault → Nat
  | .endOfText => 0
  | .malformed n => n

/-- The line of a text in which a fault is. -/
def line (f : Fault) (text : String) : Nat :=
  (text.toList.take (text.length - f.left)).count '\n' + 1

/-- The wording of a fault. -/
def message : Fault → String
  | .endOfText => "the text ends too early"
  | .malformed _ => "the text goes on wrongly"

end Fault

/-- The deepest nesting of arrays and objects. -/
def maxDepth : Nat := 127

/-! ## 2. Blanks and fixed words -/

/-- The blanks between tokens. -/
def isSpace (c : Char) : Bool := c == ' ' || c == '\n' || c == '\t' || c == '\r'

/-- The text after the blanks it starts with. -/
def skip (cs : List Char) : List Char := cs.dropWhile isSpace

/-- The rest of a fixed word. -/
def word : List Char → List Char → Except Fault (List Char)
  | [], cs => .ok cs
  | _ :: _, [] => .error .endOfText
  | w :: ws, c :: cs => if c == w then word ws cs else .error (malformedAt (c :: cs))

/-! ## 3. Numbers -/

/-- The value of decimal digits. -/
def digitsValue (ds : List Char) : Nat := ds.foldl (fun n d => 10 * n + (d.toNat - 48)) 0

/-- At least one digit, and the text after the digits. -/
def digits1 (cs : List Char) : Except Fault (List Char × List Char) :=
  match cs with
  | [] => .error .endOfText
  | c :: _ =>
    if c.isDigit then .ok (cs.takeWhile Char.isDigit, cs.dropWhile Char.isDigit)
    else .error (malformedAt cs)

/-- The digits before a point: one zero, or digits that do not start with zero. -/
def integerPart (cs : List Char) : Except Fault (List Char × List Char) :=
  match cs with
  | '0' :: rest =>
    match rest with
    | c :: _ => if c.isDigit then .error (malformedAt rest) else .ok (['0'], rest)
    | [] => .ok (['0'], rest)
  | _ => digits1 cs

/-- The digits after a point, if there is one. -/
def fractionPart (cs : List Char) : Except Fault (Option (List Char) × List Char) :=
  match cs with
  | '.' :: rest => do
    let (ds, rest) ← digits1 rest
    .ok (some ds, rest)
  | _ => .ok (none, cs)

/-- An exponent, if there is one. -/
def exponentPart (cs : List Char) : Except Fault (Option Int × List Char) :=
  match cs with
  | e :: rest =>
    if e == 'e' || e == 'E' then
      let (negative, rest) :=
        match rest with
        | '-' :: more => (true, more)
        | '+' :: more => (false, more)
        | _ => (false, rest)
      do
        let (ds, rest) ← digits1 rest
        let n : Int := digitsValue ds
        .ok (some (if negative then -n else n), rest)
    else .ok (none, cs)
  | [] => .ok (none, cs)

/-- An integer that fits 64 bits with or without sign, or else the double next to the decimal, if
    there is one. The rounding is exact, also next to the greatest double. -/
def numberValue? (negative : Bool) (whole : List Char) (fraction : Option (List Char))
    (exponent : Option Int) : Option Value :=
  let n := digitsValue whole
  let asDouble :=
    let frac := fraction.getD []
    let e := exponent.getD 0 - (frac.length : Int)
    (Binary64.ofDecimal? negative (digitsValue (whole ++ frac)) e).map Value.double
  match fraction, exponent with
  | none, none =>
    if negative then
      if n != 0 && fitsBits 64 (-(n : Int)) then some (.int (-(n : Int))) else asDouble
    else if fitsBits 64 n then some (.int n)
    else asDouble
  | _, _ => asDouble

/-- A number after its sign. -/
def number (negative : Bool) (cs : List Char) : Except Fault (Value × List Char) := do
  let (whole, cs) ← integerPart cs
  let (fraction, cs) ← fractionPart cs
  let (exponent, cs) ← exponentPart cs
  match numberValue? negative whole fraction exponent with
  | some v => .ok (v, cs)
  | none => .error (malformedAt cs)

/-! ## 4. Strings -/

/-- The value of a hexadecimal digit. -/
def hexValue? (c : Char) : Option Nat :=
  if c.isDigit then some (c.toNat - 48)
  else if 'a' ≤ c && c ≤ 'f' then some (c.toNat - 87)
  else if 'A' ≤ c && c ≤ 'F' then some (c.toNat - 55)
  else none

/-- Four hexadecimal digits. A text with fewer than four bytes left has ended too early. -/
def hex4 (cs : List Char) : Except Fault (Nat × List Char) :=
  if Text.byteCount (cs.take 4) < 4 then .error .endOfText
  else
    match cs with
    | a :: b :: c :: d :: rest =>
      match hexValue? a, hexValue? b, hexValue? c, hexValue? d with
      | some a, some b, some c, some d => .ok (((a * 16 + b) * 16 + c) * 16 + d, rest)
      | _, _, _, _ => .error (malformedAt cs)
    | _ => .error (malformedAt cs)

/-- The character of an escape that starts with `u`; two surrogates make one character. -/
def unicodeEscape (cs : List Char) : Except Fault (Char × List Char) := do
  let (n, cs) ← hex4 cs
  if 0xDC00 ≤ n && n ≤ 0xDFFF then .error (malformedAt cs)
  else if 0xD800 ≤ n && n ≤ 0xDBFF then
    match cs with
    | [] => .error .endOfText
    | '\\' :: [] => .error .endOfText
    | '\\' :: 'u' :: rest => do
      let (m, rest) ← hex4 rest
      if 0xDC00 ≤ m && m ≤ 0xDFFF then
        .ok (Char.ofNat (0x10000 + (n - 0xD800) * 0x400 + (m - 0xDC00)), rest)
      else .error (malformedAt rest)
    | _ => .error (malformedAt cs)
  else .ok (Char.ofNat n, cs)

/-- The character after a backslash, for the escapes of one letter. -/
def simpleEscape? (c : Char) : Option Char :=
  if c == '"' then some '"'
  else if c == '\\' then some '\\'
  else if c == '/' then some '/'
  else if c == 'b' then some '\x08'
  else if c == 'f' then some '\x0c'
  else if c == 'n' then some '\n'
  else if c == 'r' then some '\r'
  else if c == 't' then some '\t'
  else none

/-- The characters of a string up to its closing quote, with a bound on their number. -/
def stringBody : (fuel : Nat) → (done : List Char) → List Char → Except Fault (String × List Char)
  | 0, _, _ => .error .endOfText
  | _ + 1, _, [] => .error .endOfText
  | fuel + 1, done, c :: cs =>
    if c == '"' then .ok (String.ofList done.reverse, cs)
    else if c == '\\' then
      match cs with
      | [] => .error .endOfText
      | 'u' :: rest => do
        let (ch, rest) ← unicodeEscape rest
        stringBody fuel (ch :: done) rest
      | e :: rest =>
        match simpleEscape? e with
        | some ch => stringBody fuel (ch :: done) rest
        | none => .error (malformedAt cs)
    else if c.toNat < 0x20 then .error (malformedAt (c :: cs))
    else stringBody fuel (c :: done) cs

/-- A string after its opening quote. -/
def string (fuel : Nat) (cs : List Char) : Except Fault (String × List Char) :=
  stringBody fuel [] cs

/-! ## 5. Values -/

mutual

/-- A value; `depth` more arrays and objects may open. -/
def value : (fuel depth : Nat) → List Char → Except Fault (Value × List Char)
  | 0, _, _ => .error .endOfText
  | fuel + 1, depth, cs =>
    match skip cs with
    | [] => .error .endOfText
    | c :: rest =>
      if c == 'n' then do let rest ← word ['u', 'l', 'l'] rest; .ok (.null, rest)
      else if c == 't' then do let rest ← word ['r', 'u', 'e'] rest; .ok (.bool true, rest)
      else if c == 'f' then do let rest ← word ['a', 'l', 's', 'e'] rest; .ok (.bool false, rest)
      else if c == '-' then number true rest
      else if c.isDigit then number false (c :: rest)
      else if c == '"' then do let (s, rest) ← string fuel rest; .ok (.str s, rest)
      else if c == '[' then
        match depth with
        | 0 => .error (malformedAt rest)
        | depth + 1 => items fuel depth true [] rest
      else if c == '\x7b' then
        match depth with
        | 0 => .error (malformedAt rest)
        | depth + 1 => fields fuel depth true [] rest
      else .error (malformedAt (c :: rest))

/-- The items of an array up to its bracket. -/
def items : (fuel depth : Nat) → (first : Bool) → List Value → List Char → Except Fault (Value × List Char)
  | 0, _, _, _, _ => .error .endOfText
  | fuel + 1, depth, first, done, cs =>
    match skip cs with
    | [] => .error .endOfText
    | ']' :: rest => .ok (.arr done.reverse, rest)
    | c :: rest =>
      if first then do
        let (v, rest) ← value fuel depth (c :: rest)
        items fuel depth false (v :: done) rest
      else if c == ',' then
        match skip rest with
        | [] => .error .endOfText
        | ']' :: rest => .error (malformedAt (']' :: rest))
        | c :: rest => do
          let (v, rest) ← value fuel depth (c :: rest)
          items fuel depth false (v :: done) rest
      else .error (malformedAt (c :: rest))

/-- The fields of an object up to its brace. -/
def fields : (fuel depth : Nat) → (first : Bool) → Fields → List Char → Except Fault (Value × List Char)
  | 0, _, _, _, _ => .error .endOfText
  | fuel + 1, depth, first, done, cs =>
    match skip cs with
    | [] => .error .endOfText
    | '\x7d' :: rest => .ok (.obj done, rest)
    | c :: rest =>
      if first then
        if c == '"' then field fuel depth done rest else .error (malformedAt (c :: rest))
      else if c == ',' then
        match skip rest with
        | [] => .error .endOfText
        | '"' :: rest => field fuel depth done rest
        | rest => .error (malformedAt rest)
      else .error (malformedAt (c :: rest))

/-- A field after the opening quote of its key, and the fields after it. -/
def field : (fuel depth : Nat) → Fields → List Char → Except Fault (Value × List Char)
  | 0, _, _, _ => .error .endOfText
  | fuel + 1, depth, done, cs => do
    let (key, rest) ← string fuel cs
    match skip rest with
    | [] => .error .endOfText
    | ':' :: rest => do
      let (v, rest) ← value fuel depth rest
      fields fuel depth false (Fields.insert key v done) rest
    | rest => .error (malformedAt rest)

end

/-- A whole document whose arrays and objects nest at most `depth` deep. -/
def readWithin (depth : Nat) (text : String) : Except Fault Value := do
  let cs := text.toList
  let (v, rest) ← value (3 * cs.length + 3) depth cs
  match skip rest with
  | [] => .ok v
  | rest => .error (malformedAt rest)

/-- A whole document. -/
def read (text : String) : Except Fault Value := readWithin maxDepth text

end InfraDiagram.Json
