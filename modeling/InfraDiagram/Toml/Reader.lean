import InfraDiagram.Toml.Item
import InfraDiagram.Toml.Text

/-!
# Reading TOML

`Toml.read?` gives the entries of a document, or `none` where the text is no TOML, sets a key
twice, or writes a table in pieces that do not go together.
-/

namespace InfraDiagram.Toml

/-! ## 1. Keys -/

/-- A key without dots. -/
def simpleKey? (cs : List Char) : Option (String × List Char) :=
  match cs with
  | '"' :: rest => lineString '"' (rest.length + 1) [] rest
  | '\'' :: rest => lineString '\'' (rest.length + 1) [] rest
  | _ =>
    let name := cs.takeWhile isBareKeyChar
    if name.isEmpty then none else some (String.ofList name, cs.drop name.length)

/-- How many parts a key may have, and how deep values may be nested. -/
def maxDepth : Nat := 79

/-- A dotted key of at most so many parts: the path before its last part, its last part, and what
    follows it. -/
def keyWithin : (parts : Nat) → List Char → Option (List String × String × List Char)
  | 0, _ => none
  | parts + 1, cs => do
    let (k, cs) ← simpleKey? (skipSpace cs)
    let cs := skipSpace cs
    match cs with
    | '.' :: rest => do
      let (path, last, cs) ← keyWithin parts rest
      some (k :: path, last, cs)
    | _ => some ([], k, cs)

/-- A dotted key. -/
def key? (cs : List Char) : Option (List String × String × List Char) := keyWithin maxDepth cs

/-! ## 2. Values -/

/-- The characters of numbers, dates and words. -/
def isWordChar (c : Char) : Bool :=
  c.isAlphanum || c == '+' || c == '-' || c == '_' || c == '.' || c == ':'

/-- Integers have 64 bits, the sign among them. -/
def isLong (i : Int) : Bool := -(Nat.pow 2 63 : Nat) ≤ i && i < (Nat.pow 2 63 : Nat)

/-- A number, a date or a truth value, from the text it starts. A blank may stand between a date
    and a time. -/
def word? (cs : List Char) : Option (Item × List Char) :=
  let word := cs.takeWhile isWordChar
  let rest := cs.drop word.length
  let (word, rest) :=
    match date? word, rest with
    | some [], ' ' :: more =>
      let time := more.takeWhile isWordChar
      if (field? 2 0 99 time).isSome then (word ++ ' ' :: time, more.drop time.length)
      else (word, rest)
    | _, _ => (word, rest)
  if word == ['t', 'r', 'u', 'e'] then some (.bool true, rest)
  else if word == ['f', 'a', 'l', 's', 'e'] then some (.bool false, rest)
  else
    match integer? word with
    | some i => if isLong i then some (.int i, rest) else none
    | none =>
      if isFloat word then
        if isTooLarge word then none else some (.float (String.ofList word), rest)
      else if isDate word then some (.date (String.ofList word), rest)
      else none

/-- Passes over blanks, line breaks and comments. -/
def skipAll : Nat → List Char → List Char
  | 0, cs => cs
  | fuel + 1, cs =>
    let cs := skipComment (skipSpace cs)
    match newline? cs with
    | some rest => skipAll fuel rest
    | none => cs

mutual

/-- A value; arrays and tables may be nested `depth` deep in it. -/
def value : (fuel depth : Nat) → List Char → Option (Item × List Char)
  | 0, _, _ => none
  | fuel + 1, depth, cs =>
    match cs, depth with
    | [], _ => none
    | '[' :: _, 0 => none
    | '\x7b' :: _, 0 => none
    | '[' :: rest, depth + 1 => items fuel depth [] rest
    | '\x7b' :: rest, depth + 1 =>
      match skipSpace rest with
      | '\x7d' :: rest => some (.inline [], rest)
      | rest => entries fuel depth [] rest
    | c :: _, _ =>
      if c == '"' || c == '\'' then (string? cs).map fun (s, cs) => (.str s, cs) else word? cs

/-- The items of an array, up to its bracket. -/
def items : (fuel depth : Nat) → List Item → List Char → Option (Item × List Char)
  | 0, _, _, _ => none
  | fuel + 1, depth, done, cs => do
    let cs := skipAll fuel cs
    match cs with
    | ']' :: rest => some (.array done.reverse, rest)
    | _ => do
      let (v, cs) ← value fuel depth cs
      let cs := skipAll fuel cs
      match cs with
      | ',' :: rest => items fuel depth (v :: done) rest
      | ']' :: rest => some (.array (v :: done).reverse, rest)
      | _ => none

/-- The entries of a table written as a value, up to its brace. -/
def entries : (fuel depth : Nat) → Entries → List Char → Option (Item × List Char)
  | 0, _, _, _ => none
  | fuel + 1, depth, done, cs => do
    let (path, key, cs) ← key? cs
    let cs ← mark? '=' cs
    let (v, cs) ← value fuel depth (skipSpace cs)
    let done ← Entries.set path key v done
    match skipSpace cs with
    | ',' :: rest => entries fuel depth done rest
    | '\x7d' :: rest => some (.inline done, rest)
    | _ => none

end

/-! ## 3. Lines -/

/-- The text after the end of a line, or nothing at the end of the text. -/
def endLine (cs : List Char) : Option (List Char) :=
  let cs := skipComment (skipSpace cs)
  match cs with
  | [] => some []
  | _ => newline? cs

/-- Line by line; `header` is the path of the table that the last header opened. -/
def lines : Nat → (header : List String) → Entries → List Char → Option Entries
  | 0, _, _, _ => none
  | fuel + 1, header, root, cs =>
    match skipSpace cs with
    | [] => some root
    | '[' :: '[' :: rest => do
      let (path, key, cs) ← key? rest
      let cs ← mark? ']' cs
      let cs ← mark? ']' cs
      let cs ← endLine cs
      let root ← Entries.openElement path key root
      lines fuel (path ++ [key]) root cs
    | '[' :: rest => do
      let (path, key, cs) ← key? rest
      let cs ← mark? ']' cs
      let cs ← endLine cs
      let root ← Entries.openTable path key root
      lines fuel (path ++ [key]) root cs
    | cs =>
      match endLine cs with
      | some rest => lines fuel header root rest
      | none => do
        let (path, key, cs) ← key? cs
        let cs ← mark? '=' cs
        let cs := skipSpace cs
        let (v, cs) ← value (2 * cs.length + 2) maxDepth cs
        let cs ← endLine cs
        let root ← Entries.setUnder header path key v root
        lines fuel header root cs

/-- The entries of a document. A byte order mark at its start does not count. -/
def read? (text : String) : Option Entries :=
  let cs := text.toList
  let cs := if cs.head? == some (Char.ofNat 0xFEFF) then cs.drop 1 else cs
  lines (cs.length + 2) [] [] cs

end InfraDiagram.Toml
