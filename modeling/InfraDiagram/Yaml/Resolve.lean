import InfraDiagram.Value.Basic
import InfraDiagram.Yaml.Node

/-!
# YAML documents as values

A plain scalar is a null, a truth value or a number if it is written like one, and a text
otherwise; a scalar in quotes or in a block is a text. Numbers: integers in decimal with an
optional sign and without leading zeros, and with `0x`, `0o` or `0b`; doubles with digits, a point
and an exponent. The infinities and the undefined number come out as null, having no other form as
a value. An integer beyond 64 bits is refused (one beyond 128 bits is a double).

A key is the text of its scalar, however it is written.
-/

namespace InfraDiagram.Yaml

/-! ## 1. Integers -/

/-- The value of a digit in a base up to sixteen. -/
def digitIn? (base : Nat) (c : Char) : Option Nat := (hexDigit? c).filter (· < base)

/-- The number of a text of digits, at least one of them. -/
def digits? (base : Nat) (cs : List Char) : Option Nat :=
  if cs.isEmpty then none
  else (cs.mapM (digitIn? base)).map fun ds => ds.foldl (fun n d => n * base + d) 0

/-- Digits that start with a zero they do not need: not a number. -/
def hasLeadingZero (cs : List Char) : Bool :=
  let cs := match cs with
    | '-' :: rest => rest
    | '+' :: rest => rest
    | _ => cs
  match cs with
  | '0' :: d :: rest => (d :: rest).all Char.isDigit
  | _ => false

/-- A number with one of the prefixes of its base, or in decimal. -/
def magnitude? : List Char → Option Nat
  | '0' :: 'x' :: rest => digits? 16 rest
  | '0' :: 'o' :: rest => digits? 8 rest
  | '0' :: 'b' :: rest => digits? 2 rest
  | cs => if hasLeadingZero cs then none else digits? 10 cs

/-- An integer with an optional sign. -/
def integer? : List Char → Option Int
  | '-' :: rest => (magnitude? rest).map fun n => -(n : Int)
  | '+' :: rest => (magnitude? rest).map fun n => (n : Int)
  | cs => (magnitude? cs).map fun n => (n : Int)

/-! ## 2. Doubles -/

/-- A decimal: its sign, its digits, and the power of ten of the last one. -/
structure DecimalText where
  negative : Bool
  digits : Nat
  exponent : Int

/-- Decimal digits as a number. -/
def decimalValue (cs : List Char) : Nat := cs.foldl (fun n c => n * 10 + (c.toNat - 48)) 0

/-- The exponent at the end of a decimal; nothing is the exponent zero. -/
def exponent? : List Char → Option Int
  | [] => some 0
  | e :: rest =>
    if e == 'e' || e == 'E' then
      let (negative, ds) := match rest with
        | '-' :: more => (true, more)
        | '+' :: more => (false, more)
        | _ => (false, rest)
      if ds.isEmpty || !ds.all Char.isDigit then none
      else
        let n : Int := decimalValue ds
        some (if negative then -n else n)
    else none

/-- A decimal: digits with at most one point among them and at least one digit, and an exponent. -/
def decimal? (cs : List Char) : Option DecimalText :=
  let (negative, cs) := match cs with
    | '-' :: rest => (true, rest)
    | '+' :: rest => (false, rest)
    | _ => (false, cs)
  let whole := cs.takeWhile Char.isDigit
  let cs := cs.dropWhile Char.isDigit
  let (frac, cs) := match cs with
    | '.' :: rest => (rest.takeWhile Char.isDigit, rest.dropWhile Char.isDigit)
    | _ => ([], cs)
  if whole.isEmpty && frac.isEmpty then none
  else (exponent? cs).map fun e => ⟨negative, decimalValue (whole ++ frac), e - frac.length⟩

/-- A double, if it is finite. -/
def double? (cs : List Char) : Option Binary64 :=
  let body := match cs with
    | '+' :: rest => rest
    | _ => cs
  if cs.head? == some '+' && (startsWith '+' body || startsWith '-' body) then none
  else (decimal? body).bind fun d => Binary64.ofDecimal? d.negative d.digits d.exponent

/-- The infinities and the undefined number. -/
def notFinite : List String :=
  [".inf", ".Inf", ".INF", "+.inf", "+.Inf", "+.INF", "-.inf", "-.Inf", "-.INF",
    ".nan", ".NaN", ".NAN"]

/-! ## 3. Scalars -/

/-- The ways to write null, besides nothing at all. -/
def nulls : List String := ["null", "Null", "NULL", "~"]

/-- A truth value. -/
def flag? (s : String) : Option Bool :=
  if ["true", "True", "TRUE"].contains s then some true
  else if ["false", "False", "FALSE"].contains s then some false
  else none

/-- What a plain scalar is when it is not an integer. -/
def nonInteger (s : String) : Value :=
  if notFinite.contains s then .null
  else if hasLeadingZero s.toList then .str s
  else
    match double? s.toList with
    | some d => .double d
    | none => .str s

/-- The value of a plain scalar; `none` for an integer beyond 64 bits. -/
def plainValue (s : String) : Option Value :=
  if s.isEmpty || nulls.contains s then some .null
  else
    match flag? s, integer? s.toList with
    | some b, _ => some (.bool b)
    | none, some i =>
      if fitsBits 64 i then some (.int i)
      else if fitsBits 128 i then none
      else some (nonInteger s)
    | none, none => some (nonInteger s)

/-! ## 4. Trees -/

/-- The deepest nesting of sequences and mappings. -/
def maxDepth : Nat := 128

/-- The text of a scalar, however it is written. -/
def Document.text? (d : Document) (n : Node) : Option String :=
  match d.node? n with
  | some (.scalar _ s) => some s
  | _ => none

/-- How many aliases may be followed for each mark of a document. -/
def maxRepetition : Nat := 100

/-- The node itself or, for an alias, the node it stands for. The state is the number of aliases
    that may still be followed. -/
def Document.follow (d : Document) (n : Node) : StateT Nat Option Node := fun jumps =>
  match n, jumps with
  | .alias _, 0 => none
  | .alias _, jumps + 1 => (d.node? n).map (·, jumps)
  | n, jumps => some (n, jumps)

/-- The text of a key. -/
def Document.keyText (d : Document) (n : Node) : StateT Nat Option String := do
  match ← d.follow n with
  | .scalar _ s => pure s
  | _ => failure

/-- The value of a node whose sequences and mappings nest at most `depth` deep. -/
def Document.valueOf (d : Document) : (depth : Nat) → Node → StateT Nat Option Value
  | depth, n => do
    match ← d.follow n, depth with
    | .scalar true s, _ => StateT.lift (plainValue s)
    | .scalar false s, _ => pure (.str s)
    | .seq items, depth + 1 =>
      let values ← items.mapM (d.valueOf depth)
      pure (.arr values)
    | .map entries, depth + 1 =>
      let pairs ← entries.mapM fun e => do
        let k ← d.keyText e.1
        let v ← d.valueOf depth e.2
        pure (k, v)
      pure (.obj (Fields.ofPairs pairs))
    | _, _ => failure

/-- The value of a text. -/
def read? (text : String) : Option Value := do
  let d ← Document.read? text
  (d.valueOf maxDepth d.root).run' (maxRepetition * d.root.size)

end InfraDiagram.Yaml
