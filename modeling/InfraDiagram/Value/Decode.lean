import InfraDiagram.Text.Quoted
import InfraDiagram.Value.Printer

/-!
# Decoding values into records

A record is read from an object or, its fields in their order of declaration, from an array.

* From an object: the fields are looked at in key order, and the first one that does not fit is
  the error; fields that are not known are passed over. Only then is the first required field
  that is absent reported, in order of declaration.
* From an array: fields at the end that have a default may be absent, surplus items are refused.

An error is its cause (`DataError`); its wording is `DataError.message`.
-/

namespace InfraDiagram

open Value (joinWith)

/-! ## 1. Errors -/

/-- Why a value does not decode. -/
inductive DataError where
  | wrongType (got : Value) (expected : String)
  | wrongValue (got : Value) (expected : String)
  | wrongLength (length : Nat) (expected : String)
  | unknownVariant (name : String) (variants : List String)
  | missingField (name : String)
  | duplicateField (name : String)
  deriving DecidableEq, Repr

/-- A name between backquotes. -/
def DataError.ticked (s : String) : String := "`" ++ s ++ "`"

/-- A value as a message names it: scalars with their text, containers by their kind. -/
def DataError.describe : Value → String
  | .null => "null"
  | .bool b => "boolean " ++ ticked (Value.compact (.bool b))
  | .int i => "integer " ++ ticked (toString i)
  | .double d => "floating point " ++ ticked d.text
  | .str s => "string " ++ Text.quoted s
  | .arr _ => "sequence"
  | .obj _ => "map"

/-- The names a variant may have. -/
def DataError.choices : List String → String
  | [] => "there are no variants"
  | [a] => ticked a
  | [a, b] => ticked a ++ " or " ++ ticked b
  | names => "one of " ++ joinWith ", " (names.map ticked)

/-- The wording of an error. -/
def DataError.message : DataError → String
  | .wrongType got expected => "invalid type: " ++ describe got ++ ", expected " ++ expected
  | .wrongValue got expected => "invalid value: " ++ describe got ++ ", expected " ++ expected
  | .wrongLength n expected => "invalid length " ++ toString n ++ ", expected " ++ expected
  | .unknownVariant name variants =>
    "unknown variant " ++ ticked name ++ ", expected " ++ choices variants
  | .missingField name => "missing field " ++ ticked name
  | .duplicateField name => "duplicate field " ++ ticked name


namespace Decode

/-! ## 2. Scalars, lists, maps -/

/-- A text. -/
def text : Value → Except DataError String
  | .str s => .ok s
  | v => .error (.wrongType v "a string")

/-- A truth value. -/
def flag : Value → Except DataError Bool
  | .bool b => .ok b
  | v => .error (.wrongType v "a boolean")

/-- A natural number below a bound; `what` names the type in messages. -/
def below (bound : Nat) (what : String) : Value → Except DataError Nat
  | .int i => if 0 ≤ i ∧ i < (bound : Int) then .ok i.toNat else .error (.wrongValue (.int i) what)
  | v => .error (.wrongType v what)

/-- A number of 16 bits. -/
def word16 (v : Value) : Except DataError UInt16 := (below UInt16.size "u16" v).map UInt16.ofNat

/-- A number of 32 bits. -/
def word32 (v : Value) : Except DataError UInt32 := (below UInt32.size "u32" v).map UInt32.ofNat

/-- Every item of a list, in order; the first that fails is the error. -/
def each (decode : Value → Except DataError α) : List Value → Except DataError (List α)
  | [] => .ok []
  | v :: vs => do
    let a ← decode v
    let as ← each decode vs
    .ok (a :: as)

/-- A list. -/
def list (decode : Value → Except DataError α) : Value → Except DataError (List α)
  | .arr items => each decode items
  | v => .error (.wrongType v "a sequence")

/-- The fields of an object, as they are. -/
def map : Value → Except DataError Fields
  | .obj fields => .ok fields
  | v => .error (.wrongType v "a map")

/-- Something, or null for nothing. -/
def option (decode : Value → Except DataError α) : Value → Except DataError (Option α)
  | .null => .ok none
  | v => (decode v).map some

/-- Null and nothing else. -/
def unit : Value → Except DataError Unit
  | .null => .ok ()
  | v => .error (.wrongType v "unit")

/-! ## 3. Variants without content -/

/-- The variant of a name. -/
def named (variants : List (String × α)) (name : String) : Except DataError α :=
  match variants.lookup name with
  | some a => .ok a
  | none => .error (.unknownVariant name (variants.map Prod.fst))

/-- A variant: its name, or an object with its name as the only key and null under it. -/
def variant (variants : List (String × α)) : Value → Except DataError α
  | .str s => named variants s
  | .obj [(k, v)] => do
    let a ← named variants k
    unit v
    .ok a
  | .obj fields => .error (.wrongValue (.obj fields) "map with a single key")
  | v => .error (.wrongType v "string or map")

/-! ## 4. Records from objects -/

/-- Success or failure of a decoding, without its result. -/
def succeeds (r : Except DataError α) : Except DataError Unit := r.map fun _ => ()

/-- Looks at the fields in their order; the first that fails is the error. -/
def inOrder (check : String → Value → Except DataError Unit) : Fields → Except DataError Unit
  | [] => .ok ()
  | (k, v) :: rest => do
    check k v
    inOrder check rest

/-- A field that has to be there. -/
def required (fields : Fields) (name : String) (decode : Value → Except DataError α) :
    Except DataError α :=
  match Fields.get? fields name with
  | some v => decode v
  | none => .error (.missingField name)

/-- A field that may be absent. -/
def optional (fields : Fields) (name : String) (default : α)
    (decode : Value → Except DataError α) : Except DataError α :=
  match Fields.get? fields name with
  | some v => decode v
  | none => .ok default

/-! ## 5. Records from arrays -/

/-- The `k`th item, which has to be there; `expected` is what a message says of the whole. -/
def item (items : List Value) (k : Nat) (expected : String)
    (decode : Value → Except DataError α) : Except DataError α :=
  match items[k]? with
  | some v => decode v
  | none => .error (.wrongLength k expected)

/-- The `k`th item, which may be absent. -/
def itemOr (items : List Value) (k : Nat) (default : α)
    (decode : Value → Except DataError α) : Except DataError α :=
  match items[k]? with
  | some v => decode v
  | none => .ok default

/-- Refuses more than `n` items. -/
def atMost (items : List Value) (n : Nat) : Except DataError Unit :=
  if items.length ≤ n then .ok ()
  else .error (.wrongLength items.length "fewer elements in array")

/-- A record from an object or an array. -/
def record (name : String) (ofFields : Fields → Except DataError α)
    (ofItems : List Value → Except DataError α) : Value → Except DataError α
  | .obj fields => ofFields fields
  | .arr items => ofItems items
  | v => .error (.wrongType v ("struct " ++ name))

end Decode

end InfraDiagram
