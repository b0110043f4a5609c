import InfraDiagram.Binary64.Shortest

/-!
# Values: the data a diagram or a settings file is made of

A `Value` is what a JSON or YAML document holds once it is read. Integers and doubles are apart,
because they print apart. The fields of an object are kept in the order of their keys (code
points, which is also the order of their UTF-8 bytes), and no key stands twice: `insert` keeps
both, and the last value put in under a key is the one that stays.
-/

namespace InfraDiagram

/-! ## 1. The type -/

/-- A document's data. -/
inductive Value where
  | null
  | bool (b : Bool)
  | int (i : Int)
  | double (d : Binary64)
  | str (s : String)
  | arr (items : List Value)
  | obj (fields : List (String × Value))
  deriving Repr

/-- The fields of an object. -/
abbrev Fields := List (String × Value)

/-- Whether an integer fits so many bits, with or without a sign. -/
def fitsBits (bits : Nat) (i : Int) : Bool :=
  -(Nat.pow 2 (bits - 1) : Nat) ≤ i && i < (Nat.pow 2 bits : Nat)

/-! ## 2. Equality -/

mutual

/-- Whether two values are the same. -/
def Value.same : Value → Value → Bool
  | .null, .null => true
  | .bool a, .bool b => a == b
  | .int a, .int b => a == b
  | .double a, .double b => a == b
  | .str a, .str b => a == b
  | .arr a, .arr b => Value.sameItems a b
  | .obj a, .obj b => Value.sameFields a b
  | _, _ => false

/-- Whether two lists hold the same values. -/
def Value.sameItems : List Value → List Value → Bool
  | [], [] => true
  | a :: as, b :: bs => Value.same a b && Value.sameItems as bs
  | _, _ => false

/-- Whether two lists hold the same fields. -/
def Value.sameFields : List (String × Value) → List (String × Value) → Bool
  | [], [] => true
  | (k, a) :: as, (l, b) :: bs => k == l && Value.same a b && Value.sameFields as bs
  | _, _ => false

end

mutual

theorem Value.same_iff : ∀ a b : Value, Value.same a b = true ↔ a = b
  | .null, b => by cases b <;> simp [Value.same]
  | .bool _, b => by cases b <;> simp [Value.same]
  | .int _, b => by cases b <;> simp [Value.same]
  | .double _, b => by cases b <;> simp [Value.same]
  | .str _, b => by cases b <;> simp [Value.same]
  | .arr xs, b => by
    cases b with
    | arr ys => simp [Value.same, Value.sameItems_iff xs ys]
    | _ => simp [Value.same]
  | .obj xs, b => by
    cases b with
    | obj ys => simp [Value.same, Value.sameFields_iff xs ys]
    | _ => simp [Value.same]

theorem Value.sameItems_iff : ∀ as bs : List Value, Value.sameItems as bs = true ↔ as = bs
  | [], bs => by cases bs <;> simp [Value.sameItems]
  | a :: as, bs => by
    cases bs with
    | nil => simp [Value.sameItems]
    | cons b bs => simp [Value.sameItems, Value.same_iff a b, Value.sameItems_iff as bs]

theorem Value.sameFields_iff :
    ∀ as bs : List (String × Value), Value.sameFields as bs = true ↔ as = bs
  | [], bs => by cases bs <;> simp [Value.sameFields]
  | (k, a) :: as, bs => by
    cases bs with
    | nil => simp [Value.sameFields]
    | cons b bs =>
      obtain ⟨l, b⟩ := b
      simp [Value.sameFields, Value.same_iff a b, Value.sameFields_iff as bs]

end

instance : DecidableEq Value := fun a b => decidable_of_iff _ (Value.same_iff a b)

/-! ## 3. Fields by key -/

namespace Fields

/-- The value under a key. -/
def get? (fields : Fields) (key : String) : Option Value :=
  (fields.find? fun f => f.1 == key).map Prod.snd

/-- Whether a key is present, whatever its value. -/
def has (fields : Fields) (key : String) : Bool := fields.any fun f => f.1 == key

/-- Puts a value under a key, in key order; a value already there gives way. -/
def insert (key : String) (value : Value) : Fields → Fields
  | [] => [(key, value)]
  | (k, v) :: rest =>
    if key < k then (key, value) :: (k, v) :: rest
    else if key == k then (key, value) :: rest
    else (k, v) :: insert key value rest

/-- The fields of a list of pairs: in key order, the last value of a key being the one kept. -/
def ofPairs (pairs : List (String × Value)) : Fields :=
  pairs.foldl (fun fields p => insert p.1 p.2 fields) []

end Fields

/-! ## 4. Depth -/

mutual

/-- How deep arrays and objects are nested in a value. -/
def Value.depth : Value → Nat
  | .arr items => Value.depthItems items + 1
  | .obj fields => Value.depthFields fields + 1
  | _ => 0

/-- The greatest depth among items. -/
def Value.depthItems : List Value → Nat
  | [] => 0
  | v :: vs => max (Value.depth v) (Value.depthItems vs)

/-- The greatest depth among fields. -/
def Value.depthFields : List (String × Value) → Nat
  | [] => 0
  | (_, v) :: vs => max (Value.depth v) (Value.depthFields vs)

end

end InfraDiagram
