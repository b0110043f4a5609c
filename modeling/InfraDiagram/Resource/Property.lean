import InfraDiagram.Document.Basic
import InfraDiagram.Stack.Error

/-!
# Properties with a type

A node's properties are free-form. Here they are read as what a declaration needs: a text that is
not blank, or a positive number. Absent, null and blank are all the same as not given.
-/

namespace InfraDiagram.Node

/-- A text property, if it is given. -/
def text? (n : Node) (key : String) : Except CompileError (Option String) :=
  match n.property? key with
  | none => .ok none
  | some .null => .ok none
  | some (.str s) => .ok (Text.nonBlank? s)
  | some v => .error (.unsupported n.id (.notText key v))

/-- The value of a positive number of 32 bits. -/
def positiveValue? : Value → Option Nat
  | .int i => if 0 < i ∧ i < UInt32.size then some i.toNat else none
  | _ => none

/-- A positive number property, if it is given. -/
def positive? (n : Node) (key : String) : Except CompileError (Option Nat) :=
  match n.property? key with
  | none => .ok none
  | some .null => .ok none
  | some v =>
    match positiveValue? v with
    | some k => .ok (some k)
    | none => .error (.unsupported n.id (.notPositive key v))

end InfraDiagram.Node
