import InfraDiagram.Fragment.Basic
import InfraDiagram.Graph.Problem
import InfraDiagram.Value.Printer

/-!
# Why a diagram does not compile

No stack is ever given in part: a compilation fails as a whole, and the error names the node or the
edge that has to be mended.
-/

namespace InfraDiagram

/-! ## 1. Reasons -/

/-- Why a node cannot be declared. -/
inductive Unsupported where
  | notText (key : String) (got : Value)
  | notPositive (key : String) (got : Value)
  | engineMissing
  | engineUnknown (name : String)
  | noSymbol
  deriving DecidableEq, Repr

/-- The wording of a reason. -/
def Unsupported.message : Unsupported → String
  | .notText key got => "property '" ++ key ++ "' must be a string, got " ++ got.compact
  | .notPositive key got =>
    "property '" ++ key ++ "' must be a positive integer, got " ++ got.compact
  | .engineMissing => "database engine is required"
  | .engineUnknown name => "unsupported database engine '" ++ name ++ "'"
  | .noSymbol => "no identifier allocated"

/-- Why an edge cannot be turned into rules. -/
inductive Unresolvable where
  | noPort
  | noDefaultPort (service : String)
  | notEmitted (endpoint : String)
  deriving DecidableEq, Repr

/-- The wording of a reason. -/
def Unresolvable.message : Unresolvable → String
  | .noPort => "no port and no service given"
  | .noDefaultPort service => "service '" ++ service ++ "' has no default port"
  | .notEmitted endpoint => "endpoint " ++ endpoint ++ " was never emitted"

/-! ## 2. Errors -/

/-- Why a compilation fails. -/
inductive CompileError where
  | problem (p : Problem)
  | unsupported (node : String) (reason : Unsupported)
  | unresolvable (edge : String) (reason : Unresolvable)
  | cycle (node : String)
  | undefinedReference (origin : Origin) (identifier : String)
  | settings (f : Settings.Fault)
  deriving DecidableEq, Repr

namespace CompileError

/-- The wording of an error. -/
def message : CompileError → String
  | .problem p => "Invalid graph: " ++ p.message
  | .unsupported node reason =>
    "Unsupported configuration on node " ++ node ++ ": " ++ reason.message
  | .unresolvable edge reason =>
    "Unresolvable relationship on edge " ++ edge ++ ": " ++ reason.message
  | .cycle node => "Dependency cycle involving node " ++ node
  | .undefinedReference origin identifier =>
    "Fragment " ++ origin.text ++ " references " ++ identifier ++ " before it is defined"
  | .settings f => "Configuration error: " ++ f.message

/-- Whether an error is about the structure of the diagram rather than about its content. -/
def isStructural : CompileError → Bool
  | .problem _ => true
  | .cycle _ => true
  | _ => false

end CompileError

end InfraDiagram
