import InfraDiagram.Stack.Error

/-!
# Stacks

A stack is the text of a program that declares resources, with what it declares. It is put together
from fragments, in their order, between an opening and a closing. A fragment may only refer to what
earlier fragments define.
-/

namespace InfraDiagram

/-- A stack program and what it declares. -/
structure Stack where
  name : String
  source : String
  /-- The variables of the program, in the order of their definition. -/
  declared : List String
  outputs : List Output
  symbols : Option SymbolTable := none
  deriving DecidableEq, Repr

namespace Stack

/-! ## 1. What fragments declare together -/

/-- A list with a value at its end, unless it is there. -/
def appendNew {α : Type} [BEq α] (xs : List α) (x : α) : List α :=
  if xs.contains x then xs else xs ++ [x]

/-- The variables that fragments define, each at its first definition. -/
def declaredBy (fragments : List Fragment) : List String :=
  (fragments.flatMap Fragment.defines).foldl appendNew []

/-- The modules that fragments need, each at its first use. -/
def modulesOf (fragments : List Fragment) : List Module :=
  (fragments.flatMap Fragment.imports).foldl appendNew []

/-- Whether every fragment refers only to what is defined before it; `defined` is what has been
    defined so far. -/
def checkReferences : (defined : List String) → List Fragment → Except CompileError Unit
  | _, [] => .ok ()
  | defined, f :: rest =>
    match f.references.find? fun v => !defined.contains v with
    | some v => .error (.undefinedReference f.origin v)
    | none => checkReferences (defined ++ f.defines) rest

/-! ## 2. The program -/

/-- A line of a program, four blanks for each level. -/
def indented (line : Line) : String :=
  String.ofList (List.replicate (4 * line.indent) ' ') ++ line.text ++ "\n"

/-- The lines before the fragments. -/
def opening (className : String) (modules : List Module) : List Line :=
  [⟨0, "import aws_cdk as cdk"⟩,
    ⟨0, "from aws_cdk import Stack"⟩,
    ⟨0, "from constructs import Construct"⟩]
  ++ modules.map (fun m => ⟨0, m.statement⟩)
  ++ [⟨0, "class " ++ className ++ "(Stack):"⟩,
    ⟨1, "def __init__(self, scope: Construct, construct_id: str, **kwargs) -> None:"⟩,
    ⟨2, "super().__init__(scope, construct_id, **kwargs)"⟩]

/-- The lines of the fragments, inside the body of the class. -/
def body (fragments : List Fragment) : List Line :=
  (fragments.flatMap Fragment.lines).map fun l => { l with indent := l.indent + 2 }

/-- The lines after the fragments. -/
def closing (className stackName : String) : List Line :=
  [⟨0, "app = cdk.App()"⟩,
    ⟨0, className ++ "(app, '" ++ stackName ++ "')"⟩,
    ⟨0, "app.synth()"⟩]

/-- The lines of the program of some fragments. -/
def programLines (className stackName : String) (fragments : List Fragment) : List Line :=
  opening className (modulesOf fragments) ++ body fragments ++ closing className stackName

/-- The text of the program of some fragments. -/
def program (className stackName : String) (fragments : List Fragment) : String :=
  String.join ((programLines className stackName fragments).map indented)

/-! ## 3. Assembling -/

/-- The stack of some fragments. -/
def assemble (className stackName : String) (fragments : List Fragment) :
    Except CompileError Stack := do
  checkReferences [] fragments
  .ok {
    name := stackName
    source := program className stackName fragments
    declared := declaredBy fragments
    outputs := fragments.flatMap Fragment.outputs }

end Stack

end InfraDiagram
