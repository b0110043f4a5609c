import InfraDiagram.Access
import InfraDiagram.Graph.Check
import InfraDiagram.Order
import InfraDiagram.Resource.Emit
import InfraDiagram.Stack.Report
import InfraDiagram.Symbol.Allocator

/-!
# Compiling a diagram

The settings and the diagram are checked first. Then every node is named and declared in the order
of declaration, the rules of access follow, and the fragments are assembled. Servers and databases
outside any network share one network that is declared just before the first of them.
-/

namespace InfraDiagram.Stack

/-- The name of the network made for nodes outside any network. -/
def defaultNetworkName : String := "DefaultVpc"

/-! ## 1. Checks -/

/-- Unless a network may be made for them, servers and databases have to be inside one. -/
def checkPlacement (settings : Settings) (g : Graph) : Except CompileError Unit :=
  if settings.implicitVpc then .ok ()
  else
    match g.nodes.find? g.isUncontained with
    | some n => .error (.problem (.uncontained n.id))
    | none => .ok ()

/-- What has to hold before anything is declared. -/
def checkInput (settings : Settings) (g : Graph) (name : String) : Except CompileError Unit := do
  settings.validate.mapError .settings
  (g.checkNamed name).toExcept.mapError .problem
  checkPlacement settings g

/-! ## 2. Declarations -/

/-- Makes the network for nodes outside any network, if a node needs it and there is none yet. -/
def placeDefaultNetwork (settings : Settings) (g : Graph) (a : Allocator) (n : Node) :
    Allocator × List Fragment :=
  if g.isUncontained n && a.table.defaultNetwork.isNone then
    let (symbol, b) := a.allocateDefaultNetwork defaultNetworkName
    (b, [Resource.defaultNetwork symbol settings])
  else (a, [])

/-- The fragments of nodes in their order, and the symbols given out. -/
def declare (settings : Settings) (g : Graph) (name : String) :
    Allocator → List Node → Except CompileError (Allocator × List Fragment)
  | a, [] => .ok (a, [])
  | a, n :: rest => do
    let (b, network) := placeDefaultNetwork settings g a n
    let c := (b.allocate n).2
    let fragment ← Resource.emit ⟨g, c.table, settings, name⟩ n
    let (last, others) ← declare settings g name c rest
    .ok (last, network ++ fragment :: others)

/-! ## 3. The whole compilation -/

/-- What a diagram compiles to before it is put together: its nodes in the order of their
    declaration, their symbols, the fragments that declare them and the fragments of its rules. -/
structure Parts where
  order : List Node
  symbols : SymbolTable
  declarations : List Fragment
  rules : List Fragment
  deriving DecidableEq, Repr

/-- The fragments of a compiled diagram in the order of the program. -/
def Parts.fragments (p : Parts) : List Fragment := p.declarations ++ p.rules

/-- The parts of a diagram under a name. -/
def parts (settings : Settings) (g : Graph) (name : String) : Except CompileError Parts := do
  checkInput settings g name
  let order ← Order.order g
  let (a, declarations) ← declare settings g name { scheme := settings.naming } order
  let rules ← Access.fragments settings.services g a.table
  .ok ⟨order, a.table, declarations, rules⟩

/-- The stack of a diagram under a name. -/
def generateNamed (settings : Settings) (g : Graph) (name : String) : Except CompileError Stack := do
  let p ← parts settings g name
  let stack ← assemble settings.stackClass name p.fragments
  .ok { stack with symbols := some p.symbols }

/-- The stack of a diagram under its own name. -/
def generate (settings : Settings) (g : Graph) : Except CompileError Stack :=
  generateNamed settings g g.name

end InfraDiagram.Stack
