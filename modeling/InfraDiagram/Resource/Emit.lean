import InfraDiagram.Resource.Bucket
import InfraDiagram.Resource.Database
import InfraDiagram.Resource.Network
import InfraDiagram.Resource.Server

/-!
# The fragment of a node

The properties of a node are read first, then its symbol and the symbol of its network are looked
up; what fails first is the error.
-/

namespace InfraDiagram.Resource

/-- What is known besides a node when it is declared. -/
structure Scope where
  graph : Graph
  symbols : SymbolTable
  settings : Settings
  stackName : String

namespace Scope

/-- The symbol of a node. -/
def symbol (s : Scope) (n : Node) : Except CompileError Symbol :=
  match s.symbols.get? n.id with
  | some symbol => .ok symbol
  | none => .error (.unsupported n.id .noSymbol)

/-- The symbol of the network a node is placed in: the one around it, or else the one made for nodes
    outside any network. -/
def networkOf (s : Scope) (n : Node) : Except CompileError Symbol :=
  let found := match s.graph.parent? n.id with
    | some parent => s.symbols.get? parent.id
    | none => s.symbols.defaultNetwork
  match found with
  | some symbol => .ok symbol
  | none => .error (.problem (.uncontained n.id))

end Scope

/-- The steps that declare a node. -/
def stepsOf (s : Scope) (n : Node) : Except CompileError (List Fragment.Step) :=
  match n.kind with
  | .vpc => do
    let symbol ← s.symbol n
    .ok (network symbol s.settings)
  | .server => do
    let server ← Server.ofNode s.settings n
    let symbol ← s.symbol n
    let network ← s.networkOf n
    .ok (server.steps s.settings n.id symbol network (s.graph.isPublic n.id))
  | .database => do
    let database ← Database.ofNode s.settings n
    let symbol ← s.symbol n
    let network ← s.networkOf n
    .ok (database.steps s.settings s.stackName symbol network (s.graph.isPublic n.id))
  | .bucket => do
    let bucket ← Bucket.ofNode n
    let symbol ← s.symbol n
    .ok (bucket.steps n.id symbol)

/-- The fragment that declares a node. -/
def emit (s : Scope) (n : Node) : Except CompileError Fragment :=
  (stepsOf s n).map (Fragment.build (.node n.id))

end InfraDiagram.Resource
