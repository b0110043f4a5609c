import InfraDiagram.Graph.Basic
import InfraDiagram.Text.Blank

/-!
# Editor documents

A diagram editor keeps a drawing as blocks, a network block with the blocks inside it, and as
connections between blocks. `Document.toGraph` lowers such a document to a graph: blocks become
nodes, the children of a top-level network become nodes that the network contains, connections
become edges that let traffic through. What a child has inside it is not lowered; a network inside
a network is refused by the structure check of the graph.
-/

namespace InfraDiagram

/-! ## 1. Blocks and connections -/

/-- A block of a drawing. -/
inductive Block where
  | network (id name : String) (children : List Block)
  | webServer (id name amiId availabilityZone : String) (userData appPath : Option String)
  | database (id name engine : String)
  | storage (id name : String)
  | website (id name indexFile errorFile : String) (appPath : Option String)
  deriving Repr

/-- A connection between two blocks, or between a block and the internet. -/
structure Connection where
  id : String
  source : String
  target : String
  ports : List UInt16 := []
  deriving DecidableEq, Repr

/-- A drawing. -/
structure Document where
  id : String := ""
  name : String
  blocks : List Block := []
  connections : List Connection := []
  deriving Repr

/-! ## 2. Names of properties -/

namespace Property

def amiId : String := "ami_id"
def availabilityZone : String := "availability_zone"
def instanceType : String := "instance_type"
def userData : String := "user_data"
def appPath : String := "app_path"
def engine : String := "engine"
def allocatedStorage : String := "allocated_storage"
def indexDocument : String := "index_document"
def errorDocument : String := "error_document"

end Property

/-! ## 3. Lowering -/

namespace Block

/-- The zone of a web server that names none. -/
def defaultZone : String := "us-east-1"

/-- The index page of a website that names none. -/
def defaultIndex : String := "index.html"

/-- The error page of a website that names none. -/
def defaultError : String := "error.html"

/-- The id of a block. -/
def id : Block → String
  | .network id _ _ => id
  | .webServer id _ _ _ _ _ => id
  | .database id _ _ => id
  | .storage id _ => id
  | .website id _ _ _ _ => id

/-- The name of a block. -/
def name : Block → String
  | .network _ name _ => name
  | .webServer _ name _ _ _ _ => name
  | .database _ name _ => name
  | .storage _ name => name
  | .website _ name _ _ _ => name

/-- The kind of node a block becomes. -/
def kind : Block → NodeKind
  | .network _ _ _ => .vpc
  | .webServer _ _ _ _ _ _ => .server
  | .database _ _ _ => .database
  | .storage _ _ => .bucket
  | .website _ _ _ _ _ => .bucket

/-- The blocks directly inside a block. -/
def children : Block → List Block
  | .network _ _ children => children
  | _ => []

/-- A node with a text property, unless the text is absent or blank. -/
def withText (key : String) (text : Option String) (n : Node) : Node :=
  match text.bind Text.nonBlank? with
  | some s => n.withProperty key (.str s)
  | none => n

/-- The node a block becomes, without what is inside the block. -/
def toNode : Block → Node
  | .network id name _ => ⟨id, .vpc, name, []⟩
  | .webServer id name amiId zone userData appPath =>
    ((⟨id, .server, name, []⟩ : Node).withProperty Property.amiId (.str amiId)
      |>.withProperty Property.availabilityZone (.str ((Text.nonBlank? zone).getD defaultZone)))
      |> withText Property.userData userData
      |> withText Property.appPath appPath
  | .database id name engine =>
    (⟨id, .database, name, []⟩ : Node).withProperty Property.engine (.str engine)
  | .storage id name => ⟨id, .bucket, name, []⟩
  | .website id name index error appPath =>
    ((⟨id, .bucket, name, []⟩ : Node).withProperty Property.indexDocument
        (.str ((Text.nonBlank? index).getD defaultIndex))
      |>.withProperty Property.errorDocument (.str ((Text.nonBlank? error).getD defaultError)))
      |> withText Property.appPath appPath

end Block

/-- The edge a connection becomes. -/
def Connection.toEdge (c : Connection) : Edge := ⟨c.id, c.source, c.target, .access c.ports none⟩

namespace Document

/-- The graph with a block, and with the blocks directly inside it. -/
def addBlock (g : Graph) (b : Block) : Graph :=
  b.children.foldl (fun g child => g.withChild b.id child.toNode) (g.withNode b.toNode)

/-- The graph of a drawing. -/
def toGraph (d : Document) : Graph :=
  d.connections.foldl (fun g c => g.withEdge c.toEdge)
    (d.blocks.foldl addBlock { id := d.id, name := d.name })

end Document

end InfraDiagram
