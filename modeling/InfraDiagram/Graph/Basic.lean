import InfraDiagram.Value.Basic

/-!
# Diagrams as graphs

A diagram is a list of nodes (networks, servers, databases, buckets) and a list of edges. An edge
either says that a network contains a node, or that traffic may reach one node from another.
The reserved end `Internet` stands for any outside source and needs no node.

Ids are meant to be distinct, but nothing here assumes it: a look-up takes the first node of an
id, and the network around a node is told by the first containing edge that leads to it.
-/

namespace InfraDiagram

/-! ## 1. Nodes -/

/-- The end that stands for any outside source. -/
def internet : String := "Internet"

/-- What a node stands for. Security groups and roles are never drawn: the servers and databases
    that own them bring them along. -/
inductive NodeKind where
  | vpc
  | server
  | database
  | bucket
  deriving DecidableEq, Repr

namespace NodeKind

/-- All kinds, in their usual order. -/
def all : List NodeKind := [.vpc, .server, .database, .bucket]

/-- The name of a kind in a document. -/
def text : NodeKind → String
  | .vpc => "vpc"
  | .server => "instance"
  | .database => "database"
  | .bucket => "bucket"

/-- The name that a node without a usable name of its own gets. -/
def label : NodeKind → String
  | .vpc => "Vpc"
  | .server => "Instance"
  | .database => "Database"
  | .bucket => "Bucket"

/-- Servers and databases own a security group, and they have to live inside a network. -/
def isCompute : NodeKind → Bool
  | .server => true
  | .database => true
  | _ => false

/-- A network may contain what needs one. -/
def canContain (parent child : NodeKind) : Bool := parent == .vpc && child.isCompute

end NodeKind

/-- A node; its properties are free-form and in key order. -/
structure Node where
  id : String
  kind : NodeKind
  name : String
  properties : Fields := []
  deriving DecidableEq, Repr

namespace Node

/-- A node's property. -/
def property? (n : Node) (key : String) : Option Value := Fields.get? n.properties key

/-- The node with a property set. -/
def withProperty (n : Node) (key : String) (value : Value) : Node :=
  { n with properties := Fields.insert key value n.properties }

/-- The node lives inside a network, and owns a security group. -/
def isCompute (n : Node) : Bool := n.kind.isCompute

end Node

/-! ## 2. Edges -/

/-- What an edge says of its ends. -/
inductive Link where
  /-- The source is a network that contains the target. -/
  | contains
  /-- Traffic from the source may reach the target on each port, or, without ports, on the port
      of the service. -/
  | access (ports : List UInt16) (service : Option String)
  deriving DecidableEq, Repr

/-- A directed edge between two ids. -/
structure Edge where
  id : String
  source : String
  target : String
  link : Link
  deriving DecidableEq, Repr

namespace Edge

/-- The edge says that its source contains its target. -/
def isContains (e : Edge) : Bool :=
  match e.link with
  | .contains => true
  | .access _ _ => false

/-- The edge lets traffic through. -/
def isAccess (e : Edge) : Bool := !e.isContains

/-- The explicit ports of an edge. -/
def ports (e : Edge) : List UInt16 :=
  match e.link with
  | .contains => []
  | .access ports _ => ports

/-- The service an edge names. -/
def service? (e : Edge) : Option String :=
  match e.link with
  | .contains => none
  | .access _ service => service

/-- Whether an id is one of the ends. -/
def touches (e : Edge) (id : String) : Bool := e.source == id || e.target == id

/-- The end opposite to an id that is an end. -/
def otherEnd? (e : Edge) (id : String) : Option String :=
  if e.source == id then some e.target
  else if e.target == id then some e.source
  else none

end Edge

/-! ## 3. Graphs -/

/-- A diagram. Its name is the name of the stack it compiles to. -/
structure Graph where
  id : String := ""
  name : String
  nodes : List Node := []
  edges : List Edge := []
  deriving DecidableEq, Repr

namespace Graph

/-- The graph with one more node. -/
def withNode (g : Graph) (n : Node) : Graph := { g with nodes := g.nodes ++ [n] }

/-- The graph with one more edge. -/
def withEdge (g : Graph) (e : Edge) : Graph := { g with edges := g.edges ++ [e] }

/-- The edge by which a network contains a child: its id joins theirs by a slash. -/
def childEdge (parent child : String) : Edge :=
  ⟨parent ++ "/" ++ child, parent, child, .contains⟩

/-- The graph with one more node, inside a network. -/
def withChild (g : Graph) (parent : String) (child : Node) : Graph :=
  (g.withEdge (childEdge parent child.id)).withNode child

/-- The first node of an id. -/
def node? (g : Graph) (id : String) : Option Node := g.nodes.find? fun n => n.id == id

/-- The position of the first node of an id. -/
def nodeIndex? (g : Graph) (id : String) : Option Nat := g.nodes.findIdx? fun n => n.id == id

/-- The containing edges, in order. -/
def containsEdges (g : Graph) : List Edge := g.edges.filter Edge.isContains

/-- The edges that let traffic through, in order. -/
def accessEdges (g : Graph) : List Edge := g.edges.filter Edge.isAccess

/-- The network around a node: the source of the first containing edge that leads to it. -/
def parent? (g : Graph) (id : String) : Option Node :=
  (g.containsEdges.find? fun e => e.target == id).bind fun e => g.node? e.source

/-- The nodes inside a network, in edge order. -/
def children (g : Graph) (id : String) : List Node :=
  (g.containsEdges.filter fun e => e.source == id).filterMap fun e => g.node? e.target

/-- Whether an end is an unrestricted source for a node: the internet, or the network around it. -/
def isAnySourceFor (g : Graph) (endpoint id : String) : Bool :=
  endpoint == internet || (g.parent? id).any fun p => p.id == endpoint

/-- Whether a node can be reached from outside its network. -/
def isPublic (g : Graph) (id : String) : Bool :=
  g.accessEdges.any fun e => (e.otherEnd? id).any fun other => g.isAnySourceFor other id

/-- The ids of the nodes, in order. -/
def nodeIds (g : Graph) : List String := g.nodes.map Node.id

/-- A server or database that no network contains. -/
def isUncontained (g : Graph) (n : Node) : Bool := n.isCompute && (g.parent? n.id).isNone

end Graph

end InfraDiagram
