import InfraDiagram.Graph.Basic
import InfraDiagram.Value.Decode

/-!
# Graphs as values

The flat form of a graph: its id, its name, its nodes and its edges. `toValue` leaves out empty
properties, empty ports and an absent service; `ofValue` takes them as absent. The kind of an edge
stands among its own fields, as the tag `kind`.
-/

namespace InfraDiagram

open Decode

/-! ## 1. Nodes -/

/-- The kinds by their names. -/
def NodeKind.names : List (String × NodeKind) := NodeKind.all.map fun k => (k.text, k)

/-- A kind from a value. -/
def NodeKind.ofValue (v : Value) : Except DataError NodeKind := variant NodeKind.names v

namespace Node

/-- What is checked of a node's fields, one by one. The display name is a second name of the name,
    and only one of the two may be there. -/
def checkField (fields : Fields) (key : String) (v : Value) : Except DataError Unit :=
  match key with
  | "id" => succeeds (text v)
  | "kind" => succeeds (NodeKind.ofValue v)
  | "display_name" => succeeds (text v)
  | "name" =>
    if Fields.has fields "display_name" then .error (.duplicateField "name") else succeeds (text v)
  | "properties" => succeeds (map v)
  | _ => .ok ()

/-- A node from the fields of an object. -/
def ofFields (fields : Fields) : Except DataError Node := do
  inOrder (checkField fields) fields
  let id ← required fields "id" text
  let kind ← required fields "kind" NodeKind.ofValue
  let name ←
    if Fields.has fields "display_name" then required fields "display_name" text
    else required fields "name" text
  let properties ← optional fields "properties" [] map
  .ok ⟨id, kind, name, properties⟩

/-- A node from the items of an array. -/
def ofItems (items : List Value) : Except DataError Node := do
  let whole := "struct Node with 4 elements"
  let id ← item items 0 whole text
  let kind ← item items 1 whole NodeKind.ofValue
  let name ← item items 2 whole text
  let properties ← itemOr items 3 [] map
  atMost items 4
  .ok ⟨id, kind, name, properties⟩

/-- A node from a value. -/
def ofValue (v : Value) : Except DataError Node := record "Node" ofFields ofItems v

/-- A node as a value. -/
def toValue (n : Node) : Value :=
  .obj ([("id", .str n.id), ("kind", .str n.kind.text), ("name", .str n.name)]
    ++ if n.properties.isEmpty then [] else [("properties", .obj n.properties)])

end Node

/-! ## 2. Edges -/

namespace Link

/-- The two kinds of edges, by their names and in their order. -/
def tags : List String := ["contains", "network_access"]

/-- Which kind a tag names: by name, or by position. -/
def isContainsTag : Value → Except DataError Bool
  | .str "contains" => .ok true
  | .str "network_access" => .ok false
  | .str s => .error (.unknownVariant s tags)
  | .int i =>
    if i = 0 then .ok true
    else if i = 1 then .ok false
    else if 0 < i then .error (.wrongValue (.int i) "variant index 0 <= i < 2")
    else .error (.wrongType (.int i) "variant identifier")
  | v => .error (.wrongType v "variant identifier")

/-- What is checked of the fields that let traffic through. -/
def checkField (key : String) (v : Value) : Except DataError Unit :=
  match key with
  | "ports" => succeeds (list word16 v)
  | "service" => succeeds (option text v)
  | _ => .ok ()

/-- A link from the fields of its edge. -/
def ofFields (fields : Fields) : Except DataError Link := do
  let contains ← required fields "kind" isContainsTag
  if contains then .ok .contains
  else
    inOrder checkField fields
    let ports ← optional fields "ports" [] (list word16)
    let service ← optional fields "service" none (option text)
    .ok (.access ports service)

end Link

namespace Edge

/-- What is checked of an edge's own fields. -/
def checkField (key : String) (v : Value) : Except DataError Unit :=
  match key with
  | "id" => succeeds (text v)
  | "from" => succeeds (text v)
  | "to" => succeeds (text v)
  | _ => .ok ()

/-- An edge from the fields of an object. -/
def ofFields (fields : Fields) : Except DataError Edge := do
  inOrder checkField fields
  let id ← required fields "id" text
  let source ← required fields "from" text
  let target ← required fields "to" text
  let link ← Link.ofFields fields
  .ok ⟨id, source, target, link⟩

/-- An edge from a value; it has no form as an array. -/
def ofValue : Value → Except DataError Edge
  | .obj fields => ofFields fields
  | v => .error (.wrongType v "struct Edge")

/-- A list of ports as a value. -/
def portsValue (ports : List UInt16) : Value := .arr (ports.map fun p => .int p.toNat)

/-- An edge as a value. -/
def toValue (e : Edge) : Value :=
  match e.link with
  | .contains =>
    .obj [("from", .str e.source), ("id", .str e.id), ("kind", .str "contains"),
      ("to", .str e.target)]
  | .access ports service =>
    .obj ([("from", .str e.source), ("id", .str e.id), ("kind", .str "network_access")]
      ++ (if ports.isEmpty then [] else [("ports", portsValue ports)])
      ++ (match service with
        | none => []
        | some s => [("service", .str s)])
      ++ [("to", .str e.target)])

end Edge

/-! ## 3. Graphs -/

namespace Graph

/-- What is checked of a graph's fields. -/
def checkField (key : String) (v : Value) : Except DataError Unit :=
  match key with
  | "id" => succeeds (text v)
  | "name" => succeeds (text v)
  | "nodes" => succeeds (list Node.ofValue v)
  | "edges" => succeeds (list Edge.ofValue v)
  | _ => .ok ()

/-- A graph from the fields of an object. -/
def ofFields (fields : Fields) : Except DataError Graph := do
  inOrder checkField fields
  let id ← optional fields "id" "" text
  let name ← required fields "name" text
  let nodes ← optional fields "nodes" [] (list Node.ofValue)
  let edges ← optional fields "edges" [] (list Edge.ofValue)
  .ok ⟨id, name, nodes, edges⟩

/-- A graph from the items of an array. -/
def ofItems (items : List Value) : Except DataError Graph := do
  let id ← itemOr items 0 "" text
  let name ← item items 1 "struct Graph with 4 elements" text
  let nodes ← itemOr items 2 [] (list Node.ofValue)
  let edges ← itemOr items 3 [] (list Edge.ofValue)
  atMost items 4
  .ok ⟨id, name, nodes, edges⟩

/-- A graph from a value in the flat form. -/
def ofValue (v : Value) : Except DataError Graph := record "Graph" ofFields ofItems v

/-- A graph as a value. -/
def toValue (g : Graph) : Value :=
  .obj [("edges", .arr (g.edges.map Edge.toValue)), ("id", .str g.id), ("name", .str g.name),
    ("nodes", .arr (g.nodes.map Node.toValue))]

end Graph

end InfraDiagram
