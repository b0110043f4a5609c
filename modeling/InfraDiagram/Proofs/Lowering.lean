import InfraDiagram.Document.Basic
import InfraDiagram.Proofs.WellFormed

/-!
# What a drawing is lowered to

`Document.toGraph` goes over the top-level blocks and over what is directly inside them. Its result
is told here without going over anything (`toGraph_eq`): one node for each of these blocks, one
containing edge for each block inside another, and one edge for each connection.

What lies deeper is not lowered, but a drawing that has it does not pass the check: a block inside a
network is a server or a database, and these have nothing inside. So a drawing whose graph has no
structural problem is lowered as a whole (`Document.Kept`).
-/

namespace InfraDiagram

/-! ## 1. Blocks at every depth -/

namespace Block

mutual

/-- A block and all that is inside it, outer blocks first. -/
def preorder : Block → List Block
  | .network id name children => .network id name children :: preorderAll children
  | .webServer id name amiId zone userData appPath =>
    [.webServer id name amiId zone userData appPath]
  | .database id name engine => [.database id name engine]
  | .storage id name => [.storage id name]
  | .website id name index error appPath => [.website id name index error appPath]

/-- Blocks and all that is inside them, one after the other. -/
def preorderAll : List Block → List Block
  | [] => []
  | b :: bs => preorder b ++ preorderAll bs

end

theorem preorderAll_eq : ∀ bs : List Block, preorderAll bs = bs.flatMap preorder
  | [] => by rw [preorderAll, List.flatMap_nil]
  | b :: bs => by rw [preorderAll, preorderAll_eq bs, List.flatMap_cons]

theorem preorder_eq (b : Block) : b.preorder = b :: b.children.flatMap preorder := by
  cases b with
  | network id name inner => rw [preorder, preorderAll_eq, children]
  | _ => simp [preorder, children]

/-- Only networks have something inside. -/
theorem children_of_isCompute {b : Block} (h : b.kind.isCompute = true) : b.children = [] := by
  cases b with
  | network id name inner => cases h
  | _ => rfl

/-! ## 2. The node of a block -/

section Node

variable (key : String) (text : Option String) (n : Node)

/-- A text only adds to the properties of a node. -/
theorem withText_eq : ∃ fields, withText key text n = { n with properties := fields } := by
  unfold withText
  split
  · exact ⟨_, rfl⟩
  · exact ⟨n.properties, rfl⟩

@[simp] theorem id_withText : (withText key text n).id = n.id := by
  obtain ⟨fields, e⟩ := withText_eq key text n
  rw [e]

@[simp] theorem kind_withText : (withText key text n).kind = n.kind := by
  obtain ⟨fields, e⟩ := withText_eq key text n
  rw [e]

@[simp] theorem name_withText : (withText key text n).name = n.name := by
  obtain ⟨fields, e⟩ := withText_eq key text n
  rw [e]

end Node

@[simp] theorem id_toNode (b : Block) : b.toNode.id = b.id := by
  cases b <;> simp [toNode, id, Node.withProperty]

@[simp] theorem kind_toNode (b : Block) : b.toNode.kind = b.kind := by
  cases b <;> simp [toNode, kind, Node.withProperty]

@[simp] theorem name_toNode (b : Block) : b.toNode.name = b.name := by
  cases b <;> simp [toNode, name, Node.withProperty]

theorem isCompute_toNode (b : Block) : b.toNode.isCompute = b.kind.isCompute := by
  unfold Node.isCompute
  rw [kind_toNode]

end Block

/-! ## 3. The graph of a drawing -/

namespace Document

variable (d : Document)

/-- The blocks of a drawing, at every depth. -/
def allBlocks : List Block := d.blocks.flatMap Block.preorder

/-- The blocks that are lowered: those at the top and those directly inside them. -/
def lowered : List Block := d.blocks.flatMap fun b => b :: b.children

/-- The containing edges of a drawing: one for each block directly inside a top-level block. -/
def nestings : List Edge :=
  d.blocks.flatMap fun b => b.children.map fun c => Graph.childEdge b.id c.id

theorem foldl_withChild (parent : String) : ∀ (cs : List Block) (g : Graph),
    cs.foldl (fun g c => g.withChild parent c.toNode) g =
      { g with
        nodes := g.nodes ++ cs.map Block.toNode
        edges := g.edges ++ cs.map fun c => Graph.childEdge parent c.id }
  | [], g => by simp
  | c :: cs, g => by
      rw [List.foldl_cons, foldl_withChild parent cs]
      simp [Graph.withChild, Graph.withNode, Graph.withEdge]

theorem addBlock_eq (g : Graph) (b : Block) :
    addBlock g b =
      { g with
        nodes := g.nodes ++ (b :: b.children).map Block.toNode
        edges := g.edges ++ b.children.map fun c => Graph.childEdge b.id c.id } := by
  unfold addBlock
  rw [foldl_withChild]
  simp [Graph.withNode]

theorem foldl_addBlock : ∀ (bs : List Block) (g : Graph),
    bs.foldl addBlock g =
      { g with
        nodes := g.nodes ++ (bs.flatMap fun b => b :: b.children).map Block.toNode
        edges := g.edges ++ bs.flatMap fun b =>
          b.children.map fun c => Graph.childEdge b.id c.id }
  | [], g => by simp
  | b :: bs, g => by
      rw [List.foldl_cons, foldl_addBlock bs, addBlock_eq]
      simp

theorem foldl_withEdge : ∀ (cs : List Connection) (g : Graph),
    cs.foldl (fun g c => g.withEdge c.toEdge) g =
      { g with edges := g.edges ++ cs.map Connection.toEdge }
  | [], g => by simp
  | c :: cs, g => by
      rw [List.foldl_cons, foldl_withEdge cs]
      simp [Graph.withEdge]

/-- **The graph of a drawing.** -/
theorem toGraph_eq : d.toGraph =
    { id := d.id
      name := d.name
      nodes := d.lowered.map Block.toNode
      edges := d.nestings ++ d.connections.map Connection.toEdge } := by
  unfold toGraph
  rw [foldl_addBlock, foldl_withEdge]
  rfl

theorem nodes_toGraph : d.toGraph.nodes = d.lowered.map Block.toNode := by rw [toGraph_eq]

theorem edges_toGraph : d.toGraph.edges = d.nestings ++ d.connections.map Connection.toEdge := by
  rw [toGraph_eq]

theorem nodeIds_toGraph : d.toGraph.nodeIds = d.lowered.map Block.id := by
  unfold Graph.nodeIds
  rw [nodes_toGraph, List.map_map]
  exact List.map_congr_left fun b _ => b.id_toNode

theorem mem_nestings {d : Document} {e : Edge} :
    e ∈ d.nestings ↔ ∃ v ∈ d.blocks, ∃ c ∈ v.children, Graph.childEdge v.id c.id = e := by
  unfold nestings
  simp only [List.mem_flatMap, List.mem_map]

theorem mem_lowered {d : Document} {b : Block} :
    b ∈ d.lowered ↔ b ∈ d.blocks ∨ ∃ v ∈ d.blocks, b ∈ v.children := by
  unfold lowered
  simp only [List.mem_flatMap, List.mem_cons]
  constructor
  · rintro ⟨v, hv, rfl | hb⟩
    · exact Or.inl hv
    · exact Or.inr ⟨v, hv, hb⟩
  · rintro (hb | ⟨v, hv, hb⟩)
    · exact ⟨b, hb, Or.inl rfl⟩
    · exact ⟨v, hv, Or.inr hb⟩

theorem isContains_nesting {e : Edge} (h : e ∈ d.nestings) : e.isContains = true := by
  obtain ⟨v, _, c, _, rfl⟩ := mem_nestings.mp h
  rfl

theorem isContains_connection {e : Edge} (h : e ∈ d.connections.map Connection.toEdge) :
    e.isContains = false := by
  obtain ⟨c, _, rfl⟩ := List.mem_map.mp h
  rfl

theorem containsEdges_toGraph : d.toGraph.containsEdges = d.nestings := by
  unfold Graph.containsEdges
  rw [edges_toGraph, List.filter_append, List.filter_eq_self.mpr fun e => d.isContains_nesting,
    List.filter_eq_nil_iff.mpr, List.append_nil]
  intro e he
  rw [d.isContains_connection he]
  exact Bool.false_ne_true

theorem accessEdges_toGraph : d.toGraph.accessEdges = d.connections.map Connection.toEdge := by
  unfold Graph.accessEdges Edge.isAccess
  rw [edges_toGraph, List.filter_append, List.filter_eq_nil_iff.mpr, List.nil_append,
    List.filter_eq_self.mpr]
  · intro e he
    rw [d.isContains_connection he]
    rfl
  · intro e he
    rw [d.isContains_nesting he]
    exact Bool.false_ne_true

/-! ## 4. Nothing is lost -/

variable {d}

/-- What is inside a network of a well-formed drawing is a server or a database. -/
theorem isCompute_of_child (wf : d.toGraph.WellFormed) {v c : Block} (hv : v ∈ d.blocks)
    (hc : c ∈ v.children) : c.kind.isCompute = true := by
  have edge : Graph.childEdge v.id c.id ∈ d.toGraph.containsEdges := by
    rw [containsEdges_toGraph]
    exact mem_nestings.mpr ⟨v, hv, c, hc, rfl⟩
  have node : c.toNode ∈ d.toGraph.nodes := by
    rw [nodes_toGraph]
    exact List.mem_map_of_mem (mem_lowered.mpr (Or.inr ⟨v, hv, hc⟩))
  -- the node that the edge leads to is that of the child, as ids are distinct
  obtain ⟨_, _, n, hn, _, target, _, compute⟩ := wf.nests _ edge
  have same : n = c.toNode :=
    Graph.eq_of_id_eq wf.nodesDistinct hn node (by rw [c.id_toNode]; exact target.symm)
  rw [same, Block.isCompute_toNode] at compute
  exact compute

/-- If what is inside top-level blocks has nothing inside, all blocks are lowered. -/
theorem allBlocks_eq_lowered (flat : ∀ v ∈ d.blocks, ∀ c ∈ v.children, c.children = []) :
    d.allBlocks = d.lowered := by
  have single : ∀ v ∈ d.blocks, ∀ c ∈ v.children, c.preorder = [c] := by
    intro v hv c hc
    rw [c.preorder_eq, flat v hv c hc, List.flatMap_nil]
  unfold allBlocks lowered
  refine List.flatMap_congr fun v hv => ?_
  rw [v.preorder_eq, List.flatMap_congr (single v hv), List.flatMap_singleton']

/-- Blocks and the blocks directly inside them, as pairs of ids. -/
def containedPairs (bs : List Block) : List (String × String) :=
  bs.flatMap fun b => b.children.map fun c => (b.id, c.id)

/-- If what is inside top-level blocks has nothing inside, all pairs come from the top level. -/
theorem containedPairs_lowered (flat : ∀ v ∈ d.blocks, ∀ c ∈ v.children, c.children = []) :
    containedPairs d.lowered = containedPairs d.blocks := by
  unfold containedPairs lowered
  rw [List.flatMap_assoc]
  refine List.flatMap_congr fun v hv => ?_
  have none : (v.children.flatMap fun b => b.children.map fun c => (b.id, c.id)) = [] := by
    rw [List.flatMap_eq_nil_iff]
    intro c hc
    rw [flat v hv c hc, List.map_nil]
  rw [List.flatMap_cons, none, List.append_nil]

theorem map_ends_nestings (d : Document) :
    d.nestings.map (fun e => (e.source, e.target)) = containedPairs d.blocks := by
  unfold nestings containedPairs
  rw [List.map_flatMap]
  refine List.flatMap_congr fun v _ => ?_
  rw [List.map_map]
  rfl

/-- **A graph that has all of a drawing**: one node for each block at any depth, outer blocks first;
    a containing edge for each block directly inside another; and an edge for each connection. -/
structure Kept (d : Document) (g : Graph) : Prop where
  nodes : g.nodes.map (fun n => (n.id, n.name, n.kind)) =
    d.allBlocks.map fun b => (b.id, b.name, b.kind)
  once : (d.allBlocks.map Block.id).Nodup
  contains : g.containsEdges.map (fun e => (e.source, e.target)) = containedPairs d.allBlocks
  access : g.accessEdges.map (fun e => (e.id, e.source, e.target, e.ports)) =
    d.connections.map fun c => (c.id, c.source, c.target, c.ports)

/-- **Lowering loses nothing silently**: a drawing whose graph has no structural problem is in the
    graph as a whole, however deep its blocks are nested. -/
theorem lowering_keeps_drawing (d : Document) (valid : d.toGraph.checkStructure.problems = []) :
    d.Kept d.toGraph := by
  have wf : d.toGraph.WellFormed := Graph.wellFormed_of_structureProblems valid
  have flat : ∀ v ∈ d.blocks, ∀ c ∈ v.children, c.children = [] := fun v hv c hc =>
    Block.children_of_isCompute (isCompute_of_child wf hv hc)
  have distinct := wf.nodesDistinct
  rw [nodeIds_toGraph] at distinct
  refine ⟨?_, ?_, ?_, ?_⟩
  · rw [nodes_toGraph, allBlocks_eq_lowered flat, List.map_map]
    exact List.map_congr_left fun b _ => by simp
  · rw [allBlocks_eq_lowered flat]
    exact distinct
  · rw [containsEdges_toGraph, map_ends_nestings, allBlocks_eq_lowered flat,
      containedPairs_lowered flat]
  · rw [accessEdges_toGraph, List.map_map]
    rfl

/-- A shop in a network, with a website outside. -/
def drawnShop : Document where
  name := "shop"
  blocks := [
    .network "net" "Shop" [.webServer "web" "web" "ami-1" "" none none, .database "db" "db" "mysql"],
    .website "site" "site" "" "oops.html" none]
  connections := [⟨"http", "net", "web", [80, 443]⟩, ⟨"sql", "web", "db", [3306]⟩]

theorem drawnShop_kept : drawnShop.toGraph.checkStructure.problems = [] ∧
    drawnShop.Kept drawnShop.toGraph :=
  have valid : drawnShop.toGraph.checkStructure.problems = [] := by decide
  ⟨valid, lowering_keeps_drawing drawnShop valid⟩

/-- A server in a network that is in another network is not lowered, and the check says so. -/
example : (({ name := "shop", blocks := [.network "outer" "" [.network "inner" ""
    [.webServer "web" "" "" "" none none]]] } : Document).toGraph.checkStructure.problems) =
    [.invalidContainment "outer/inner" .vpc .vpc] := by decide

end Document

end InfraDiagram
