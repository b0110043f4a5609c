import InfraDiagram.Graph.Cycle
import InfraDiagram.Graph.Problem
import InfraDiagram.Text.Blank

/-!
# Checking a diagram

The check goes over the ids, the ends of the edges, the containing edges and then the edges that
let traffic through, and lists every problem in that order. After a cycle of containment nothing
more is said about containment, and of each edge that lets traffic through only the first problem
is kept.
-/

namespace InfraDiagram.Graph

/-! ## 1. Names and ids -/

/-- A stack name is made of ASCII letters, digits, `_` and `-`, and is not empty. -/
def isStackName (name : String) : Bool := !name.isEmpty && name.toList.all Text.isNameChar

/-- What is wrong with a stack name. -/
def stackNameProblems (name : String) : List Problem :=
  if isStackName name then [] else [.invalidStackName name]

/-- Empty and repeated node ids; `seen` are the ids met so far. -/
def nodeIdProblems : (seen : List String) → List Node → List Problem
  | _, [] => []
  | seen, n :: ns =>
    if n.id == "" then .emptyId :: nodeIdProblems seen ns
    else if n.id == internet || seen.contains n.id then
      .duplicateNode n.id :: nodeIdProblems seen ns
    else nodeIdProblems (n.id :: seen) ns

/-- Empty and repeated edge ids; `seen` are the ids met so far. -/
def edgeIdProblems : (seen : List String) → List Edge → List Problem
  | _, [] => []
  | seen, e :: es =>
    if e.id == "" then .emptyId :: edgeIdProblems seen es
    else if seen.contains e.id then .duplicateEdge e.id :: edgeIdProblems seen es
    else edgeIdProblems (e.id :: seen) es

/-! ## 2. Ends of edges -/

/-- The ends of an edge that are neither nodes nor, where it may be one, the internet. -/
def danglingProblems (g : Graph) (e : Edge) : List Problem :=
  let missing := fun endpoint =>
    !(e.isAccess && endpoint == internet) && !g.nodeIds.contains endpoint
  ([e.source, e.target].filter missing).map fun endpoint => .danglingEdge e.id endpoint

/-! ## 3. Containment -/

/-- What is wrong with the containing edges whose ends are nodes; `contained` are the nodes that
    earlier ones lead to. A node is reported when its second network turns up, and only then. -/
def nestingProblems (g : Graph) : (contained : List String) → List Edge → List Problem
  | _, [] => []
  | contained, e :: es =>
    match g.node? e.source, g.node? e.target with
    | some parent, some child =>
      (if parent.kind.canContain child.kind then []
        else [.invalidContainment e.id parent.kind child.kind])
      ++ (if contained.count child.id == 1 then [.multipleParents child.id] else [])
      ++ nestingProblems g (child.id :: contained) es
    | _, _ => nestingProblems g contained es

/-- What is wrong with containment: a cycle, or else each edge by itself. -/
def containmentProblems (g : Graph) : List Problem :=
  match g.containsCycle? with
  | some id => [.containsCycle id]
  | none => nestingProblems g [] g.containsEdges

/-! ## 4. Access -/

/-- The part an end plays in a rule. -/
inductive EndRole where
  | internet
  /-- A network, which only its own members may be joined with. -/
  | network (id : String)
  /-- A node with a security group, and the network around it. -/
  | compute (parent : Option String)
  deriving DecidableEq, Repr

/-- The part the end of an edge plays. -/
def endRole (g : Graph) (e : Edge) (endpoint : String) : Except Problem EndRole :=
  if endpoint == InfraDiagram.internet then .ok .internet
  else
    match g.node? endpoint with
    | none => .error (.danglingEdge e.id endpoint)
    | some n =>
      match n.kind with
      | .vpc => .ok (.network n.id)
      | .server => .ok (.compute ((g.parent? n.id).map Node.id))
      | .database => .ok (.compute ((g.parent? n.id).map Node.id))
      | .bucket => .error (.notSecurable e.id n.id)

/-- Whether two ends may be joined. -/
def EndRole.joins : EndRole → EndRole → Bool
  | .compute a, .compute b => a == b
  | .internet, .compute _ => true
  | .compute _, .internet => true
  | .network id, .compute parent => parent == some id
  | .compute parent, .network id => parent == some id
  | _, _ => false

/-- The first problem of an edge that lets traffic through. -/
def checkAccess (g : Graph) (e : Edge) : Except Problem Unit :=
  if e.source == e.target then .error (.selfConnection e.id)
  else
    match e.ports.find? fun p => p == 0 with
    | some port => .error (.invalidPort e.id port)
    | none => do
      let a ← endRole g e e.source
      let b ← endRole g e e.target
      if a.joins b then .ok () else .error (.crossNetwork e.id)

/-- The problems of a list of edges that let traffic through, at most one for each. -/
def accessProblems (g : Graph) (edges : List Edge) : List Problem :=
  edges.filterMap fun e =>
    match checkAccess g e with
    | .ok _ => none
    | .error p => some p

/-! ## 5. Warnings -/

/-- What is odd about a node. -/
def nodeWarnings (g : Graph) (n : Node) : List Warning :=
  (if Text.isBlank n.name then [.emptyName n.id] else [])
    ++ if n.kind == .vpc && (g.children n.id).isEmpty then [.emptyNetwork n.id] else []

/-! ## 6. The whole check -/

/-- Every structural problem of a diagram, in order. -/
def structureProblems (g : Graph) : List Problem :=
  nodeIdProblems [] g.nodes ++ edgeIdProblems [] g.edges
    ++ g.edges.flatMap (danglingProblems g)
    ++ containmentProblems g
    ++ accessProblems g g.accessEdges

/-- The check of a diagram without its name, for those who give it a name of their own. -/
def checkStructure (g : Graph) : Report :=
  ⟨structureProblems g, g.nodes.flatMap (nodeWarnings g)⟩

/-- The check of a diagram under a name. -/
def checkNamed (g : Graph) (name : String) : Report :=
  let r := checkStructure g
  { r with problems := stackNameProblems name ++ r.problems }

/-- The check of a diagram. -/
def check (g : Graph) : Report := checkNamed g g.name

end InfraDiagram.Graph
