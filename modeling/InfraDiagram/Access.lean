import InfraDiagram.Fragment.Literal
import InfraDiagram.Resource.Engine
import InfraDiagram.Stack.Error

/-!
# Rules of access

Every edge that lets traffic through becomes rules on one security group, one for each port: rules
are never merged. Traffic comes from another node's group, or from anywhere if the other end is the
internet or the network around the node. The first edge from a server to a database also lets the
server read the database's secret.
-/

namespace InfraDiagram.Access

open Fragment (Step)

/-! ## 1. Which group, and from where -/

/-- Where the traffic of a rule comes from. -/
inductive Source where
  | anywhere
  /-- The members of a node's security group. -/
  | group (n : Node)
  deriving DecidableEq, Repr

/-- A rule on the security group of its target. -/
structure Rule where
  target : Node
  source : Source
  deriving DecidableEq, Repr

/-- The node of an end, if it has a security group. -/
def secured? (g : Graph) (endpoint : String) : Option Node := (g.node? endpoint).filter Node.isCompute

/-- What is wrong with an edge that no rule can be made of. -/
def refusal (g : Graph) (e : Edge) : Problem :=
  match ([g.node? e.source, g.node? e.target].filterMap id).find? fun n => n.kind == .bucket with
  | some bucket => .notSecurable e.id bucket.id
  | none => .crossNetwork e.id

/-- The rule an edge asks for. With one secured end, the direction of the edge does not matter. -/
def rule (g : Graph) (e : Edge) : Except Problem Rule :=
  match secured? g e.source, secured? g e.target with
  | some source, some target => .ok ⟨target, .group source⟩
  | none, some target =>
    if g.isAnySourceFor e.source target.id then .ok ⟨target, .anywhere⟩ else .error (refusal g e)
  | some target, none =>
    if g.isAnySourceFor e.target target.id then .ok ⟨target, .anywhere⟩ else .error (refusal g e)
  | none, none => .error (refusal g e)

/-! ## 2. Which ports -/

/-- The service that means whatever the engine of a database listens on. -/
def databaseService : String := "database"

/-- The port of the service an edge names. -/
def servicePort (services : Catalog) (target : Node) (service : String) :
    Except Unresolvable UInt16 :=
  let enginePort :=
    if Text.sameFolded service databaseService && target.kind == .database then
      (Engine.ofNode? target).map Engine.port
    else none
  match enginePort with
  | some port => .ok port
  | none =>
    match services.port? service with
    | some port => .ok port
    | none => .error (.noDefaultPort service)

/-- The ports of an edge: its own, or the one of its service. -/
def ports (services : Catalog) (e : Edge) (target : Node) : Except Unresolvable (List UInt16) :=
  match e.ports, e.service? with
  | [], none => .error .noPort
  | [], some service => (servicePort services target service).map fun port => [port]
  | explicit, _ => .ok explicit

/-! ## 3. The lines -/

/-- The symbol of a node that has been declared. -/
def symbolOf (symbols : SymbolTable) (n : Node) : Except Unresolvable Symbol :=
  match symbols.get? n.id with
  | some symbol => .ok symbol
  | none => .error (.notEmitted n.id)

/-- The port and the description that close a rule. -/
def portAndLabel (services : Catalog) (e : Edge) (port : UInt16) : String :=
  "ec2.Port.tcp(" ++ toString port.toNat ++ "), '"
    ++ Literal.escape (services.label port e.service?) ++ "')"

/-- A rule for traffic from anywhere. -/
def openRule (services : Catalog) (e : Edge) (target : Symbol) (port : UInt16) : List Step :=
  [.line ((target.satellite .securityGroup).var ++ ".add_ingress_rule(ec2.Peer.any_ipv4(), "
    ++ portAndLabel services e port)]

/-- A rule for traffic from another group. -/
def groupRule (services : Catalog) (e : Edge) (target source : Symbol) (port : UInt16) :
    List Step :=
  let group := (source.satellite .securityGroup).var
  [.reference group,
    .line ((target.satellite .securityGroup).var
      ++ ".connections.allow_from(ec2.Connections(security_groups=[" ++ group ++ "]), "
      ++ portAndLabel services e port)]

/-- The line that lets a server's role read a database's secret. -/
def secretGrant (database server : Symbol) : List Step :=
  let role := (server.satellite .role).var
  [.reference database.var,
    .reference role,
    .line (database.var ++ ".secret.grant_read(" ++ role ++ ")")]

/-- The ids of the server and the database between which a rule grants a secret. -/
def Rule.grantPair? (r : Rule) : Option (String × String) :=
  match r.source with
  | .group source =>
    if source.kind == .server && r.target.kind == .database then some (source.id, r.target.id)
    else none
  | .anywhere => none

/-- The steps of an edge's fragment; `grants` says whether a secret is granted with it. -/
def steps (services : Catalog) (symbols : SymbolTable) (e : Edge) (r : Rule) (grants : Bool) :
    Except Unresolvable (List Step) := do
  let ports ← ports services e r.target
  let target ← symbolOf symbols r.target
  let opening : List Step := [.use .ec2, .reference (target.satellite .securityGroup).var]
  match r.source with
  | .anywhere => .ok (opening ++ ports.flatMap (openRule services e target))
  | .group n =>
    let source ← symbolOf symbols n
    .ok (opening ++ ports.flatMap (groupRule services e target source)
      ++ if grants then secretGrant target source else [])

/-! ## 4. All edges -/

/-- The fragments of some edges; `granted` are the pairs whose secret is granted already. -/
def fragmentsOf (services : Catalog) (g : Graph) (symbols : SymbolTable) :
    (granted : List (String × String)) → List Edge → Except CompileError (List Fragment)
  | _, [] => .ok []
  | granted, e :: rest => do
    let r ← (rule g e).mapError .problem
    let new := r.grantPair?.toList.filter fun pair => !granted.contains pair
    let steps ← (steps services symbols e r (!new.isEmpty)).mapError (.unresolvable e.id)
    let others ← fragmentsOf services g symbols (new ++ granted) rest
    .ok (Fragment.build (.edge e.id) steps :: others)

/-- One fragment for each edge that lets traffic through, in order. -/
def fragments (services : Catalog) (g : Graph) (symbols : SymbolTable) :
    Except CompileError (List Fragment) :=
  fragmentsOf services g symbols [] g.accessEdges

end InfraDiagram.Access
