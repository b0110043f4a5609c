import InfraDiagram.Symbol.Basic

/-!
# Fragments of the stack program

A fragment is a run of lines for one node or one edge, with what the lines need and give: modules
to import, variables they define, variables of earlier fragments they refer to, and outputs.
Fragments are built step by step (`Step`); a variable counts as a reference only if the fragment
has not defined it before.
-/

namespace InfraDiagram

/-! ## 1. What a fragment is about -/

/-- The modules a fragment may need. -/
inductive Module where
  | ec2
  | iam
  | rds
  | s3
  | s3Assets
  | s3Deployment
  deriving DecidableEq, Repr

/-- The statement that imports a module. -/
def Module.statement : Module → String
  | .ec2 => "from aws_cdk import aws_ec2 as ec2"
  | .iam => "from aws_cdk import aws_iam as iam"
  | .rds => "from aws_cdk import aws_rds as rds"
  | .s3 => "from aws_cdk import aws_s3 as s3"
  | .s3Assets => "from aws_cdk import aws_s3_assets as s3assets"
  | .s3Deployment => "from aws_cdk import aws_s3_deployment as s3_deployment"

/-- What a fragment was written for. -/
inductive Origin where
  | node (id : String)
  | edge (id : String)
  | defaultNetwork
  deriving DecidableEq, Repr

/-- How a message names an origin. -/
def Origin.text : Origin → String
  | .node id => "node " ++ id
  | .edge id => "edge " ++ id
  | .defaultNetwork => "default network"

/-- An output of the stack, by which a resource can be observed. -/
structure Output where
  nodeId : String
  outputId : String
  value : String
  deriving DecidableEq, Repr

/-- A line, and how far it is indented within the body of the stack. -/
structure Line where
  indent : Nat
  text : String
  deriving DecidableEq, Repr

/-! ## 2. Fragments -/

/-- A fragment. The references are in rising order. -/
structure Fragment where
  origin : Origin
  lines : List Line := []
  imports : List Module := []
  defines : List String := []
  references : List String := []
  outputs : List Output := []
  depth : Nat := 0
  deriving DecidableEq, Repr

namespace Fragment

/-- A name put into a list in rising order, unless it is there. -/
def insertName (name : String) : List String → List String
  | [] => [name]
  | n :: rest =>
    if name < n then name :: n :: rest
    else if name == n then n :: rest
    else n :: insertName name rest

/-- One step of building a fragment. -/
inductive Step where
  | line (text : String)
  | indent
  | dedent
  | use (m : Module)
  | define (v : String)
  | reference (v : String)
  | output (o : Output)
  deriving DecidableEq, Repr

/-- The line that declares an output. -/
def outputLine (o : Output) : String :=
  "cdk.CfnOutput(self, '" ++ o.outputId ++ "', value=" ++ o.value ++ ")"

/-- The fragment with one more line. -/
def addLine (f : Fragment) (text : String) : Fragment :=
  { f with lines := f.lines ++ [⟨f.depth, text⟩] }

/-- A fragment after a step. -/
def step (f : Fragment) : Step → Fragment
  | .line text => f.addLine text
  | .indent => { f with depth := f.depth + 1 }
  | .dedent => { f with depth := f.depth - 1 }
  | .use m => if f.imports.contains m then f else { f with imports := f.imports ++ [m] }
  | .define v => if f.defines.contains v then f else { f with defines := f.defines ++ [v] }
  | .reference v =>
    if f.defines.contains v then f else { f with references := insertName v f.references }
  | .output o =>
    let f := f.addLine (outputLine o)
    { f with outputs := f.outputs ++ [o] }

/-- A fragment after some steps. -/
def extend (f : Fragment) (steps : List Step) : Fragment := steps.foldl step f

/-- The fragment of a list of steps. -/
def build (origin : Origin) (steps : List Step) : Fragment := extend { origin } steps

/-- A fragment without lines. -/
def isEmpty (f : Fragment) : Bool := f.lines.isEmpty

end Fragment

end InfraDiagram
