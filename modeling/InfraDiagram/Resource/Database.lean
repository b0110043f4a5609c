import InfraDiagram.Fragment.Literal
import InfraDiagram.Resource.Engine
import InfraDiagram.Resource.Property
import InfraDiagram.Resource.Satellite

/-!
# Declaring databases

A database is declared with its security group. Its engine has to be given; its name is made of the
prefix of the settings, the name of the stack and its own registered name.
-/

namespace InfraDiagram.Resource

open Fragment (Step)
open Literal (escape)

/-- What the properties of a database say, with the settings for what they do not say. -/
structure Database where
  engine : Engine
  instanceType : String
  storage : Nat
  deriving DecidableEq, Repr

namespace Database

/-- The engine a node has to name. -/
def engineOf (n : Node) : Except CompileError Engine := do
  match ← n.text? Property.engine with
  | none => .error (.unsupported n.id .engineMissing)
  | some s =>
    match Engine.ofText? s with
    | some engine => .ok engine
    | none => .error (.unsupported n.id (.engineUnknown (Engine.normalize s)))

/-- A database from the properties of its node. -/
def ofNode (settings : Settings) (n : Node) : Except CompileError Database := do
  let engine ← engineOf n
  let instanceType ← n.text? Property.instanceType
  let storage ← n.positive? Property.allocatedStorage
  .ok {
    engine, instanceType := instanceType.getD settings.databaseInstanceType
    storage := storage.getD settings.allocatedStorage.toNat }

/-- The name of a database. -/
def databaseName (settings : Settings) (stackName : String) (symbol : Symbol) : String :=
  settings.databaseNamePrefix ++ "-" ++ stackName ++ "-" ++ symbol.resource

/-- The declaration of the database itself. -/
def declaration (d : Database) (name : String) (symbol network : Symbol) (isPublic : Bool) :
    List Step :=
  [.use .rds,
    .line (symbol.var ++ " = rds.DatabaseInstance(self, '" ++ symbol.resource ++ "',"),
    .indent,
    .line ("instance_type=ec2.InstanceType('" ++ escape d.instanceType ++ "'), "),
    .line ("engine=rds.DatabaseInstanceEngine." ++ d.engine.constant ++ ","),
    .line ("vpc=" ++ network.var ++ ", "),
    .line ("security_groups=[" ++ (symbol.satellite .securityGroup).var ++ "],")]
  ++ (if isPublic then [.line publicSubnets] else [])
  ++ [.line ("credentials=rds.Credentials.from_generated_secret('" ++ d.engine.text ++ "_user'),"),
    .line ("database_name='" ++ escape name ++ "',"),
    .line ("allocated_storage=" ++ toString d.storage ++ ","),
    .line "multi_az=False",
    .dedent,
    .line ")",
    .define symbol.var]

/-- All steps of a database's fragment. -/
def steps (d : Database) (settings : Settings) (stackName : String) (symbol network : Symbol)
    (isPublic : Bool) : List Step :=
  securityGroup symbol network
    ++ d.declaration (databaseName settings stackName symbol) symbol network isPublic

end Database

end InfraDiagram.Resource
