import InfraDiagram.Fragment.Literal
import InfraDiagram.Resource.Property
import InfraDiagram.Resource.Satellite

/-!
# Declaring servers

A server is declared with its security group, its role and its machine image; with an application
it also gets an asset that is downloaded and unpacked, and with user data a script. Its address is
an output.
-/

namespace InfraDiagram.Resource

open Fragment (Step)
open Literal (escape)

/-- What the properties of a server say, with the settings for what they do not say. -/
structure Server where
  ami : Option String
  zone : String
  instanceType : String
  userData : Option String
  appPath : Option String
  deriving DecidableEq, Repr

namespace Server

/-- A server from the properties of its node. -/
def ofNode (settings : Settings) (n : Node) : Except CompileError Server := do
  let ami ← n.text? Property.amiId
  let zone ← n.text? Property.availabilityZone
  let instanceType ← n.text? Property.instanceType
  let userData ← n.text? Property.userData
  let appPath ← n.text? Property.appPath
  .ok {
    ami, zone := zone.getD settings.defaultZone
    instanceType := instanceType.getD settings.instanceType, userData, appPath }

/-- The machine image: the one of the zone, or the standard one. -/
def machineImage (s : Server) : String :=
  match s.ami with
  | some ami =>
    "ec2.MachineImage.generic_linux(\x7b\"" ++ escape s.zone ++ "\": \"" ++ escape ami ++ "\"\x7d)"
  | none => "ec2.AmazonLinuxImage(generation=ec2.AmazonLinuxGeneration.AMAZON_LINUX_2)"

/-- The declaration of the server itself. -/
def declaration (s : Server) (symbol network : Symbol) (isPublic : Bool) : List Step :=
  [.line (symbol.var ++ " = ec2.Instance(self, '" ++ symbol.resource ++ "',"),
    .indent,
    .line ("instance_type=ec2.InstanceType('" ++ escape s.instanceType ++ "'),"),
    .line ("machine_image=" ++ s.machineImage ++ ",")]
  ++ (if isPublic then [.line publicSubnets] else [])
  ++ [.line ("vpc=" ++ network.var ++ ","),
    .line ("security_group=" ++ (symbol.satellite .securityGroup).var ++ ","),
    .line ("role=" ++ (symbol.satellite .role).var),
    .dedent,
    .line ")",
    .define symbol.var]

/-- The asset of an application, and the commands that fetch and unpack it. -/
def application (symbol : Symbol) (path : String) : List Step :=
  let asset := symbol.satellite .asset
  let filepath := symbol.var ++ "_filepath"
  [.use .s3Assets,
    .line (asset.var ++ "=s3assets.Asset(self, '" ++ asset.resource ++ "', path='" ++ escape path
      ++ "')"),
    .line (asset.var ++ ".grant_read(" ++ (symbol.satellite .role).var ++ ")"),
    .line (filepath ++ "=" ++ symbol.var ++ ".user_data.add_s3_download_command(bucket="
      ++ asset.var ++ ".bucket, bucket_key=" ++ asset.var ++ ".s3_object_key)"),
    .line (symbol.var ++ ".user_data.add_commands(f'cp \x7b" ++ filepath ++ "\x7d app.zip')"),
    .line (symbol.var ++ ".user_data.add_commands('unzip app.zip')"),
    .define asset.var,
    .define filepath]

/-- The script of a server. -/
def script (symbol : Symbol) (text : String) : List Step :=
  [.line (symbol.var ++ ".add_user_data('" ++ escape text ++ "')")]

/-- The output that gives a server's address. -/
def address (nodeId : String) (symbol : Symbol) : Output :=
  ⟨nodeId, symbol.resource ++ " IP Address", symbol.var ++ ".instance_public_ip"⟩

/-- All steps of a server's fragment. -/
def steps (s : Server) (settings : Settings) (nodeId : String) (symbol network : Symbol)
    (isPublic : Bool) : List Step :=
  securityGroup symbol network
    ++ serverRole symbol settings
    ++ s.declaration symbol network isPublic
    ++ (match s.appPath with
      | some path => application symbol path
      | none => [])
    ++ (match s.userData with
      | some text => script symbol text
      | none => [])
    ++ [.output (address nodeId symbol)]

end Server

end InfraDiagram.Resource
