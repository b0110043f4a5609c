import InfraDiagram.Settings.Catalog

/-!
# Settings of the compilation

Every setting has a default, so that a settings file only lists what it changes. Settings are
usable when the name of the stack's class is an identifier and no service has port zero.
-/

namespace InfraDiagram

/-- How the names of resources are told apart. -/
inductive NamingScheme where
  /-- Every name has a number: `Server1`, `Server2`. -/
  | counted
  /-- The first name stands alone, later ones have a number: `Server`, `Server1`. -/
  | bare
  deriving DecidableEq, Repr

/-- The name of a naming scheme in a document. -/
def NamingScheme.text : NamingScheme → String
  | .counted => "counted"
  | .bare => "bare"

/-- The settings of a compilation. -/
structure Settings where
  /-- The name of the class of the stack. -/
  stackClass : String := "CdkWorkshopStack"
  naming : NamingScheme := .counted
  /-- Servers and databases outside any network get a network made for them. -/
  implicitVpc : Bool := true
  natGateways : UInt32 := 1
  instanceType : String := "t3.nano"
  databaseInstanceType : String := "t3.micro"
  /-- The storage of a database, in GiB. -/
  allocatedStorage : UInt32 := 10
  databaseNamePrefix : String := "hermes"
  /-- The managed policy every server role gets. -/
  managedPolicy : String := "AmazonSSMManagedInstanceCore"
  defaultZone : String := "us-east-1"
  services : Catalog := Catalog.standard
  deriving DecidableEq, Repr

namespace Settings

/-- Why settings are of no use. -/
inductive Fault where
  | invalidClass (name : String)
  | zeroPort (service : String)
  | unsupportedFile (path : String)
  deriving DecidableEq, Repr

/-- The wording of a fault. -/
def Fault.message : Fault → String
  | .invalidClass name => "stack_class '" ++ name ++ "' is not a valid class name"
  | .zeroPort service => "service '" ++ service ++ "' has port 0"
  | .unsupportedFile path => "unsupported configuration file: " ++ path

/-- Refuses settings that cannot be written into a stack program. -/
def validate (s : Settings) : Except Fault Unit :=
  if !Text.isIdentifier s.stackClass then .error (.invalidClass s.stackClass)
  else
    match s.services.services.find? fun service => service.port == 0 with
    | some service => .error (.zeroPort service.name)
    | none => .ok ()

/-- The settings with a service added or replaced. -/
def withService (s : Settings) (service : Service) : Settings :=
  { s with services := s.services.insert service }

end Settings

end InfraDiagram
