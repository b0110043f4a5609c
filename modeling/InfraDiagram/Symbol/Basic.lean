import InfraDiagram.Settings.Basic

/-!
# Symbols

Every resource has two names: a variable of the stack program (`a1`, `a2`, …), and the name under
which the stack registers it. What a resource brings along (its satellites: a security group, a
role, an asset, a deployment) takes both names from its owner, with a suffix.
-/

namespace InfraDiagram

/-! ## 1. Symbols and satellites -/

/-- The two names of a resource. -/
structure Symbol where
  var : String
  resource : String
  deriving DecidableEq, Repr

/-- What a resource may bring along. -/
inductive Satellite where
  | securityGroup
  | role
  | asset
  | deployment
  deriving DecidableEq, Repr

namespace Satellite

/-- All satellites, in their usual order. -/
def all : List Satellite := [.securityGroup, .role, .asset, .deployment]

/-- What a satellite adds to the variable of its owner. -/
def variableSuffix : Satellite → String
  | .securityGroup => "_sg"
  | .role => "_role"
  | .asset => "_asset"
  | .deployment => "_deployment"

/-- What a satellite adds to the registered name of its owner. -/
def resourceSuffix : Satellite → String
  | .securityGroup => "-SecurityGroup"
  | .role => " Role"
  | .asset => " Asset"
  | .deployment => " Deployment"

end Satellite

/-- The names of a satellite. -/
def Symbol.satellite (s : Symbol) (k : Satellite) : Symbol :=
  ⟨s.var ++ k.variableSuffix, s.resource ++ k.resourceSuffix⟩

/-! ## 2. Tables -/

/-- The symbols of nodes by their ids, in the order in which they were given out, and the symbol of
    the network made for nodes outside any network. -/
structure SymbolTable where
  entries : List (String × Symbol) := []
  defaultNetwork : Option Symbol := none
  deriving DecidableEq, Repr

/-- The symbol of a node. -/
def SymbolTable.get? (t : SymbolTable) (id : String) : Option Symbol :=
  (t.entries.find? fun e => e.1 == id).map Prod.snd

end InfraDiagram
