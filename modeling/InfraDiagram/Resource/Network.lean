import InfraDiagram.Fragment.Basic

/-!
# Declaring networks
-/

namespace InfraDiagram.Resource

open Fragment (Step)

/-- The declaration of a network. -/
def network (symbol : Symbol) (settings : Settings) : List Step :=
  [.use .ec2,
    .line (symbol.var ++ " = ec2.Vpc(self, '" ++ symbol.resource ++ "', nat_gateways="
      ++ toString settings.natGateways.toNat ++ ")"),
    .define symbol.var]

/-- The fragment of the network made for nodes outside any network. -/
def defaultNetwork (symbol : Symbol) (settings : Settings) : Fragment :=
  Fragment.build .defaultNetwork (network symbol settings)

end InfraDiagram.Resource
