import InfraDiagram.Fragment.Basic

/-!
# Security groups and roles

What a server or a database brings along.
-/

namespace InfraDiagram.Resource

open Fragment (Step)

/-- The declaration of an owner's security group inside a network. -/
def securityGroup (owner network : Symbol) : List Step :=
  let group := owner.satellite .securityGroup
  [.use .ec2,
    .reference network.var,
    .line (group.var ++ " = ec2.SecurityGroup(self, '" ++ group.resource ++ "', vpc=" ++ network.var
      ++ ")"),
    .define group.var]

/-- The declaration of an owner's role, with the managed policy of the settings. -/
def serverRole (owner : Symbol) (settings : Settings) : List Step :=
  let role := owner.satellite .role
  [.use .iam,
    .line (role.var ++ "=iam.Role(self, '" ++ role.resource
      ++ "', assumed_by=iam.ServicePrincipal('ec2.amazonaws.com'))"),
    .line (role.var ++ ".add_managed_policy(iam.ManagedPolicy.from_aws_managed_policy_name('"
      ++ settings.managedPolicy ++ "'))"),
    .define role.var]

/-- The line that puts a resource into the public subnets of its network. -/
def publicSubnets : String :=
  "vpc_subnets=ec2.SubnetSelection(subnet_type=ec2.SubnetType.PUBLIC),"

end InfraDiagram.Resource
