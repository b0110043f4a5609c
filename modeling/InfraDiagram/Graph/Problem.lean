import InfraDiagram.Graph.Basic

/-!
# What can be wrong with a diagram

A problem names the node or edge that has to be mended; its wording is `Problem.message`. Warnings
do not stand in the way of anything.
-/

namespace InfraDiagram

/-- A structural problem of a diagram. -/
inductive Problem where
  | emptyId
  | duplicateNode (id : String)
  | duplicateEdge (id : String)
  | danglingEdge (edge endpoint : String)
  | containsCycle (node : String)
  | invalidContainment (edge : String) (parent child : NodeKind)
  | multipleParents (node : String)
  | uncontained (node : String)
  | selfConnection (edge : String)
  | invalidPort (edge : String) (port : UInt16)
  | notSecurable (edge node : String)
  | crossNetwork (edge : String)
  | invalidStackName (name : String)
  deriving DecidableEq, Repr

namespace Problem

/-- The wording of a problem. -/
def message : Problem → String
  | .emptyId => "Element has an empty id"
  | .duplicateNode id => "Duplicate node id: " ++ id
  | .duplicateEdge id => "Duplicate edge id: " ++ id
  | .danglingEdge edge endpoint => "Edge " ++ edge ++ " references missing node " ++ endpoint
  | .containsCycle node => "Containment cycle detected at node " ++ node
  | .invalidContainment edge parent child =>
    "Edge " ++ edge ++ ": " ++ parent.text ++ " cannot contain " ++ child.text
  | .multipleParents node => "Node " ++ node ++ " is contained by more than one network"
  | .uncontained node => "Node " ++ node ++ " must be inside a network"
  | .selfConnection edge => "Edge " ++ edge ++ ": source and destination cannot be the same"
  | .invalidPort edge port =>
    "Edge " ++ edge ++ ": port " ++ toString port.toNat ++ " outside the range [1,65535]"
  | .notSecurable edge node =>
    "Edge " ++ edge ++ ": node " ++ node ++ " cannot carry a security group"
  | .crossNetwork edge => "Edge " ++ edge ++ ": endpoints belong to different networks"
  | .invalidStackName name =>
    "Invalid stack name '" ++ name ++ "': only letters, digits, '_' and '-' are allowed"

/-- The node or edge a problem points at. -/
def element? : Problem → Option String
  | .emptyId => none
  | .duplicateNode id => some id
  | .duplicateEdge id => some id
  | .danglingEdge edge _ => some edge
  | .containsCycle node => some node
  | .invalidContainment edge _ _ => some edge
  | .multipleParents node => some node
  | .uncontained node => some node
  | .selfConnection edge => some edge
  | .invalidPort edge _ => some edge
  | .notSecurable edge _ => some edge
  | .crossNetwork edge => some edge
  | .invalidStackName _ => none

end Problem

/-- Something odd that a diagram may well have. -/
inductive Warning where
  | emptyName (node : String)
  | emptyNetwork (node : String)
  deriving DecidableEq, Repr

/-- The wording of a warning. -/
def Warning.message : Warning → String
  | .emptyName node => "Node " ++ node ++ " has an empty name; a default name will be generated"
  | .emptyNetwork node => "Network " ++ node ++ " contains no resources"

/-- What a check of a diagram finds. -/
structure Report where
  problems : List Problem := []
  warnings : List Warning := []
  deriving DecidableEq, Repr

namespace Report

/-- A diagram without problems is valid. -/
def isValid (r : Report) : Bool := r.problems.isEmpty

/-- Success, or the first problem. -/
def toExcept (r : Report) : Except Problem Unit :=
  match r.problems with
  | [] => .ok ()
  | p :: _ => .error p

end Report

end InfraDiagram
