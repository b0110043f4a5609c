import InfraDiagram.Graph.Basic

/-!
# Cycles of containment

A depth-first search over the ids that containing edges join. It starts at each node in order and
goes through the children of an id in edge order; the first child met that is still open (it lies
on the path to itself) is a node on a cycle.

The path is a stack of its own, not that of a recursion, so that the depth of a diagram is no limit.
-/

namespace InfraDiagram.Graph

/-- The ids that an id contains, in edge order, whether or not there are nodes of these ids. -/
def childIds (g : Graph) (id : String) : List String :=
  (g.containsEdges.filter fun e => e.source == id).map Edge.target

/-- How far the search has come with an id it has met. -/
inductive Mark where
  /-- The id lies on the path. -/
  | entered
  /-- All that is below the id has been searched. -/
  | done
  deriving DecidableEq, Repr

/-- A search under way. -/
structure Search where
  /-- The marks of ids, the last one given first. -/
  marks : List (String × Mark) := []
  /-- The ids from the one that is searched now up to where the search started, each with the number
      of its children that have been looked at. -/
  path : List (String × Nat) := []
  /-- The ids that are still to be started from. -/
  starts : List String
  deriving DecidableEq, Repr

/-- What a step of a search leads to. -/
inductive Search.Turn where
  | next (s : Search)
  /-- An id on the path was met again. -/
  | cycle (id : String)
  | finished
  deriving DecidableEq, Repr

namespace Search

/-- The mark of an id, if it has been met. -/
def mark? (s : Search) (id : String) : Option Mark := s.marks.lookup id

/-- An id that is met for the first time becomes the end of the path. -/
def enter (s : Search) (id : String) : Search :=
  { s with marks := (id, .entered) :: s.marks, path := (id, 0) :: s.path }

/-- The end of the path is left for good. -/
def leave (s : Search) (id : String) (above : List (String × Nat)) : Search :=
  { s with marks := (id, .done) :: s.marks, path := above }

/-- Looks at a child of the id at the end of the path. -/
def visit (s : Search) (child : String) : Turn :=
  match s.mark? child with
  | some .entered => .cycle child
  | some .done => .next s
  | none => .next (s.enter child)

/-- One step: the next child of the id at the end of the path is looked at, or the id is left if
    there is none. Without a path, the search starts anew from the next id, unless it has been met. -/
def step (children : String → List String) (s : Search) : Turn :=
  match s.path with
  | (id, looked) :: above =>
    match (children id)[looked]? with
    | some child => { s with path := (id, looked + 1) :: above }.visit child
    | none => .next (s.leave id above)
  | [] =>
    match s.starts with
    | [] => .finished
    | id :: rest =>
      let s := { s with starts := rest }
      if (s.mark? id).isSome then .next s else .next (s.enter id)

/-- Makes steps, at most so many, until there is none. -/
def run (children : String → List String) : (steps : Nat) → Search → Turn
  | 0, s => .next s
  | steps + 1, s =>
    match s.step children with
    | .next s => run children steps s
    | turn => turn

end Search

/-- The most steps that a search takes: an id is met at most once as a start, and entered and left
    at most once; an edge is looked at once at most. -/
def searchBound (g : Graph) : Nat := 2 * (g.nodes.length + g.edges.length) + 1

/-- A node on a cycle of containment, if one can be reached from a node of the graph. -/
def containsCycle? (g : Graph) : Option String :=
  match Search.run g.childIds g.searchBound { starts := g.nodeIds } with
  | .cycle id => some id
  | _ => none

end InfraDiagram.Graph
