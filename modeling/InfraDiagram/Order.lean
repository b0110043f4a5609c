import InfraDiagram.Stack.Error

/-!
# The order of declaration

A network is declared before what it contains. Of the nodes that could come next the one that
stands first in the diagram is taken, so nodes that do not depend on each other keep their order.
Positions stand for nodes; of several nodes with one id the last is meant by an edge.

The order is worked out by counting: each position knows how many constraints hold it back, and is
counted off whenever something that has to come before it is taken.
-/

namespace InfraDiagram.Order

/-! ## 1. What has to come before what -/

/-- The position of the last node of an id. -/
def lastPosition? (id : String) : List Node → Option Nat
  | [] => none
  | n :: rest =>
    match lastPosition? id rest with
    | some i => some (i + 1)
    | none => if n.id == id then some 0 else none

/-- The position that an end of an edge means. -/
def position (g : Graph) (e : Edge) (endpoint : String) : Except CompileError Nat :=
  match lastPosition? endpoint g.nodes with
  | some i => .ok i
  | none => .error (.problem (.danglingEdge e.id endpoint))

/-- For each containing edge the position that comes first and the one that comes later. -/
def constraints (g : Graph) : List Edge → Except CompileError (List (Nat × Nat))
  | [] => .ok []
  | e :: rest => do
    let before ← position g e e.source
    let after ← position g e e.target
    let others ← constraints g rest
    .ok ((before, after) :: others)

/-! ## 2. Counting down -/

/-- The positions that have to come after a position, one for each constraint. -/
def dependents (pairs : List (Nat × Nat)) (i : Nat) : List Nat :=
  (pairs.filter fun p => p.1 == i).map Prod.snd

/-- A position put into a list in rising order, also if it is there already. -/
def enqueue (i : Nat) : List Nat → List Nat
  | [] => [i]
  | j :: rest => if i ≤ j then i :: j :: rest else j :: enqueue i rest

/-- How far an order has been worked out. -/
structure Progress where
  /-- For each position, the number of constraints that still hold it back. -/
  waits : List Nat
  /-- The positions that became ready and have not been taken, in rising order. -/
  ready : List Nat
  /-- The positions taken, in their order. -/
  taken : List Nat := []
  /-- The positions that the last one taken is still to be counted off for. -/
  pending : List Nat := []
  deriving DecidableEq, Repr

namespace Progress

/-- Nothing is taken yet. What no constraint holds back is ready. -/
def start (pairs : List (Nat × Nat)) (size : Nat) : Progress :=
  let waits := (List.range size).map fun i => pairs.countP fun p => p.2 == i
  { waits, ready := (List.range size).filter fun i => waits[i]? == some 0 }

/-- One constraint less holds a position back. It becomes ready with the last one. -/
def release (s : Progress) (i : Nat) : Progress :=
  let waits := s.waits.modify i fun n => n - 1
  { s with waits, ready := if waits[i]? == some 0 then enqueue i s.ready else s.ready }

/-- The next step, if there is one: a pending position is released, or, when none is pending, the
    first position that is ready is taken. -/
def step (pairs : List (Nat × Nat)) (s : Progress) : Option Progress :=
  match s.pending with
  | i :: rest => some { s.release i with pending := rest }
  | [] =>
    match s.ready with
    | [] => none
    | i :: rest =>
      some { s with ready := rest, taken := s.taken ++ [i], pending := dependents pairs i }

/-- Makes steps, at most so many, until there is none. -/
def run (pairs : List (Nat × Nat)) : (steps : Nat) → Progress → Progress
  | 0, s => s
  | steps + 1, s =>
    match s.step pairs with
    | none => s
    | some next => run pairs steps next

end Progress

/-! ## 3. The order -/

/-- The end of the work on constraints between so many positions. Every position is taken once at
    most, and counted off once for each constraint. -/
def settle (pairs : List (Nat × Nat)) (size : Nat) : Progress :=
  (Progress.start pairs size).run pairs (size + pairs.length)

/-- The id of the first node that is still held back. -/
def stuckId (g : Graph) (s : Progress) : String :=
  match (s.waits.findIdx? fun n => 0 < n).bind fun i => g.nodes[i]? with
  | some n => n.id
  | none => ""

/-- The nodes of a diagram in the order of their declaration. On a cycle the error names the first
    node that never becomes ready. -/
def order (g : Graph) : Except CompileError (List Node) := do
  let pairs ← constraints g g.containsEdges
  let last := settle pairs g.nodes.length
  if last.taken.length < g.nodes.length then .error (.cycle (stuckId g last))
  else .ok (last.taken.filterMap fun i => g.nodes[i]?)

end InfraDiagram.Order
