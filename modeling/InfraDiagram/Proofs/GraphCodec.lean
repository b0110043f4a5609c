import InfraDiagram.Graph.Reader
import InfraDiagram.Proofs.Outcome

/-!
# Diagrams read back from their values

A diagram written as a value is read back as it was: `read` finds no document in the value and
decodes it as a graph, and every node and every edge comes back with its kind, its properties, its
ports and its service, also those that are left out when they are empty (`read_toValue`).

A decoder looks over all fields first and then fetches those it needs. For each of the two there is
one lemma (`inOrder_eq_ok`, `required_of_get?` with its kin), so that a record is read back once the
fields that it writes are known.
-/

namespace InfraDiagram

/-! ## 1. Decoders -/

namespace Decode

variable {α : Type} {decode : Value → Except DataError α} {encode : α → Value}

theorem succeeds_eq_ok {r : Except DataError α} {a : α} (h : r = .ok a) : succeeds r = .ok () := by
  rw [h]
  rfl

/-- Fields that all pass their checks pass them in order. -/
theorem inOrder_eq_ok {check : String → Value → Except DataError Unit} : ∀ {fields : Fields},
    (∀ f ∈ fields, check f.1 f.2 = .ok ()) → inOrder check fields = .ok ()
  | [], _ => rfl
  | f :: fields, h => by
      obtain ⟨first, rest⟩ := List.forall_mem_cons.mp h
      show (check f.1 f.2 >>= fun _ => inOrder check fields) = .ok ()
      rw [first, Outcome.ok_bind, inOrder_eq_ok rest]

section Fields

variable {fields : Fields} {name : String} {v : Value} {a default : α}

theorem required_of_get? (found : Fields.get? fields name = some v) (h : decode v = .ok a) :
    required fields name decode = .ok a := by
  simp only [required, found, h]

theorem optional_of_get? (found : Fields.get? fields name = some v) (h : decode v = .ok a) :
    optional fields name default decode = .ok a := by
  simp only [optional, found, h]

theorem optional_of_absent (absent : Fields.get? fields name = none) :
    optional fields name default decode = .ok default := by
  simp only [optional, absent]

end Fields

/-- **A list is read back if its items are.** -/
theorem list_arr_map (h : ∀ a, decode (encode a) = .ok a) (as : List α) :
    list decode (.arr (as.map encode)) = .ok as := by
  show each decode (as.map encode) = .ok as
  induction as with
  | nil => rfl
  | cons a as ih => rw [List.map_cons, each, h, Outcome.ok_bind, ih, Outcome.ok_bind]

/-- A number of 16 bits is below the bound that its reader asks for. -/
theorem word16_toNat (w : UInt16) : word16 (.int w.toNat) = .ok w := by
  have bounds : (0 : Int) ≤ w.toNat ∧ (w.toNat : Int) < (UInt16.size : Nat) := by
    have := w.toNat_lt_size
    omega
  have number : below UInt16.size "u16" (.int w.toNat) = .ok w.toNat := by
    rw [below, if_pos bounds, Int.toNat_natCast]
  rw [word16, number]
  exact congrArg Except.ok (UInt16.ofNat_toNat)

end Decode

open Decode

/-! ## 2. Nodes -/

theorem NodeKind.ofValue_text (k : NodeKind) : NodeKind.ofValue (.str k.text) = .ok k := by
  cases k <;> rfl

namespace Node

/-- The fields that a node is written as. -/
def written (n : Node) : Fields :=
  [("id", .str n.id), ("kind", .str n.kind.text), ("name", .str n.name)]
    ++ if n.properties.isEmpty then [] else [("properties", .obj n.properties)]

theorem toValue_eq (n : Node) : n.toValue = .obj n.written := rfl

theorem mem_written {n : Node} {f : String × Value} : f ∈ n.written ↔
    f = ("id", .str n.id) ∨ f = ("kind", .str n.kind.text) ∨ f = ("name", .str n.name) ∨
      n.properties ≠ [] ∧ f = ("properties", .obj n.properties) := by
  unfold written
  cases n.properties <;> simp

/-- Properties are left out exactly if there are none. -/
theorem get?_properties (n : Node) :
    Fields.get? n.written "properties" =
      if n.properties.isEmpty then none else some (.obj n.properties) := by
  unfold written
  split <;> simp [Fields.get?]

theorem has_display_name (n : Node) : Fields.has n.written "display_name" = false := by
  unfold written
  split <;> simp [Fields.has]

theorem checkField_written {n : Node} {f : String × Value} (hf : f ∈ n.written) :
    checkField n.written f.1 f.2 = .ok () := by
  rcases mem_written.mp hf with rfl | rfl | rfl | ⟨-, rfl⟩
  · rfl
  · exact succeeds_eq_ok (NodeKind.ofValue_text n.kind)
  · show (if Fields.has n.written "display_name" then _ else _) = _
    rw [n.has_display_name]
    rfl
  · rfl

/-- **A node is read back as it was.** -/
theorem ofValue_toValue (n : Node) : ofValue n.toValue = .ok n := by
  have checks : inOrder (checkField n.written) n.written = .ok () :=
    inOrder_eq_ok fun _ hf => checkField_written hf
  have id : required n.written "id" text = .ok n.id := required_of_get? rfl rfl
  have kind : required n.written "kind" NodeKind.ofValue = .ok n.kind :=
    required_of_get? rfl (NodeKind.ofValue_text n.kind)
  have name : required n.written "name" text = .ok n.name := required_of_get? rfl rfl
  have properties : optional n.written "properties" [] map = .ok n.properties := by
    have found := n.get?_properties
    cases h : n.properties with
    | nil =>
      rw [h] at found
      exact optional_of_absent found
    | cons f fs =>
      rw [h] at found
      exact optional_of_get? found rfl
  show ofFields n.written = .ok n
  rw [ofFields, checks, Outcome.ok_bind, id, Outcome.ok_bind, kind, Outcome.ok_bind,
    n.has_display_name, if_neg Bool.false_ne_true, name, Outcome.ok_bind, properties]
  rfl

end Node

/-! ## 3. Edges -/

/-- The tag that a link is written as. -/
def Link.tag : Link → String
  | .contains => "contains"
  | .access _ _ => "network_access"

namespace Edge

/-- The fields that an edge is written as: its own, and those of its link among them. -/
def written (e : Edge) : Fields :=
  [("from", .str e.source), ("id", .str e.id), ("kind", .str e.link.tag)]
    ++ (if e.ports.isEmpty then [] else [("ports", portsValue e.ports)])
    ++ e.service?.toList.map (fun s => ("service", .str s))
    ++ [("to", .str e.target)]

theorem toValue_eq (e : Edge) : e.toValue = .obj e.written := by
  obtain ⟨id, source, target, link⟩ := e
  cases link with
  | contains => rfl
  | access ports service => cases service <;> rfl

theorem mem_written {e : Edge} {f : String × Value} : f ∈ e.written ↔
    f = ("from", .str e.source) ∨ f = ("id", .str e.id) ∨ f = ("kind", .str e.link.tag) ∨
      (e.ports ≠ [] ∧ f = ("ports", portsValue e.ports)) ∨
      (∃ s, e.service? = some s ∧ f = ("service", .str s)) ∨ f = ("to", .str e.target) := by
  unfold written
  cases e.ports <;> cases e.service? <;> simp

/-- Ports are left out exactly if there are none. -/
theorem get?_ports (e : Edge) :
    Fields.get? e.written "ports" =
      if e.ports.isEmpty then none else some (portsValue e.ports) := by
  unfold written
  cases e.ports <;> cases e.service? <;> simp [Fields.get?]

/-- The service is left out exactly if there is none. -/
theorem get?_service (e : Edge) :
    Fields.get? e.written "service" = e.service?.map Value.str := by
  unfold written
  cases e.ports <;> cases e.service? <;> simp [Fields.get?]

theorem get?_to (e : Edge) : Fields.get? e.written "to" = some (.str e.target) := by
  unfold written
  cases e.ports <;> cases e.service? <;> simp [Fields.get?]

theorem list_portsValue (ports : List UInt16) : list word16 (portsValue ports) = .ok ports :=
  list_arr_map word16_toNat ports

theorem checkField_written {e : Edge} {f : String × Value} (hf : f ∈ e.written) :
    checkField f.1 f.2 = .ok () := by
  rcases mem_written.mp hf with rfl | rfl | rfl | ⟨-, rfl⟩ | ⟨s, -, rfl⟩ | rfl <;> rfl

theorem link_checkField_written {e : Edge} {f : String × Value} (hf : f ∈ e.written) :
    Link.checkField f.1 f.2 = .ok () := by
  rcases mem_written.mp hf with rfl | rfl | rfl | ⟨-, rfl⟩ | ⟨s, -, rfl⟩ | rfl
  · rfl
  · rfl
  · rfl
  · exact succeeds_eq_ok (list_portsValue e.ports)
  · rfl
  · rfl

/-- **The link of an edge is recovered from its tag and its fields**, which stand among those of the
    edge. -/
theorem link_ofFields_written (e : Edge) : Link.ofFields e.written = .ok e.link := by
  have checks : inOrder Link.checkField e.written = .ok () :=
    inOrder_eq_ok fun _ hf => link_checkField_written hf
  have ports : optional e.written "ports" [] (list word16) = .ok e.ports := by
    have found := e.get?_ports
    cases h : e.ports with
    | nil =>
      rw [h] at found
      exact optional_of_absent found
    | cons p ps =>
      rw [h] at found
      exact optional_of_get? found (list_portsValue _)
  have service : optional e.written "service" none (option text) = .ok e.service? := by
    have found := e.get?_service
    cases h : e.service? with
    | none =>
      rw [h] at found
      exact optional_of_absent found
    | some s =>
      rw [h] at found
      exact optional_of_get? found rfl
  have tag : required e.written "kind" Link.isContainsTag = .ok e.isContains := by
    refine required_of_get? (v := .str e.link.tag) rfl ?_
    unfold isContains
    cases e.link <;> rfl
  rw [Link.ofFields, tag, Outcome.ok_bind]
  cases link : e.link with
  | contains =>
    have contains : e.isContains = true := by rw [isContains, link]
    rw [contains, if_pos rfl]
  | access given named =>
    have contains : e.isContains = false := by rw [isContains, link]
    have given_eq : e.ports = given := by rw [Edge.ports, link]
    have named_eq : e.service? = named := by rw [Edge.service?, link]
    rw [contains, if_neg Bool.false_ne_true, checks, Outcome.ok_bind, ports, Outcome.ok_bind,
      service, given_eq, named_eq]
    rfl

/-- **An edge is read back as it was.** -/
theorem ofValue_toValue (e : Edge) : ofValue e.toValue = .ok e := by
  have checks : inOrder checkField e.written = .ok () :=
    inOrder_eq_ok fun _ hf => checkField_written hf
  have id : required e.written "id" text = .ok e.id := required_of_get? rfl rfl
  have source : required e.written "from" text = .ok e.source := required_of_get? rfl rfl
  have target : required e.written "to" text = .ok e.target := required_of_get? e.get?_to rfl
  rw [e.toValue_eq]
  show ofFields e.written = .ok e
  rw [ofFields, checks, Outcome.ok_bind, id, Outcome.ok_bind, source, Outcome.ok_bind, target,
    Outcome.ok_bind, e.link_ofFields_written]
  rfl

end Edge

/-! ## 4. Diagrams -/

namespace Graph

/-- The fields that a diagram is written as. -/
def written (g : Graph) : Fields :=
  [("edges", .arr (g.edges.map Edge.toValue)), ("id", .str g.id), ("name", .str g.name),
    ("nodes", .arr (g.nodes.map Node.toValue))]

/-- **The value of a diagram is never taken for an editor's document**: it always has nodes. -/
theorem isDocument_written (g : Graph) : Document.isDocument g.written = false := by
  simp [Document.isDocument, Fields.has, written]

theorem ofValue_toValue (g : Graph) : ofValue g.toValue = .ok g := by
  have nodes : list Node.ofValue (.arr (g.nodes.map Node.toValue)) = .ok g.nodes :=
    list_arr_map Node.ofValue_toValue g.nodes
  have edges : list Edge.ofValue (.arr (g.edges.map Edge.toValue)) = .ok g.edges :=
    list_arr_map Edge.ofValue_toValue g.edges
  have checks : inOrder checkField g.written = .ok () := by
    refine inOrder_eq_ok fun f hf => ?_
    simp only [written, List.mem_cons, List.not_mem_nil, or_false] at hf
    rcases hf with rfl | rfl | rfl | rfl
    · exact succeeds_eq_ok edges
    · rfl
    · rfl
    · exact succeeds_eq_ok nodes
  have id : optional g.written "id" "" text = .ok g.id := optional_of_get? rfl rfl
  have name : required g.written "name" text = .ok g.name := required_of_get? rfl rfl
  have nodes : optional g.written "nodes" [] (list Node.ofValue) = .ok g.nodes :=
    optional_of_get? rfl nodes
  have edges : optional g.written "edges" [] (list Edge.ofValue) = .ok g.edges :=
    optional_of_get? rfl edges
  show ofFields g.written = .ok g
  rw [ofFields, checks, Outcome.ok_bind, id, Outcome.ok_bind, name, Outcome.ok_bind, nodes,
    Outcome.ok_bind, edges]
  rfl

/-- **A diagram is read back from its value as it was.** The value is never taken for an editor's
    document. Every node and edge is read back by itself, an edge with its kind, and what is left
    out comes back: properties that are empty, ports that are empty and a service that is absent. -/
theorem read_toValue (g : Graph) :
    read g.toValue = .ok g ∧
      (∃ fields, g.toValue = .obj fields ∧ Document.isDocument fields = false) ∧
      (∀ n : Node, Node.ofValue n.toValue = .ok n ∧ ∃ fields, n.toValue = .obj fields ∧
        (Fields.get? fields "properties" = none ↔ n.properties = [])) ∧
      ∀ e : Edge, Edge.ofValue e.toValue = .ok e ∧ ∃ fields, e.toValue = .obj fields ∧
        Fields.get? fields "kind" =
          some (.str (if e.isContains then "contains" else "network_access")) ∧
        (Fields.get? fields "ports" = none ↔ e.ports = []) ∧
        (Fields.get? fields "service" = none ↔ e.service? = none) := by
  refine ⟨?_, ⟨g.written, rfl, g.isDocument_written⟩, fun n => ?_, fun e => ?_⟩
  · have flat : read g.toValue = if Document.isDocument g.written then
        ((Document.ofFields g.written).map Document.toGraph).mapError .data
      else (ofValue g.toValue).mapError .data := rfl
    rw [flat, g.isDocument_written, if_neg Bool.false_ne_true, g.ofValue_toValue]
    rfl
  · refine ⟨n.ofValue_toValue, n.written, rfl, ?_⟩
    rw [n.get?_properties]
    cases n.properties <;> simp
  · refine ⟨e.ofValue_toValue, e.written, e.toValue_eq, ?_, ?_, ?_⟩
    · show some (Value.str e.link.tag) = _
      unfold Edge.isContains
      cases e.link <;> rfl
    · rw [e.get?_ports]
      cases e.ports <;> simp
    · rw [e.get?_service]
      cases e.service? <;> simp

end Graph

end InfraDiagram
