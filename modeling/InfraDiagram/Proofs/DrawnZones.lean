import InfraDiagram.Proofs.Lowering
import InfraDiagram.Proofs.ZoneChoice

/-!
# Zones of drawn servers

A server drawn without a zone is lowered with a fixed zone of its own (`Block.defaultZone`), while a
server of a graph that names no zone gets the default zone of the settings. `Document.zoneless` is
the graph of a drawing in which servers drawn without a zone name none.

A drawing compiles as its zoneless graph does when the default zone of the settings is the fixed one,
whatever it is (`drawing_ignores_default_zone`). So the settings reach drawn servers exactly where it
does not matter, and a server drawn with an image and without a zone is placed in the fixed zone.
-/

namespace InfraDiagram

open Literal (escape)

/-! ## 1. Properties that are set and removed -/

namespace Fields

theorem get?_insert (key : String) (value : Value) (k : String) : ∀ fields : Fields,
    get? (insert key value fields) k = if key = k then some value else get? fields k
  | [] => by
      unfold insert get?
      by_cases here : key = k <;> simp [here]
  | f :: rest => by
      obtain ⟨k', v⟩ := f
      have ih := get?_insert key value k rest
      unfold insert
      unfold get? at ih ⊢
      split
      · by_cases here : key = k <;> simp [here]
      · split
        · rename_i same
          obtain rfl : key = k' := beq_iff_eq.mp same
          by_cases here : key = k <;> simp [here]
        · rename_i other
          have differ : key ≠ k' := fun e => other (beq_iff_eq.mpr e)
          by_cases there : k' = k
          · subst there
            simp [differ]
          · rw [List.find?_cons_of_neg (by simpa using there), ih,
              List.find?_cons_of_neg (by simpa using there)]

theorem get?_erase_self (fields : Fields) (key : String) :
    get? (fields.filter fun f => f.1 != key) key = none := by
  unfold get?
  rw [Option.map_eq_none_iff, List.find?_eq_none]
  intro f hf
  simpa using (List.mem_filter.mp hf).2

theorem get?_erase_of_ne (fields : Fields) {key k : String} (h : k ≠ key) :
    get? (fields.filter fun f => f.1 != key) k = get? fields k := by
  unfold get?
  rw [List.find?_filter]
  refine congrArg (Option.map Prod.snd) (congrArg (fun p => fields.find? p) (funext fun f => ?_))
  by_cases here : f.1 = k <;> simp [here, h]

end Fields

namespace Node

/-- The node without a property. -/
def without (n : Node) (key : String) : Node :=
  { n with properties := n.properties.filter fun f => f.1 != key }

variable (n : Node) {key k : String}

theorem property?_withProperty (value : Value) :
    (n.withProperty key value).property? k = if key = k then some value else n.property? k :=
  Fields.get?_insert key value k n.properties

theorem property?_without_self : (n.without key).property? key = none :=
  Fields.get?_erase_self n.properties key

theorem property?_without_of_ne (h : k ≠ key) : (n.without key).property? k = n.property? k :=
  Fields.get?_erase_of_ne n.properties h

theorem text?_without_of_ne (h : k ≠ key) : (n.without key).text? k = n.text? k := by
  unfold text?
  rw [n.property?_without_of_ne h]
  rfl

theorem text?_of_str {n : Node} {s : String} (h : n.property? key = some (.str s)) :
    n.text? key = .ok (Text.nonBlank? s) := by
  unfold text?
  rw [h]

theorem text?_of_absent {n : Node} (h : n.property? key = none) : n.text? key = .ok none := by
  unfold text?
  rw [h]

end Node

/-! ## 2. Zones of blocks -/

namespace Block

/-- A server drawn without a zone. -/
def leavesZone : Block → Bool
  | .webServer _ _ _ zone _ _ => Text.isBlank zone
  | _ => false

/-- A server drawn with a machine image and without a zone. -/
def asksZone : Block → Bool
  | .webServer _ _ amiId zone _ _ => !Text.isBlank amiId && Text.isBlank zone
  | _ => false

/-- The node of a block, without a zone if it is drawn without one. -/
def zonelessNode (b : Block) : Node :=
  if b.leavesZone then b.toNode.without Property.availabilityZone else b.toNode

theorem property?_withText {key k : String} (text : Option String) (n : Node) (h : key ≠ k) :
    (withText key text n).property? k = n.property? k := by
  unfold withText
  split
  · rw [n.property?_withProperty, if_neg h]
  · rfl

section WebServer

variable (id name amiId zone : String) (userData appPath : Option String)

theorem zone_webServer :
    (webServer id name amiId zone userData appPath).toNode.property? Property.availabilityZone =
      some (.str ((Text.nonBlank? zone).getD defaultZone)) := by
  unfold toNode
  rw [property?_withText _ _ (by decide), property?_withText _ _ (by decide),
    Node.property?_withProperty, if_pos rfl]

theorem ami_webServer :
    (webServer id name amiId zone userData appPath).toNode.property? Property.amiId =
      some (.str amiId) := by
  unfold toNode
  rw [property?_withText _ _ (by decide), property?_withText _ _ (by decide),
    Node.property?_withProperty, if_neg (by decide), Node.property?_withProperty, if_pos rfl]

end WebServer

/-- Only servers are drawn with a zone or without one. -/
theorem eq_webServer_of_kind {b : Block} (h : b.kind = .server) :
    ∃ id name amiId zone userData appPath,
      b = .webServer id name amiId zone userData appPath := by
  cases b with
  | webServer id name amiId zone userData appPath =>
    exact ⟨id, name, amiId, zone, userData, appPath, rfl⟩
  | _ => cases h

/-- A server that is drawn without a zone gets the fixed one. -/
theorem zone_of_leavesZone {b : Block} (h : b.leavesZone = true) :
    b.toNode.property? Property.availabilityZone = some (.str defaultZone) := by
  cases b with
  | webServer id name amiId zone userData appPath =>
    have blank : Text.nonBlank? zone = none := by
      unfold Text.nonBlank?
      exact if_pos h
    rw [zone_webServer, blank]
    rfl
  | _ => cases h

/-- No drawn server asks for a zone. -/
theorem not_asksZone_toNode (b : Block) : ¬ b.toNode.AsksZone := by
  intro asks
  obtain ⟨id, name, amiId, zone, userData, appPath, rfl⟩ :=
    eq_webServer_of_kind (b.kind_toNode.symm.trans asks.kind)
  have given := asks.zone
  rw [Node.text?_of_str (zone_webServer id name amiId zone userData appPath)] at given
  have fixed : Text.nonBlank? defaultZone = some defaultZone := by decide
  cases hz : Text.nonBlank? zone with
  | none =>
    rw [hz, Option.getD_none, fixed] at given
    cases given
  | some z =>
    obtain ⟨blank, rfl⟩ := (Text.nonBlank?_eq_some_iff zone z).mp hz
    rw [hz, Option.getD_some, hz] at given
    cases given

/-- **A server asks for a zone exactly if it is drawn with an image and without a zone.** -/
theorem asksZone_zonelessNode_iff (b : Block) : b.zonelessNode.AsksZone ↔ b.asksZone = true := by
  by_cases left : b.leavesZone = true
  · have node : b.zonelessNode = b.toNode.without Property.availabilityZone := if_pos left
    cases b with
    | webServer id name amiId zone userData appPath =>
      have image := Node.text?_of_str (ami_webServer id name amiId zone userData appPath)
      have asks : (webServer id name amiId zone userData appPath).asksZone =
          (!Text.isBlank amiId) := by
        show (!Text.isBlank amiId && Text.isBlank zone) = _
        rw [show Text.isBlank zone = true from left, Bool.and_true]
      rw [node, asks, Bool.not_eq_true']
      constructor
      · intro h
        obtain ⟨ami, named⟩ := h.image
        rw [Node.text?_without_of_ne _ (by decide), image] at named
        exact ((Text.nonBlank?_eq_some_iff amiId ami).mp (Except.ok.inj named)).1
      · intro named
        refine ⟨kind_toNode _, ⟨amiId, ?_⟩, Node.text?_of_absent (Node.property?_without_self _)⟩
        rw [Node.text?_without_of_ne _ (by decide), image,
          (Text.nonBlank?_eq_some_iff amiId amiId).mpr ⟨named, rfl⟩]
    | _ => cases left
  · have node : b.zonelessNode = b.toNode := if_neg left
    rw [node]
    refine iff_of_false b.not_asksZone_toNode fun asks => left ?_
    cases b with
    | webServer id name amiId zone userData appPath => exact (Bool.and_eq_true_iff.mp asks).2
    | _ => cases asks

end Block

/-! ## 3. Nodes without the fixed zone -/

namespace Node

/-- The node without its zone, if that is the fixed one. -/
def dropZone (n : Node) : Node :=
  if n.property? Property.availabilityZone = some (.str Block.defaultZone) then
    n.without Property.availabilityZone
  else n

variable (n : Node)

theorem dropZone_cases : n.dropZone = n ∨
    n.dropZone = n.without Property.availabilityZone ∧
      n.property? Property.availabilityZone = some (.str Block.defaultZone) := by
  unfold dropZone
  split
  · rename_i h
    exact Or.inr ⟨rfl, h⟩
  · exact Or.inl rfl

theorem property?_dropZone {key : String} (h : key ≠ Property.availabilityZone) :
    n.dropZone.property? key = n.property? key := by
  rcases n.dropZone_cases with e | ⟨e, -⟩
  · rw [e]
  · rw [e, n.property?_without_of_ne h]

theorem recasting_dropZone : Recasting dropZone where
  id n := by rcases n.dropZone_cases with e | ⟨e, -⟩ <;> rw [e]; rfl
  kind n := by rcases n.dropZone_cases with e | ⟨e, -⟩ <;> rw [e]; rfl
  name n := by rcases n.dropZone_cases with e | ⟨e, -⟩ <;> rw [e]; rfl
  engine n := by
    unfold Engine.ofNode?
    rw [n.property?_dropZone (by decide)]

theorem text?_dropZone {key : String} (h : key ≠ Property.availabilityZone) :
    n.dropZone.text? key = n.text? key := by
  unfold text?
  rw [n.property?_dropZone h, recasting_dropZone.id]

theorem positive?_dropZone {key : String} (h : key ≠ Property.availabilityZone) :
    n.dropZone.positive? key = n.positive? key := by
  unfold positive?
  rw [n.property?_dropZone h, recasting_dropZone.id]

end Node

namespace Resource

variable {settings : Settings}

/-- Where the fixed zone is the default, it need not be named. -/
theorem Server.ofNode_dropZone (fixed : settings.defaultZone = Block.defaultZone) (n : Node) :
    ofNode settings n.dropZone = ofNode settings n := by
  rcases n.dropZone_cases with e | ⟨e, zone⟩
  · rw [e]
  · have given : n.text? Property.availabilityZone = .ok (some Block.defaultZone) := by
      rw [Node.text?_of_str zone]
      decide
    have left : n.dropZone.text? Property.availabilityZone = .ok none := by
      rw [e]
      exact Node.text?_of_absent n.property?_without_self
    unfold ofNode
    rw [left, given, n.text?_dropZone (by decide), n.text?_dropZone (by decide),
      n.text?_dropZone (by decide), n.text?_dropZone (by decide)]
    simp only [Outcome.ok_bind, fixed, Option.getD_none, Option.getD_some]

theorem Database.ofNode_dropZone (n : Node) : ofNode settings n.dropZone = ofNode settings n := by
  unfold ofNode engineOf
  rw [n.text?_dropZone (by decide), n.text?_dropZone (by decide), n.positive?_dropZone (by decide),
    Node.recasting_dropZone.id]

theorem Bucket.ofNode_dropZone (n : Node) : ofNode n.dropZone = ofNode n := by
  unfold ofNode
  rw [n.text?_dropZone (by decide), n.text?_dropZone (by decide), n.text?_dropZone (by decide)]

end Resource

namespace Stack

open Resource
open Node (recasting_dropZone)

variable {settings : Settings} {g h : Graph} {name : String}

/-- Where the fixed zone is the default, nodes are declared alike without it. -/
theorem sameView_dropZone (fixed : settings.defaultZone = Block.defaultZone) (name : String) :
    SameView settings name Node.dropZone id := by
  intro g a n _
  have isPublic : (g.recast Node.dropZone).isPublic n.id = g.isPublic n.id :=
    Graph.isPublic_recast recasting_dropZone g n.id
  have steps : stepsOf (scopeOf settings (g.recast Node.dropZone) name a.table) n.dropZone =
      stepsOf (scopeOf settings g name a.table) n := by
    unfold stepsOf
    rw [recasting_dropZone.kind, symbol_recast recasting_dropZone,
      networkOf_recast recasting_dropZone, recasting_dropZone.id]
    simp only [scopeOf, Server.ofNode_dropZone fixed, Database.ofNode_dropZone,
      Bucket.ofNode_dropZone, isPublic]
  unfold emit
  rw [steps, recasting_dropZone.id]

/-- Where the fixed zone is the default, diagrams that are the same without it make the same stack. -/
theorem generateNamed_eq_of_recast (fixed : settings.defaultZone = Block.defaultZone)
    (same : g.recast Node.dropZone = h.recast Node.dropZone) :
    generateNamed settings g name = generateNamed settings h name := by
  have view := sameView_dropZone fixed name
  have seen : Outcome.Rel (fun p q => p.seen id = q.seen id) (parts settings g name)
      (parts settings h name) := by
    rw [← Outcome.map_eq_map_iff, ← parts_recast recasting_dropZone g view, same,
      parts_recast recasting_dropZone h view]
  rw [generateNamed_eq_map, generateNamed_eq_map, Outcome.map_eq_map_iff]
  generalize parts settings g name = x, parts settings h name = y at seen
  cases seen with
  | error => exact .error
  | ok e =>
    simp only [Parts.seen, Prod.mk.injEq, List.map_id] at e
    refine .ok ?_
    simp only [Parts.fragments, e.1, e.2.1, e.2.2]

end Stack

/-! ## 4. Drawings -/

namespace Document

open Stack (generateNamed)

variable (d : Document)

/-- **The graph of a drawing in which servers drawn without a zone name none.** -/
def zoneless : Graph := { d.toGraph with nodes := d.lowered.map Block.zonelessNode }

theorem recast_zoneless : d.zoneless.recast Node.dropZone = d.toGraph.recast Node.dropZone := by
  have node : ∀ b : Block, b.zonelessNode.dropZone = b.toNode.dropZone := by
    intro b
    unfold Block.zonelessNode
    split
    · rename_i left
      have drawn : b.toNode.dropZone = b.toNode.without Property.availabilityZone :=
        if_pos (Block.zone_of_leavesZone left)
      rw [drawn]
      refine if_neg ?_
      rw [Node.property?_without_self]
      exact fun h => by cases h
    · rfl
  have nodes : (d.lowered.map Block.zonelessNode).map Node.dropZone =
      d.toGraph.nodes.map Node.dropZone := by
    rw [nodes_toGraph, List.map_map, List.map_map]
    exact List.map_congr_left fun b _ => node b
  unfold zoneless Graph.recast
  rw [nodes]

/-- **A drawing compiles as its zoneless graph does when the fixed zone is the default.** -/
theorem drawing_ignores_default_zone (settings : Settings) (name : String) :
    generateNamed settings d.toGraph name =
      generateNamed (settings.withZone Block.defaultZone) d.zoneless name := by
  have unasked : ∀ n ∈ d.toGraph.nodes, ¬ n.AsksZone := by
    intro n hn
    rw [nodes_toGraph] at hn
    obtain ⟨b, _, rfl⟩ := List.mem_map.mp hn
    exact b.not_asksZone_toNode
  calc generateNamed settings d.toGraph name
      = generateNamed (settings.withZone Block.defaultZone) d.toGraph name :=
        (Stack.generateNamed_withZone_eq_iff settings d.toGraph name settings.defaultZone
          Block.defaultZone).mpr (Or.inr (Or.inr unasked))
    _ = generateNamed (settings.withZone Block.defaultZone) d.zoneless name :=
        Stack.generateNamed_eq_of_recast rfl d.recast_zoneless.symm

/-- **The default zone of the settings does not reach a drawing.** Every drawing compiles as its
    zoneless graph does when the fixed zone is the default. This is what the settings ask for exactly
    if it does not matter: nothing compiles, or the default zone is written as the fixed one, or no
    server is drawn with an image and without a zone. -/
theorem drawn_zone_fixed (settings : Settings) (name : String) :
    generateNamed settings d.toGraph name =
        generateNamed { settings with defaultZone := Block.defaultZone } d.zoneless name ∧
      (generateNamed settings d.toGraph name = generateNamed settings d.zoneless name ↔
        (∀ stack, generateNamed settings d.toGraph name ≠ .ok stack) ∨
          escape settings.defaultZone = Block.defaultZone ∨
          ∀ b ∈ d.lowered, b.asksZone = false) := by
  have fixed := d.drawing_ignores_default_zone settings name
  have written : escape Block.defaultZone = Block.defaultZone := by decide
  have unasked : (∀ n ∈ d.zoneless.nodes, ¬ n.AsksZone) ↔ ∀ b ∈ d.lowered, b.asksZone = false := by
    show (∀ n ∈ d.lowered.map Block.zonelessNode, ¬ n.AsksZone) ↔ _
    rw [List.forall_mem_map]
    refine forall₂_congr fun b _ => ?_
    rw [Block.asksZone_zonelessNode_iff, Bool.not_eq_true]
  refine ⟨fixed, ?_⟩
  rw [fixed, ← unasked, ← written, eq_comm (a := escape settings.defaultZone)]
  exact Stack.generateNamed_withZone_eq_iff settings d.zoneless name Block.defaultZone
    settings.defaultZone

/-- A server drawn with an image and without a zone. -/
def imageOnly : Document where
  name := "shop"
  blocks := [.webServer "web" "web" "ami-1" "" none none]

/-- **A drawn server that the settings place elsewhere stays in the fixed zone.** -/
theorem imageOnly_keeps_fixed_zone :
    generateNamed { defaultZone := "eu-west-1" } imageOnly.toGraph "shop" ≠
      generateNamed { defaultZone := "eu-west-1" } imageOnly.zoneless "shop" := by
  decide +kernel

end Document

end InfraDiagram
