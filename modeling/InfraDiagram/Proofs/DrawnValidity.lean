import InfraDiagram.Proofs.Lowering
import InfraDiagram.Proofs.Validity
import Mathlib.Data.List.Perm.Basic

/-!
# Which drawings are lowered to valid graphs

A drawing is well drawn (`WellDrawn`) if its ids are proper and distinct, its networks have servers
and databases inside, and every connection joins what may be joined. All this carries over to the
graph, with one exception: the containing edges get ids that join those of a network and of a block
inside by a slash, and such an id may be that of a connection, or of another containing edge.

So a well drawn drawing is lowered to a valid graph exactly if the ids made up for it are new
(`IdsApart`), which is certain where no id of a network or of a connection has a slash. With a slash
in an id it can fail.
-/

namespace InfraDiagram

/-! ## 1. Ends and ids in graphs -/

namespace Graph

/-- The ends of what is joined in a graph are nodes, or the internet. -/
theorem Joined.ends {g : Graph} {x y : String} (j : g.Joined x y) :
    ∀ z ∈ [x, y], z ∈ g.nodeIds ∨ z = internet := by
  have known : ∀ {n : Node}, n ∈ g.nodes → n.id ∈ g.nodeIds := fun hn => List.mem_map_of_mem hn
  intro z hz
  rw [List.mem_cons, List.mem_singleton] at hz
  cases j with
  | peers hm hn =>
    rcases hz with rfl | rfl
    · exact Or.inl (known hm)
    · exact Or.inl (known hn)
  | fromInternet hn =>
    rcases hz with rfl | rfl
    · exact Or.inr rfl
    · exact Or.inl (known hn)
  | toInternet hn =>
    rcases hz with rfl | rfl
    · exact Or.inl (known hn)
    · exact Or.inr rfl
  | fromNetwork hn _ within =>
    rcases hz with rfl | rfl
    · exact Or.inl (known within.1)
    · exact Or.inl (known hn)
  | toNetwork hn _ within =>
    rcases hz with rfl | rfl
    · exact Or.inl (known hn)
    · exact Or.inl (known within.1)

theorem slash_mem_childEdge (parent child : String) :
    '/' ∈ (Graph.childEdge parent child).id.toList := by
  unfold Graph.childEdge
  rw [String.toList_append, String.toList_append]
  simp

/-- Where the ids of networks have no slash, the id of a containing edge tells its ends. -/
theorem childEdge_inj {v w c b : String} (hv : '/' ∉ v.toList) (hw : '/' ∉ w.toList)
    (e : (Graph.childEdge v c).id = (Graph.childEdge w b).id) : v = w ∧ c = b := by
  have spelled : ∀ a b : String,
      (Graph.childEdge a b).id.toList = a.toList ++ '/' :: b.toList := by
    intro a b
    simp [Graph.childEdge, String.toList_append]
  have parent : ∀ {a : String} (b : String), '/' ∉ a.toList →
      (Graph.childEdge a b).id.toList.takeWhile (· != '/') = a.toList := by
    intro a b ha
    rw [spelled, List.takeWhile_append_of_pos fun x hx =>
      bne_iff_ne.mpr (ne_of_mem_of_not_mem hx ha)]
    simp
  obtain rfl : v = w := by
    rw [← String.toList_inj, ← parent c hv, ← parent b hw, e]
  have chars := congrArg String.toList e
  rw [spelled, spelled, List.append_cancel_left_eq, List.cons.injEq] at chars
  exact ⟨rfl, String.toList_inj.mp chars.2⟩

end Graph

namespace Document

/-! ## 2. Well drawn drawings -/

/-- The ends that a connection of a drawing may join. -/
inductive Joins (d : Document) : String → String → Prop where
  /-- Two servers or databases inside one network. -/
  | inside {v a b : Block} (hv : v ∈ d.blocks) (ha : a ∈ v.children) (hb : b ∈ v.children)
      (differ : a ≠ b) : Joins d a.id b.id
  /-- Two servers or databases outside any network. -/
  | outside {a b : Block} (ha : a ∈ d.blocks) (hb : b ∈ d.blocks) (ca : a.kind.isCompute = true)
      (cb : b.kind.isCompute = true) (differ : a ≠ b) : Joins d a.id b.id
  | fromInternet {b : Block} (hb : b ∈ d.lowered) (cb : b.kind.isCompute = true) :
      Joins d internet b.id
  | toInternet {b : Block} (hb : b ∈ d.lowered) (cb : b.kind.isCompute = true) :
      Joins d b.id internet
  | fromNetwork {v b : Block} (hv : v ∈ d.blocks) (hb : b ∈ v.children) : Joins d v.id b.id
  | toNetwork {v b : Block} (hv : v ∈ d.blocks) (hb : b ∈ v.children) : Joins d b.id v.id

/-- **A drawing in which every id, block and connection makes sense.** -/
structure WellDrawn (d : Document) : Prop where
  blockProper : ∀ b ∈ d.lowered, b.id ≠ "" ∧ b.id ≠ internet
  blocksDistinct : (d.lowered.map Block.id).Nodup
  inside : ∀ v ∈ d.blocks, ∀ c ∈ v.children, c.kind.isCompute = true
  connectionProper : ∀ c ∈ d.connections, c.id ≠ "" ∧ 0 ∉ c.ports
  connectionsDistinct : (d.connections.map Connection.id).Nodup
  joins : ∀ c ∈ d.connections, d.Joins c.source c.target

/-- **The ids that are made up for containing edges are new**: they differ from each other and from
    those of the connections. -/
structure IdsApart (d : Document) : Prop where
  nestings : (d.nestings.map Edge.id).Nodup
  connections : ∀ e ∈ d.nestings, ∀ c ∈ d.connections, e.id ≠ c.id

variable {d : Document}

theorem nodup_edgeIds_iff (distinct : (d.connections.map Connection.id).Nodup) :
    (d.toGraph.edges.map Edge.id).Nodup ↔ d.IdsApart := by
  have ids : d.toGraph.edges.map Edge.id =
      d.nestings.map Edge.id ++ d.connections.map Connection.id := by
    rw [edges_toGraph, List.map_append, List.map_map]
    rfl
  rw [ids, List.nodup_append]
  constructor
  · rintro ⟨nestings, -, apart⟩
    exact ⟨nestings, fun e he c hc =>
      apart _ (List.mem_map_of_mem he) _ (List.mem_map_of_mem hc)⟩
  · intro h
    refine ⟨h.nestings, distinct, fun x hx y hy => ?_⟩
    obtain ⟨e, he, rfl⟩ := List.mem_map.mp hx
    obtain ⟨c, hc, rfl⟩ := List.mem_map.mp hy
    exact h.connections e he c hc

/-! ## 3. Where blocks stand -/

/-- The blocks inside top-level blocks. -/
def inner (d : Document) : List Block := d.blocks.flatMap Block.children

theorem mem_inner {b : Block} : b ∈ d.inner ↔ ∃ v ∈ d.blocks, b ∈ v.children := List.mem_flatMap

theorem lowered_perm (d : Document) : d.lowered.Perm (d.blocks ++ d.inner) := by
  have together := List.flatMap_append_perm d.blocks (fun b => [b]) Block.children
  rw [List.flatMap_singleton'] at together
  exact together.symm

theorem map_target_nestings (d : Document) : d.nestings.map Edge.target = d.inner.map Block.id := by
  unfold nestings inner
  rw [List.map_flatMap, List.map_flatMap]
  refine List.flatMap_congr fun v _ => ?_
  rw [List.map_map]
  rfl

theorem toNode_mem {b : Block} (hb : b ∈ d.lowered) : b.toNode ∈ d.toGraph.nodes := by
  rw [nodes_toGraph]
  exact List.mem_map_of_mem hb

theorem id_mem {b : Block} (hb : b ∈ d.lowered) : b.id ∈ d.toGraph.nodeIds := by
  rw [nodeIds_toGraph]
  exact List.mem_map_of_mem hb

/-- What has a block inside is a network. -/
theorem kind_of_child {v c : Block} (hc : c ∈ v.children) : v.kind = .vpc := by
  cases v with
  | network id name inner => rfl
  | _ => cases hc

theorem contains_child {v c : Block} (hv : v ∈ d.blocks) (hc : c ∈ v.children) :
    d.toGraph.Contains v.toNode c.toNode := by
  refine ⟨toNode_mem (mem_lowered.mpr (Or.inl hv)), Graph.childEdge v.id c.id, ?_, ?_, ?_⟩
  · rw [containsEdges_toGraph]
    exact mem_nestings.mpr ⟨v, hv, c, hc, rfl⟩
  · rw [v.id_toNode]
    rfl
  · rw [c.id_toNode]
    rfl

namespace WellDrawn

variable (h : d.WellDrawn)
include h

theorem nodup_ids : (d.blocks.map Block.id ++ d.inner.map Block.id).Nodup := by
  rw [← List.map_append]
  exact ((lowered_perm d).map Block.id).nodup_iff.mp h.blocksDistinct

/-- No block is both at the top and inside. -/
theorem top_ne_inner {a b : Block} (ha : a ∈ d.blocks) (hb : b ∈ d.inner) : a.id ≠ b.id :=
  (List.nodup_append.mp h.nodup_ids).2.2 _ (List.mem_map_of_mem ha) _ (List.mem_map_of_mem hb)

theorem eq_of_id {a b : Block} (ha : a ∈ d.lowered) (hb : b ∈ d.lowered) (e : a.id = b.id) :
    a = b := List.inj_on_of_nodup_map h.blocksDistinct ha hb e

theorem nodup_targets : (d.nestings.map Edge.target).Nodup := by
  rw [map_target_nestings]
  exact (List.nodup_append.mp h.nodup_ids).2.1

/-- **A block inside a network has that network around it, and no other.** -/
theorem contains_child_iff {v c : Block} (hv : v ∈ d.blocks) (hc : c ∈ v.children) (n : Node) :
    d.toGraph.Contains n c.toNode ↔ n = v.toNode := by
  constructor
  · rintro ⟨hn, e, he, source, target⟩
    rw [containsEdges_toGraph] at he
    rw [nodes_toGraph] at hn
    rw [c.id_toNode] at target
    obtain ⟨b, hb, rfl⟩ := List.mem_map.mp hn
    -- only one containing edge leads to the child
    have same : e = Graph.childEdge v.id c.id :=
      List.inj_on_of_nodup_map h.nodup_targets he (mem_nestings.mpr ⟨v, hv, c, hc, rfl⟩) target
    rw [b.id_toNode, same] at source
    rw [h.eq_of_id hb (mem_lowered.mpr (Or.inl hv)) source.symm]
  · rintro rfl
    exact contains_child hv hc

/-- A block at the top has no network around it. -/
theorem not_contains_top {b : Block} (hb : b ∈ d.blocks) (n : Node) :
    ¬ d.toGraph.Contains n b.toNode := by
  rintro ⟨-, e, he, -, target⟩
  rw [containsEdges_toGraph] at he
  obtain ⟨v, hv, c, hc, rfl⟩ := mem_nestings.mp he
  rw [b.id_toNode] at target
  exact h.top_ne_inner hb (mem_inner.mpr ⟨v, hv, hc⟩) target.symm

/-! ## 4. Connections -/

/-- What a connection joins is different, and joined in the graph. -/
theorem joined {x y : String} (j : d.Joins x y) : x ≠ y ∧ d.toGraph.Joined x y := by
  have atTop : ∀ {b : Block}, b ∈ d.blocks → b ∈ d.lowered := fun hb =>
    mem_lowered.mpr (Or.inl hb)
  have below : ∀ {v b : Block}, v ∈ d.blocks → b ∈ v.children → b ∈ d.lowered := fun hv hb =>
    mem_lowered.mpr (Or.inr ⟨_, hv, hb⟩)
  have compute : ∀ {b : Block}, b.kind.isCompute = true → b.toNode.isCompute = true :=
    fun {b} cb => b.isCompute_toNode.trans cb
  cases j with
  | @inside v a b hv ha hb differ =>
    refine ⟨fun e => differ (h.eq_of_id (below hv ha) (below hv hb) e), ?_⟩
    rw [← a.id_toNode, ← b.id_toNode]
    refine .peers (toNode_mem (below hv ha)) (toNode_mem (below hv hb))
      (compute (h.inside v hv a ha)) (compute (h.inside v hv b hb)) fun n => ?_
    rw [h.contains_child_iff hv ha, h.contains_child_iff hv hb]
  | @outside a b ha hb ca cb differ =>
    refine ⟨fun e => differ (h.eq_of_id (atTop ha) (atTop hb) e), ?_⟩
    rw [← a.id_toNode, ← b.id_toNode]
    exact .peers (toNode_mem (atTop ha)) (toNode_mem (atTop hb)) (compute ca) (compute cb)
      fun n => iff_of_false (h.not_contains_top ha n) (h.not_contains_top hb n)
  | @fromInternet b hb cb =>
    refine ⟨(h.blockProper b hb).2.symm, ?_⟩
    rw [← b.id_toNode]
    exact .fromInternet (toNode_mem hb) (compute cb)
  | @toInternet b hb cb =>
    refine ⟨(h.blockProper b hb).2, ?_⟩
    rw [← b.id_toNode]
    exact .toInternet (toNode_mem hb) (compute cb)
  | @fromNetwork v b hv hb =>
    refine ⟨h.top_ne_inner hv (mem_inner.mpr ⟨v, hv, hb⟩), ?_⟩
    rw [← v.id_toNode, ← b.id_toNode]
    exact .fromNetwork (toNode_mem (below hv hb)) (compute (h.inside v hv b hb))
      (contains_child hv hb)
  | @toNetwork v b hv hb =>
    refine ⟨(h.top_ne_inner hv (mem_inner.mpr ⟨v, hv, hb⟩)).symm, ?_⟩
    rw [← v.id_toNode, ← b.id_toNode]
    exact .toNetwork (toNode_mem (below hv hb)) (compute (h.inside v hv b hb))
      (contains_child hv hb)

/-! ## 5. The graph -/

theorem edgeProper {e : Edge} (he : e ∈ d.toGraph.edges) : e.id ≠ "" := by
  rw [edges_toGraph, List.mem_append] at he
  rcases he with he | he
  · obtain ⟨v, _, c, _, rfl⟩ := mem_nestings.mp he
    intro empty
    have := Graph.slash_mem_childEdge v.id c.id
    rw [empty] at this
    cases this
  · obtain ⟨c, hc, rfl⟩ := List.mem_map.mp he
    exact (h.connectionProper c hc).1

theorem ends {e : Edge} (he : e ∈ d.toGraph.edges) : ∀ x ∈ [e.source, e.target],
    x ∈ d.toGraph.nodeIds ∨ (e.isAccess = true ∧ x = internet) := by
  rw [edges_toGraph, List.mem_append] at he
  rcases he with he | he
  · obtain ⟨v, hv, c, hc, rfl⟩ := mem_nestings.mp he
    intro x hx
    rw [List.mem_cons, List.mem_singleton] at hx
    rcases hx with rfl | rfl
    · exact Or.inl (id_mem (mem_lowered.mpr (Or.inl hv)))
    · exact Or.inl (id_mem (mem_lowered.mpr (Or.inr ⟨v, hv, hc⟩)))
  · obtain ⟨c, hc, rfl⟩ := List.mem_map.mp he
    intro x hx
    exact ((h.joined (h.joins c hc)).2.ends x hx).imp_right fun e => ⟨rfl, e⟩

/-- **The graph of a well drawn drawing is well formed, if the ids of its edges are distinct.** -/
theorem wellFormed (distinct : (d.toGraph.edges.map Edge.id).Nodup) : d.toGraph.WellFormed where
  nodeProper n hn := by
    rw [nodes_toGraph] at hn
    obtain ⟨b, hb, rfl⟩ := List.mem_map.mp hn
    rw [b.id_toNode]
    exact h.blockProper b hb
  nodesDistinct := by
    rw [nodeIds_toGraph]
    exact h.blocksDistinct
  edgeProper e he := h.edgeProper he
  edgesDistinct := distinct
  ends e he := h.ends he
  nests e he := by
    rw [containsEdges_toGraph] at he
    obtain ⟨v, hv, c, hc, rfl⟩ := mem_nestings.mp he
    exact ⟨v.toNode, toNode_mem (mem_lowered.mpr (Or.inl hv)),
      c.toNode, toNode_mem (mem_lowered.mpr (Or.inr ⟨v, hv, hc⟩)), v.id_toNode.symm,
      c.id_toNode.symm, v.kind_toNode.trans (kind_of_child hc),
      c.isCompute_toNode.trans (h.inside v hv c hc)⟩
  single := by
    rw [containsEdges_toGraph]
    exact h.nodup_targets
  joins e he := by
    rw [accessEdges_toGraph] at he
    obtain ⟨c, hc, rfl⟩ := List.mem_map.mp he
    obtain ⟨differ, joined⟩ := h.joined (h.joins c hc)
    exact ⟨differ, (h.connectionProper c hc).2, joined⟩

theorem valid_iff : d.toGraph.checkStructure.problems = [] ↔ d.IdsApart := by
  rw [← nodup_edgeIds_iff h.connectionsDistinct]
  show d.toGraph.structureProblems = [] ↔ _
  rw [Graph.structureProblems_eq_nil_iff]
  exact ⟨Graph.WellFormed.edgesDistinct, h.wellFormed⟩

/-! ## 6. Ids without slashes -/

theorem idsApart_of_noSlash (networks : ∀ v ∈ d.blocks, '/' ∉ v.id.toList)
    (connections : ∀ c ∈ d.connections, '/' ∉ c.id.toList) : d.IdsApart where
  nestings := by
    refine List.Nodup.map_on ?_ (List.Nodup.of_map _ h.nodup_targets)
    intro e he f hf same
    obtain ⟨v, hv, c, hc, rfl⟩ := mem_nestings.mp he
    obtain ⟨w, hw, b, hb, rfl⟩ := mem_nestings.mp hf
    obtain ⟨parents, children⟩ := Graph.childEdge_inj (networks v hv) (networks w hw) same
    rw [parents, children]
  connections e he c hc same := by
    obtain ⟨v, hv, b, hb, rfl⟩ := mem_nestings.mp he
    apply connections c hc
    rw [← same]
    exact Graph.slash_mem_childEdge v.id b.id

end WellDrawn

/-- **A well drawn drawing is lowered to a valid graph exactly if the ids made up for its containing
    edges are new**; they are, if no id of a top-level block or of a connection has a slash. -/
theorem drawing_valid_iff (d : Document) (h : d.WellDrawn) :
    (d.toGraph.checkStructure.problems = [] ↔ d.IdsApart) ∧
      ((∀ v ∈ d.blocks, '/' ∉ v.id.toList) → (∀ c ∈ d.connections, '/' ∉ c.id.toList) →
        d.toGraph.checkStructure.problems = []) :=
  ⟨h.valid_iff, fun networks connections =>
    h.valid_iff.mpr (h.idsApart_of_noSlash networks connections)⟩

/-- A network with a server inside. -/
def servedNetwork : List Block := [.network "net" "net" [.webServer "web" "web" "" "" none none]]

/-- A server in a network, with one connection from the internet. -/
def oneConnection (id : String) : Document where
  name := "shop"
  blocks := servedNetwork
  connections := [⟨id, internet, "web", [80]⟩]

theorem oneConnection_wellDrawn {id : String} (proper : id ≠ "") :
    (oneConnection id).WellDrawn where
  blockProper := (by decide : ∀ b ∈ servedNetwork.flatMap fun b => b :: b.children,
    b.id ≠ "" ∧ b.id ≠ internet)
  blocksDistinct := (by decide :
    ((servedNetwork.flatMap fun b => b :: b.children).map Block.id).Nodup)
  inside := (by decide : ∀ v ∈ servedNetwork, ∀ c ∈ v.children, c.kind.isCompute = true)
  connectionProper c hc := by
    rw [List.mem_singleton.mp hc]
    exact ⟨proper, (by decide : (0 : UInt16) ∉ [80])⟩
  connectionsDistinct := List.nodup_singleton _
  joins c hc := by
    have server : Block.webServer "web" "web" "" "" none none ∈ (oneConnection id).lowered :=
      List.mem_cons_of_mem _ List.mem_cons_self
    rw [List.mem_singleton.mp hc]
    exact .fromInternet server rfl

theorem oneConnection_valid : (oneConnection "http").WellDrawn ∧
    (oneConnection "http").toGraph.checkStructure.problems = [] :=
  have drawn : (oneConnection "http").WellDrawn := oneConnection_wellDrawn (by decide)
  ⟨drawn, (drawing_valid_iff _ drawn).2 (by decide) (by decide)⟩

/-- **A well drawn drawing that is refused**: the id of its connection is that of the containing
    edge. -/
theorem slashed_refused : (oneConnection "net/web").WellDrawn ∧
    (oneConnection "net/web").toGraph.checkStructure.problems = [.duplicateEdge "net/web"] :=
  ⟨oneConnection_wellDrawn (by decide), by decide⟩

end Document

end InfraDiagram
