import InfraDiagram.Graph.Check
import InfraDiagram.Proofs.Outcome
import Mathlib.Data.List.Nodup

/-!
# Well-formed diagrams

What a diagram without structural problems looks like, said without the check: `WellFormed`. Ids
are proper and distinct, every edge ends at nodes (or, if it lets traffic through, at the internet),
containing edges lead from networks to servers and databases, at most one to each, and an edge that
lets traffic through joins two ends in one of five ways (`Joined`).

The result is `wellFormed_of_structureProblems`. On the way the two look-ups of a diagram are told
by membership: `node?` finds the node of an id, `parent?` the network that contains a node.
-/

namespace InfraDiagram.Graph

/-! ## 1. The predicate -/

/-- A network of the diagram contains a node. -/
def Contains (g : Graph) (v n : Node) : Prop :=
  v ∈ g.nodes ∧ ∃ e ∈ g.containsEdges, e.source = v.id ∧ e.target = n.id

/-- The ends between which an edge may let traffic through. -/
inductive Joined (g : Graph) : String → String → Prop where
  /-- Two servers or databases in one network, or both in none. -/
  | peers {m n : Node} (hm : m ∈ g.nodes) (hn : n ∈ g.nodes) (cm : m.isCompute = true)
      (cn : n.isCompute = true) (same : ∀ v, g.Contains v m ↔ g.Contains v n) :
      Joined g m.id n.id
  | fromInternet {n : Node} (hn : n ∈ g.nodes) (cn : n.isCompute = true) :
      Joined g internet n.id
  | toInternet {n : Node} (hn : n ∈ g.nodes) (cn : n.isCompute = true) :
      Joined g n.id internet
  | fromNetwork {v n : Node} (hn : n ∈ g.nodes) (cn : n.isCompute = true)
      (within : g.Contains v n) : Joined g v.id n.id
  | toNetwork {v n : Node} (hn : n ∈ g.nodes) (cn : n.isCompute = true)
      (within : g.Contains v n) : Joined g n.id v.id

/-- **A diagram in which every id, end, containment and access makes sense.** -/
structure WellFormed (g : Graph) : Prop where
  nodeProper : ∀ n ∈ g.nodes, n.id ≠ "" ∧ n.id ≠ internet
  nodesDistinct : g.nodeIds.Nodup
  edgeProper : ∀ e ∈ g.edges, e.id ≠ ""
  edgesDistinct : (g.edges.map Edge.id).Nodup
  ends : ∀ e ∈ g.edges, ∀ x ∈ [e.source, e.target],
    x ∈ g.nodeIds ∨ (e.isAccess = true ∧ x = internet)
  nests : ∀ e ∈ g.containsEdges, ∃ v ∈ g.nodes, ∃ n ∈ g.nodes,
    e.source = v.id ∧ e.target = n.id ∧ v.kind = .vpc ∧ n.isCompute = true
  single : (g.containsEdges.map Edge.target).Nodup
  joins : ∀ e ∈ g.accessEdges,
    e.source ≠ e.target ∧ 0 ∉ e.ports ∧ g.Joined e.source e.target

/-! ## 2. Look-ups -/

theorem mem_of_node? {g : Graph} {id : String} {n : Node} (h : g.node? id = some n) :
    n ∈ g.nodes ∧ n.id = id :=
  ⟨List.mem_of_find?_eq_some h, by simpa using List.find?_some h⟩

theorem eq_of_id_eq {g : Graph} (ids : g.nodeIds.Nodup) {m n : Node} (hm : m ∈ g.nodes)
    (hn : n ∈ g.nodes) (h : m.id = n.id) : m = n :=
  List.inj_on_of_nodup_map ids hm hn h

theorem node?_id {g : Graph} (ids : g.nodeIds.Nodup) {n : Node} (hn : n ∈ g.nodes) :
    g.node? n.id = some n := by
  cases h : g.node? n.id with
  | none =>
    have := List.find?_eq_none.mp h n hn
    simp at this
  | some m =>
    obtain ⟨hm, e⟩ := mem_of_node? h
    rw [eq_of_id_eq ids hm hn e]

theorem mem_containsEdges {g : Graph} {e : Edge} :
    e ∈ g.containsEdges ↔ e ∈ g.edges ∧ e.isContains = true := List.mem_filter

/-- The network that `parent?` finds contains the node. -/
theorem contains_of_parent? {g : Graph} {n v : Node} (h : g.parent? n.id = some v) :
    g.Contains v n := by
  obtain ⟨e, he, hv⟩ := Option.bind_eq_some_iff.mp h
  obtain ⟨hm, hid⟩ := mem_of_node? hv
  have ht : e.target = n.id := by simpa using List.find?_some he
  exact ⟨hm, e, List.mem_of_find?_eq_some he, hid.symm, ht⟩

/-- Where a node has at most one containing edge, `parent?` finds the network that contains it. -/
theorem parent?_of_contains {g : Graph} (ids : g.nodeIds.Nodup)
    (single : (g.containsEdges.map Edge.target).Nodup) {n v : Node} (h : g.Contains v n) :
    g.parent? n.id = some v := by
  obtain ⟨hv, e, he, hs, ht⟩ := h
  have found : (g.containsEdges.find? fun e => e.target == n.id) = some e := by
    cases hf : g.containsEdges.find? fun e => e.target == n.id with
    | none =>
      have := List.find?_eq_none.mp hf e he
      simp [ht] at this
    | some e' =>
      have ht' : e'.target = n.id := by simpa using List.find?_some hf
      rw [List.inj_on_of_nodup_map single (List.mem_of_find?_eq_some hf) he (ht'.trans ht.symm)]
  unfold parent?
  rw [found]
  show g.node? e.source = some v
  rw [hs]
  exact node?_id ids hv

/-- The network around a node can be told by its id. -/
theorem contains_iff_of_parentIds {g : Graph} (ids : g.nodeIds.Nodup)
    (single : (g.containsEdges.map Edge.target).Nodup) {m n : Node}
    (h : (g.parent? m.id).map Node.id = (g.parent? n.id).map Node.id) (v : Node) :
    g.Contains v m ↔ g.Contains v n := by
  have transfer : ∀ {a b : Node}, (g.parent? a.id).map Node.id = (g.parent? b.id).map Node.id →
      g.Contains v a → g.Contains v b := by
    intro a b e ha
    rw [parent?_of_contains ids single ha, Option.map_some] at e
    obtain ⟨w, hw, hid⟩ := Option.map_eq_some_iff.mp e.symm
    have hb := contains_of_parent? hw
    rw [eq_of_id_eq ids hb.1 ha.1 hid] at hb
    exact hb
  exact ⟨transfer h, transfer h.symm⟩

/-! ## 3. What each check says when it finds nothing -/

theorem nodeIdProblems_nil : ∀ {seen : List String} {ns : List Node},
    nodeIdProblems seen ns = [] →
      (∀ n ∈ ns, n.id ≠ "" ∧ n.id ≠ internet ∧ n.id ∉ seen) ∧ (ns.map Node.id).Nodup
  | _, [], _ => ⟨fun _ h => absurd h List.not_mem_nil, List.nodup_nil⟩
  | seen, n :: ns, h => by
      unfold nodeIdProblems at h
      split at h
      · cases h
      · rename_i hne
        split at h
        · cases h
        · rename_i hin
          obtain ⟨hrest, hnd⟩ := nodeIdProblems_nil h
          simp only [Bool.or_eq_true, beq_iff_eq, List.contains_iff_mem, not_or] at hne hin
          refine ⟨fun m hm => ?_, ?_⟩
          · rcases List.mem_cons.mp hm with rfl | hm
            · exact ⟨hne, hin⟩
            · obtain ⟨h1, h2, h3⟩ := hrest m hm
              exact ⟨h1, h2, fun hs => h3 (List.mem_cons_of_mem _ hs)⟩
          · rw [List.map_cons, List.nodup_cons]
            refine ⟨fun hm => ?_, hnd⟩
            obtain ⟨m, hm, e⟩ := List.mem_map.mp hm
            exact (hrest m hm).2.2 (e ▸ List.mem_cons_self)

theorem edgeIdProblems_nil : ∀ {seen : List String} {es : List Edge},
    edgeIdProblems seen es = [] →
      (∀ e ∈ es, e.id ≠ "" ∧ e.id ∉ seen) ∧ (es.map Edge.id).Nodup
  | _, [], _ => ⟨fun _ h => absurd h List.not_mem_nil, List.nodup_nil⟩
  | seen, e :: es, h => by
      unfold edgeIdProblems at h
      split at h
      · cases h
      · rename_i hne
        split at h
        · cases h
        · rename_i hin
          obtain ⟨hrest, hnd⟩ := edgeIdProblems_nil h
          simp only [beq_iff_eq, List.contains_iff_mem] at hne hin
          refine ⟨fun f hf => ?_, ?_⟩
          · rcases List.mem_cons.mp hf with rfl | hf
            · exact ⟨hne, hin⟩
            · obtain ⟨h1, h2⟩ := hrest f hf
              exact ⟨h1, fun hs => h2 (List.mem_cons_of_mem _ hs)⟩
          · rw [List.map_cons, List.nodup_cons]
            refine ⟨fun hm => ?_, hnd⟩
            obtain ⟨f, hf, e'⟩ := List.mem_map.mp hm
            exact (hrest f hf).2 (e' ▸ List.mem_cons_self)

theorem danglingProblems_nil {g : Graph} {e : Edge} (h : danglingProblems g e = []) :
    ∀ x ∈ [e.source, e.target], x ∈ g.nodeIds ∨ (e.isAccess = true ∧ x = internet) := by
  intro x hx
  have hnil := List.map_eq_nil_iff.mp h
  have := List.filter_eq_nil_iff.mp hnil x hx
  simp only [Bool.and_eq_true, Bool.not_eq_true', Bool.and_eq_false_iff, beq_eq_false_iff_ne,
    List.contains_eq_mem, decide_eq_false_iff_not, not_and, Classical.not_not] at this
  by_cases hm : x ∈ g.nodeIds
  · exact Or.inl hm
  · refine Or.inr ?_
    cases ha : e.isAccess with
    | false => exact absurd (this (Or.inl ha)) hm
    | true =>
      refine ⟨rfl, Classical.byContradiction fun hi => hm (this (Or.inr hi))⟩

/-- Every edge of a list ends at nodes. -/
def EndAtNodes (g : Graph) (es : List Edge) : Prop :=
  ∀ e ∈ es, e.source ∈ g.nodeIds ∧ e.target ∈ g.nodeIds

theorem exists_node?_of_mem {g : Graph} {id : String} (h : id ∈ g.nodeIds) :
    ∃ n, g.node? id = some n := by
  obtain ⟨m, hm, e⟩ := List.mem_map.mp h
  cases hf : g.node? id with
  | some n => exact ⟨n, rfl⟩
  | none =>
    have := List.find?_eq_none.mp hf m hm
    simp [e] at this

/-- Going over the containing edges: each nests as it should, and none leads where an earlier one
    has led (`contained`). -/
theorem nestingProblems_nil {g : Graph} : ∀ {contained : List String} {es : List Edge},
    g.EndAtNodes es → contained.Nodup → nestingProblems g contained es = [] →
      (∀ e ∈ es, ∃ v ∈ g.nodes, ∃ n ∈ g.nodes,
        e.source = v.id ∧ e.target = n.id ∧ v.kind = .vpc ∧ n.isCompute = true) ∧
      (es.map Edge.target).Nodup ∧ ∀ e ∈ es, e.target ∉ contained
  | _, [], _, _, _ =>
      ⟨fun _ h => absurd h List.not_mem_nil, List.nodup_nil, fun _ h => absurd h List.not_mem_nil⟩
  | contained, e :: es, hends, hnd, h => by
      obtain ⟨v, hv⟩ := exists_node?_of_mem (hends e List.mem_cons_self).1
      obtain ⟨n, hn⟩ := exists_node?_of_mem (hends e List.mem_cons_self).2
      obtain ⟨hvm, hvid⟩ := mem_of_node? hv
      obtain ⟨hnm, hnid⟩ := mem_of_node? hn
      simp only [nestingProblems, hv, hn, List.append_eq_nil_iff, ite_eq_left_iff,
        ite_eq_right_iff, imp_false, Bool.not_eq_true, Bool.not_eq_false,
        List.cons_ne_self, beq_iff_eq] at h
      obtain ⟨⟨hcan, hcount⟩, hrest⟩ := h
      -- only the first repeat is reported, so `contained` has to be without repeats
      have hfresh : n.id ∉ contained := by
        intro hm
        exact hcount (List.count_eq_one_of_mem hnd hm)
      obtain ⟨hk, hts, hout⟩ := nestingProblems_nil
        (fun f hf => hends f (List.mem_cons_of_mem _ hf)) (List.nodup_cons.mpr ⟨hfresh, hnd⟩) hrest
      refine ⟨fun f hf => ?_, ?_, fun f hf => ?_⟩
      · rcases List.mem_cons.mp hf with rfl | hf
        · simp only [NodeKind.canContain, Bool.and_eq_true, beq_iff_eq] at hcan
          exact ⟨v, hvm, n, hnm, hvid.symm, hnid.symm, hcan.1, hcan.2⟩
        · exact hk f hf
      · rw [List.map_cons, List.nodup_cons]
        refine ⟨fun hm => ?_, hts⟩
        obtain ⟨f, hf, hft⟩ := List.mem_map.mp hm
        exact hout f hf (by rw [hft, ← hnid]; exact List.mem_cons_self)
      · rcases List.mem_cons.mp hf with rfl | hf
        · rw [← hnid]
          exact hfresh
        · exact fun hm => hout f hf (List.mem_cons_of_mem _ hm)

theorem accessProblems_nil {g : Graph} {es : List Edge} (h : accessProblems g es = []) :
    ∀ e ∈ es, checkAccess g e = .ok () := by
  intro e he
  have := List.filterMap_eq_nil_iff.mp h e he
  cases hc : checkAccess g e with
  | ok u => rfl
  | error p => rw [hc] at this; cases this

/-! ## 4. Joined ends -/

/-- What the role of an end says about it. -/
theorem endRole_ok {g : Graph} {e : Edge} {x : String} {r : EndRole} (h : endRole g e x = .ok r) :
    (x = InfraDiagram.internet ∧ r = .internet) ∨
    (∃ v ∈ g.nodes, v.id = x ∧ v.kind = .vpc ∧ r = .network v.id) ∨
    (∃ n ∈ g.nodes, n.id = x ∧ n.isCompute = true ∧
      r = .compute ((g.parent? n.id).map Node.id)) := by
  unfold endRole at h
  split at h
  · rename_i hx
    exact Or.inl ⟨by simpa using hx, (Except.ok.inj h).symm⟩
  · split at h
    · cases h
    · rename_i n hn
      obtain ⟨hm, hid⟩ := mem_of_node? hn
      split at h
      · rename_i hk
        exact Or.inr (Or.inl ⟨n, hm, hid, hk, (Except.ok.inj h).symm⟩)
      · rename_i hk
        exact Or.inr (Or.inr ⟨n, hm, hid, by rw [Node.isCompute, hk]; rfl, (Except.ok.inj h).symm⟩)
      · rename_i hk
        exact Or.inr (Or.inr ⟨n, hm, hid, by rw [Node.isCompute, hk]; rfl, (Except.ok.inj h).symm⟩)
      · cases h

/-- A network and a node that names it as the one around it. -/
theorem contains_of_joins {g : Graph} (ids : g.nodeIds.Nodup) {v n : Node} (hv : v ∈ g.nodes)
    (h : (g.parent? n.id).map Node.id = some v.id) : g.Contains v n := by
  obtain ⟨w, hw, hid⟩ := Option.map_eq_some_iff.mp h
  have hc := contains_of_parent? hw
  rw [eq_of_id_eq ids hc.1 hv hid] at hc
  exact hc

theorem joined_of_checkAccess {g : Graph} (ids : g.nodeIds.Nodup)
    (single : (g.containsEdges.map Edge.target).Nodup) {e : Edge}
    (h : checkAccess g e = .ok ()) :
    e.source ≠ e.target ∧ 0 ∉ e.ports ∧ g.Joined e.source e.target := by
  unfold checkAccess at h
  split at h
  · cases h
  · rename_i hne
    split at h
    · cases h
    · rename_i hport
      obtain ⟨a, ha, h⟩ := Outcome.bind_eq_ok.mp h
      obtain ⟨b, hb, h⟩ := Outcome.bind_eq_ok.mp h
      have hj : a.joins b = true := by
        split at h
        · assumption
        · cases h
      refine ⟨by simpa using hne, fun h0 => ?_, ?_⟩
      · have := List.find?_eq_none.mp hport 0 h0
        simp at this
      · -- five of the nine pairs of roles can be joined
        rcases endRole_ok ha with ⟨hs, rfl⟩ | ⟨v, hv, hs, -, rfl⟩ | ⟨m, hm, hs, cm, rfl⟩ <;>
          rcases endRole_ok hb with ⟨ht, rfl⟩ | ⟨w, hw, ht, -, rfl⟩ | ⟨n, hn, ht, cn, rfl⟩ <;>
          simp only [EndRole.joins, Bool.false_eq_true, beq_iff_eq] at hj
        · rw [hs, ← ht]
          exact .fromInternet hn cn
        · rw [← hs, ← ht]
          exact .fromNetwork hn cn (contains_of_joins ids hv hj)
        · rw [← hs, ht]
          exact .toInternet hm cm
        · rw [← hs, ← ht]
          exact .toNetwork hm cm (contains_of_joins ids hw hj)
        · rw [← hs, ← ht]
          exact .peers hm hn cm cn (contains_iff_of_parentIds ids single hj)

/-! ## 5. The whole check -/

/-- **A diagram without structural problems is well-formed.** -/
theorem wellFormed_of_structureProblems {g : Graph} (h : g.structureProblems = []) :
    g.WellFormed := by
  simp only [structureProblems, List.append_eq_nil_iff, List.flatMap_eq_nil_iff] at h
  obtain ⟨⟨⟨⟨hnodes, hedges⟩, hends⟩, hnest⟩, haccess⟩ := h
  obtain ⟨hproper, ids⟩ := nodeIdProblems_nil hnodes
  obtain ⟨heproper, eids⟩ := edgeIdProblems_nil hedges
  have atNodes : g.EndAtNodes g.containsEdges := by
    intro e he
    obtain ⟨hmem, hc⟩ := mem_containsEdges.mp he
    have hna : e.isAccess ≠ true := by simp [Edge.isAccess, hc]
    have hin : ∀ x ∈ [e.source, e.target], x ∈ g.nodeIds := fun x hx =>
      (danglingProblems_nil (hends e hmem) x hx).resolve_right fun h => hna h.1
    exact ⟨hin _ List.mem_cons_self, hin _ (List.mem_cons_of_mem _ List.mem_cons_self)⟩
  have hnest : nestingProblems g [] g.containsEdges = [] := by
    unfold containmentProblems at hnest
    split at hnest
    · cases hnest
    · exact hnest
  obtain ⟨nests, single, -⟩ := nestingProblems_nil atNodes List.nodup_nil hnest
  exact {
    nodeProper := fun n hn => ⟨(hproper n hn).1, (hproper n hn).2.1⟩
    nodesDistinct := ids
    edgeProper := fun e he => (heproper e he).1
    edgesDistinct := eids
    ends := fun e he => danglingProblems_nil (hends e he)
    nests, single
    joins := fun e he => joined_of_checkAccess ids single (accessProblems_nil haccess e he) }

end InfraDiagram.Graph
