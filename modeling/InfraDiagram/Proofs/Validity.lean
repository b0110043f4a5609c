import InfraDiagram.Proofs.Compilation
import InfraDiagram.Proofs.CycleSearch

/-!
# The check accepts exactly the well-formed diagrams

`wellFormed_of_structureProblems` says that a diagram without structural problems is well formed.
Here is the converse, check by check: on a well-formed diagram none of them finds anything
(`structureProblems_eq_nil_iff`).

Nothing is asked of containment beyond its single edges. That a well-formed diagram has no cycle of
containment follows: its ids can be ranked, networks below servers and databases, so that every
containing edge leads upwards (`rankOf_lt_of_encloses`).
-/

namespace InfraDiagram.Graph

/-! ## 1. Cycles -/

/-- The rank of an id: servers and databases stand above all else. -/
def rankOf (g : Graph) (id : String) : Nat :=
  if g.nodes.any fun n => n.id == id && n.isCompute then 1 else 0

theorem rankOf_of_isCompute {g : Graph} {n : Node} (hn : n ∈ g.nodes) (hc : n.isCompute = true) :
    g.rankOf n.id = 1 := by
  unfold rankOf
  rw [if_pos]
  exact List.any_eq_true.mpr ⟨n, hn, by rw [beq_self_eq_true, hc]; rfl⟩

theorem rankOf_of_vpc {g : Graph} (ids : g.nodeIds.Nodup) {v : Node} (hv : v ∈ g.nodes)
    (kind : v.kind = .vpc) : g.rankOf v.id = 0 := by
  unfold rankOf
  rw [if_neg]
  intro h
  obtain ⟨n, hn, hid⟩ := List.any_eq_true.mp h
  rw [Bool.and_eq_true, beq_iff_eq] at hid
  have hc := hid.2
  rw [eq_of_id_eq ids hn hv hid.1, Node.isCompute, kind] at hc
  cases hc

/-- Containment leads from networks to servers and databases. -/
theorem WellFormed.rankOf_lt_of_encloses {g : Graph} (wf : g.WellFormed) {a b : String}
    (h : g.Encloses a b) : g.rankOf a < g.rankOf b := by
  obtain ⟨e, he, rfl, rfl⟩ := h
  obtain ⟨v, hv, n, hn, hvs, hnt, kind, compute⟩ := wf.nests e he
  rw [hvs, hnt, rankOf_of_vpc wf.nodesDistinct hv kind, rankOf_of_isCompute hn compute]
  exact Nat.zero_lt_one

/-- **A well-formed diagram has no cycle of containment.** -/
theorem WellFormed.containsCycle?_eq_none {g : Graph} (wf : g.WellFormed) :
    g.containsCycle? = none := by
  rcases g.containsCycle?_outcome with ⟨run, -⟩ | ⟨id, -, cycle, -⟩
  · rw [containsCycle?, run]
  · have upwards : ∀ {a b}, Relation.TransGen g.Encloses a b → g.rankOf a < g.rankOf b := by
      intro a b way
      induction way with
      | single h => exact wf.rankOf_lt_of_encloses h
      | tail _ h ih => exact Nat.lt_trans ih (wf.rankOf_lt_of_encloses h)
    exact absurd (upwards cycle) (Nat.lt_irrefl _)

/-! ## 2. Ids and ends -/

theorem nodeIdProblems_eq_nil : ∀ {seen : List String} {ns : List Node},
    (∀ n ∈ ns, n.id ≠ "" ∧ n.id ≠ internet ∧ n.id ∉ seen) → (ns.map Node.id).Nodup →
      nodeIdProblems seen ns = []
  | _, [], _, _ => rfl
  | seen, n :: ns, proper, distinct => by
      rw [List.map_cons, List.nodup_cons] at distinct
      obtain ⟨⟨hne, hi, hs⟩, rest⟩ := List.forall_mem_cons.mp proper
      have fresh : ¬ (n.id == internet || seen.contains n.id) = true := by
        simp [hi, hs]
      unfold nodeIdProblems
      rw [if_neg (by simpa using hne), if_neg fresh]
      refine nodeIdProblems_eq_nil (fun m hm => ?_) distinct.2
      obtain ⟨hne', hi', hs'⟩ := rest m hm
      refine ⟨hne', hi', fun h => ?_⟩
      rcases List.mem_cons.mp h with e | h
      · exact distinct.1 (e ▸ List.mem_map_of_mem hm)
      · exact hs' h

theorem edgeIdProblems_eq_nil : ∀ {seen : List String} {es : List Edge},
    (∀ e ∈ es, e.id ≠ "" ∧ e.id ∉ seen) → (es.map Edge.id).Nodup → edgeIdProblems seen es = []
  | _, [], _, _ => rfl
  | seen, e :: es, proper, distinct => by
      rw [List.map_cons, List.nodup_cons] at distinct
      obtain ⟨⟨hne, hs⟩, rest⟩ := List.forall_mem_cons.mp proper
      unfold edgeIdProblems
      rw [if_neg (by simpa using hne), if_neg (by simpa using hs)]
      refine edgeIdProblems_eq_nil (fun f hf => ?_) distinct.2
      obtain ⟨hne', hs'⟩ := rest f hf
      refine ⟨hne', fun h => ?_⟩
      rcases List.mem_cons.mp h with e' | h
      · exact distinct.1 (e' ▸ List.mem_map_of_mem hf)
      · exact hs' h

theorem danglingProblems_eq_nil {g : Graph} {e : Edge}
    (ends : ∀ x ∈ [e.source, e.target], x ∈ g.nodeIds ∨ (e.isAccess = true ∧ x = internet)) :
    danglingProblems g e = [] := by
  refine List.map_eq_nil_iff.mpr (List.filter_eq_nil_iff.mpr fun x hx missing => ?_)
  rw [Bool.and_eq_true, Bool.not_eq_true', Bool.not_eq_true'] at missing
  rcases ends x hx with h | ⟨ha, rfl⟩
  · have := missing.2
    rw [List.contains_eq_mem, decide_eq_false_iff_not] at this
    exact this h
  · have := missing.1
    rw [ha, beq_self_eq_true] at this
    cases this

/-! ## 3. Containment -/

theorem nestingProblems_eq_nil {g : Graph} (ids : g.nodeIds.Nodup) :
    ∀ {contained : List String} {es : List Edge},
      (∀ e ∈ es, ∃ v ∈ g.nodes, ∃ n ∈ g.nodes,
        e.source = v.id ∧ e.target = n.id ∧ v.kind = .vpc ∧ n.isCompute = true) →
      (es.map Edge.target).Nodup → (∀ e ∈ es, e.target ∉ contained) →
      nestingProblems g contained es = []
  | _, [], _, _, _ => rfl
  | contained, e :: es, nests, single, fresh => by
      rw [List.map_cons, List.nodup_cons] at single
      obtain ⟨⟨v, hv, n, hn, hs, ht, kind, compute⟩, nests⟩ := List.forall_mem_cons.mp nests
      obtain ⟨hfresh, fresh⟩ := List.forall_mem_cons.mp fresh
      have can : v.kind.canContain n.kind = true := by
        rw [NodeKind.canContain, kind]
        exact compute
      have once : ¬ (contained.count n.id == 1) = true := by
        rw [List.count_eq_zero.mpr (ht ▸ hfresh)]
        decide
      have rest : nestingProblems g (n.id :: contained) es = [] := by
        refine nestingProblems_eq_nil ids nests single.2 fun f hf hm => ?_
        rcases List.mem_cons.mp hm with e' | hm
        · exact single.1 (ht.trans e'.symm ▸ List.mem_map_of_mem hf)
        · exact fresh f hf hm
      unfold nestingProblems
      rw [hs, ht, node?_id ids hv, node?_id ids hn]
      simp only
      rw [if_pos can, if_neg once, rest]
      rfl

/-! ## 4. Access -/

section Roles

variable {g : Graph} (wf : g.WellFormed)
include wf

theorem WellFormed.ne_internet {n : Node} (hn : n ∈ g.nodes) : (n.id == internet) = false :=
  beq_eq_false_iff_ne.mpr (wf.nodeProper n hn).2

theorem endRole_of_vpc (e : Edge) {v : Node} (hv : v ∈ g.nodes) (kind : v.kind = .vpc) :
    endRole g e v.id = .ok (.network v.id) := by
  unfold endRole
  rw [wf.ne_internet hv, if_neg Bool.false_ne_true, node?_id wf.nodesDistinct hv]
  simp only [kind]

theorem endRole_of_isCompute (e : Edge) {n : Node} (hn : n ∈ g.nodes)
    (compute : n.isCompute = true) :
    endRole g e n.id = .ok (.compute ((g.parent? n.id).map Node.id)) := by
  unfold endRole
  rw [wf.ne_internet hn, if_neg Bool.false_ne_true, node?_id wf.nodesDistinct hn]
  cases kind : n.kind with
  | vpc => rw [Node.isCompute, kind] at compute; cases compute
  | server => simp only [kind]
  | database => simp only [kind]
  | bucket => rw [Node.isCompute, kind] at compute; cases compute

/-- Nodes that lie in the same network find the same one around them. -/
theorem parentIds_eq_of_contains_iff {m n : Node} (same : ∀ v, g.Contains v m ↔ g.Contains v n) :
    (g.parent? m.id).map Node.id = (g.parent? n.id).map Node.id := by
  cases hm : g.parent? m.id with
  | some v =>
    rw [parent?_of_contains wf.nodesDistinct wf.single ((same v).mp (contains_of_parent? hm))]
  | none =>
    cases hn : g.parent? n.id with
    | none => rfl
    | some v =>
      have hv := parent?_of_contains wf.nodesDistinct wf.single
        ((same v).mpr (contains_of_parent? hn))
      rw [hm] at hv
      cases hv

/-- The network that contains a node is a network. -/
theorem WellFormed.kind_of_contains {v n : Node} (h : g.Contains v n) : v.kind = .vpc := by
  obtain ⟨hv, e, he, hs, -⟩ := h
  obtain ⟨w, hw, -, -, hsw, -, kind, -⟩ := wf.nests e he
  rw [eq_of_id_eq wf.nodesDistinct hv hw (hs.symm.trans hsw)]
  exact kind

/-- **Ends that are joined play parts that can be joined.** -/
theorem exists_roles_of_joined (e : Edge) {x y : String} (h : g.Joined x y) :
    ∃ a b, endRole g e x = .ok a ∧ endRole g e y = .ok b ∧ a.joins b = true := by
  have outside : endRole g e internet = .ok .internet := rfl
  cases h with
  | @peers m n hm hn cm cn same =>
    refine ⟨_, _, endRole_of_isCompute wf e hm cm, endRole_of_isCompute wf e hn cn, ?_⟩
    rw [parentIds_eq_of_contains_iff wf same]
    exact beq_self_eq_true _
  | @fromInternet n hn cn => exact ⟨_, _, outside, endRole_of_isCompute wf e hn cn, rfl⟩
  | @toInternet n hn cn => exact ⟨_, _, endRole_of_isCompute wf e hn cn, outside, rfl⟩
  | @fromNetwork v n hn cn within =>
    refine ⟨_, _, endRole_of_vpc wf e within.1 (wf.kind_of_contains within),
      endRole_of_isCompute wf e hn cn, ?_⟩
    rw [parent?_of_contains wf.nodesDistinct wf.single within]
    exact beq_self_eq_true _
  | @toNetwork v n hn cn within =>
    refine ⟨_, _, endRole_of_isCompute wf e hn cn,
      endRole_of_vpc wf e within.1 (wf.kind_of_contains within), ?_⟩
    rw [parent?_of_contains wf.nodesDistinct wf.single within]
    exact beq_self_eq_true _

theorem checkAccess_of_joins {e : Edge} (he : e ∈ g.accessEdges) : checkAccess g e = .ok () := by
  obtain ⟨hne, hports, joined⟩ := wf.joins e he
  obtain ⟨a, b, ha, hb, joins⟩ := exists_roles_of_joined wf e joined
  have ports : (e.ports.find? fun p => p == 0) = none := by
    refine List.find?_eq_none.mpr fun p hp h0 => hports ?_
    rw [← beq_iff_eq.mp h0]
    exact hp
  unfold checkAccess
  rw [if_neg (by simpa using hne), ports]
  simp only
  rw [ha, Outcome.ok_bind, hb, Outcome.ok_bind, if_pos joins]

end Roles

/-! ## 5. The whole check -/

/-- **A diagram has no structural problems exactly if it is well formed.** -/
theorem structureProblems_eq_nil_iff {g : Graph} : g.structureProblems = [] ↔ g.WellFormed := by
  refine ⟨wellFormed_of_structureProblems, fun wf => ?_⟩
  have nodes : nodeIdProblems [] g.nodes = [] :=
    nodeIdProblems_eq_nil (fun n hn => ⟨(wf.nodeProper n hn).1, (wf.nodeProper n hn).2,
      List.not_mem_nil⟩) wf.nodesDistinct
  have edges : edgeIdProblems [] g.edges = [] :=
    edgeIdProblems_eq_nil (fun e he => ⟨wf.edgeProper e he, List.not_mem_nil⟩) wf.edgesDistinct
  have ends : g.edges.flatMap (danglingProblems g) = [] :=
    List.flatMap_eq_nil_iff.mpr fun e he => danglingProblems_eq_nil (wf.ends e he)
  have containment : containmentProblems g = [] := by
    unfold containmentProblems
    rw [wf.containsCycle?_eq_none]
    exact nestingProblems_eq_nil wf.nodesDistinct wf.nests wf.single fun _ _ => List.not_mem_nil
  have access : accessProblems g g.accessEdges = [] := by
    refine List.filterMap_eq_nil_iff.mpr fun e he => ?_
    rw [checkAccess_of_joins wf he]
  rw [structureProblems, nodes, edges, ends, containment, access]
  rfl

/-- **The check accepts exactly the well-formed diagrams with a proper name.** No condition on
    cycles is needed: what `WellFormed` asks of each containing edge rules them out. -/
theorem check_accepts_iff_wellFormed (g : Graph) :
    g.check.problems = [] ↔
      (g.name ≠ "" ∧ ∀ c ∈ g.name.toList, c.isAlphanum = true ∨ c = '_' ∨ c = '-') ∧
        g.WellFormed := by
  have problems : g.check.problems = stackNameProblems g.name ++ g.structureProblems := rfl
  rw [problems, List.append_eq_nil_iff, Stack.stackNameProblems_eq_nil_iff,
    structureProblems_eq_nil_iff]

end InfraDiagram.Graph
