import InfraDiagram.Proofs.Countdown
import InfraDiagram.Proofs.WellFormed

/-!
# The order of declaration of a well-formed diagram

The order is the one that `arrange` gives (`order_of_constraints`), which takes positions one at a
time. Whatever the constraints are, what it takes and what it leaves are together what it was given
(`arrange_perm`), and it never takes a position while one that has to come before it is left
(`arrange_precedes`). It takes everything if no set of positions is stuck (`arrange_exhausts`).

In a well-formed diagram no set is stuck, because containment is one level deep: a network has
nothing before it, and a server or database only networks. So the order exists, holds every node
once, and puts every network before what it contains (`exists_order`).
-/

namespace InfraDiagram.Order

/-! ## 1. Taking what is ready -/

theorem arrange_perm (pairs : List (Nat × Nat)) : ∀ (rounds : Nat) (left : List Nat),
    ((arrange pairs rounds left).1 ++ (arrange pairs rounds left).2).Perm left
  | 0, _ => List.Perm.refl _
  | rounds + 1, left => by
      unfold arrange
      split
      · exact List.Perm.refl _
      · rename_i i hi
        have hmem : i ∈ left := List.mem_of_find?_eq_some hi
        exact ((arrange_perm pairs rounds (left.erase i)).cons i).trans
          (List.perm_cons_erase hmem).symm

/-- A position is taken only after all that has to come before it. -/
theorem arrange_precedes {pairs : List (Nat × Nat)} {p i : Nat} (hp : (p, i) ∈ pairs) :
    ∀ {rounds : Nat} {left before after : List Nat},
      (arrange pairs rounds left).1 = before ++ i :: after → p ∈ left → p ∈ before
  | 0, _, before, _, h, _ => by cases before <;> cases h
  | rounds + 1, left, before, after, h, hl => by
      unfold arrange at h
      split at h
      · cases before <;> cases h
      · rename_i j hj
        have hready : isReady pairs left j = true := List.find?_some hj
        cases before with
        | nil =>
          obtain ⟨rfl, -⟩ := List.cons.inj h
          exact absurd hl (not_mem_of_isReady hready hp)
        | cons k before =>
          obtain ⟨rfl, h'⟩ := List.cons.inj h
          by_cases e : p = j
          · exact e ▸ List.mem_cons_self
          · exact List.mem_cons_of_mem _
              (arrange_precedes hp h' ((List.mem_erase_of_ne e).mpr hl))

/-- Where every set of positions left has one that is ready, nothing stays left. -/
theorem arrange_exhausts {pairs : List (Nat × Nat)} : ∀ {rounds : Nat} {left : List Nat},
    (∀ l : List Nat, l ⊆ left → l ≠ [] → ∃ i ∈ l, isReady pairs l i = true) →
      left.length ≤ rounds → (arrange pairs rounds left).2 = []
  | 0, left, _, hlen => List.length_eq_zero_iff.mp (Nat.le_zero.mp hlen)
  | rounds + 1, left, h, hlen => by
      unfold arrange
      split
      · rename_i hnone
        refine Classical.byContradiction fun hne => ?_
        obtain ⟨i, hi, hr⟩ := h left (List.Subset.refl _) hne
        exact List.find?_eq_none.mp hnone i hi hr
      · rename_i i hi
        have hmem : i ∈ left := List.mem_of_find?_eq_some hi
        have hpos : 0 < left.length := List.length_pos_of_mem hmem
        refine arrange_exhausts (fun l hl => h l (List.Subset.trans hl List.erase_subset)) ?_
        rw [List.length_erase_of_mem hmem]
        omega

/-! ## 2. Positions and constraints -/

theorem getElem?_of_lastPosition? {id : String} : ∀ {ns : List Node} {i : Nat},
    lastPosition? id ns = some i → ∃ n, ns[i]? = some n ∧ n.id = id
  | [], _, h => by cases h
  | n :: ns, i, h => by
      unfold lastPosition? at h
      split at h
      · rename_i j hj
        cases h
        obtain ⟨m, hm, hid⟩ := getElem?_of_lastPosition? hj
        exact ⟨m, by rw [List.getElem?_cons_succ]; exact hm, hid⟩
      · split at h
        · rename_i hid
          cases h
          exact ⟨n, rfl, by simpa using hid⟩
        · cases h

theorem exists_lastPosition? {id : String} : ∀ {ns : List Node},
    id ∈ ns.map Node.id → ∃ i, lastPosition? id ns = some i
  | [], h => absurd h List.not_mem_nil
  | n :: ns, h => by
      unfold lastPosition?
      cases hr : lastPosition? id ns with
      | some i => exact ⟨i + 1, rfl⟩
      | none =>
        rcases List.mem_cons.mp h with e | h
        · exact ⟨0, by simp [e]⟩
        · obtain ⟨i, hi⟩ := exists_lastPosition? h
          rw [hi] at hr
          cases hr

theorem lt_length_of_lastPosition? {id : String} {ns : List Node} {i : Nat}
    (h : lastPosition? id ns = some i) : i < ns.length := by
  obtain ⟨m, hm, -⟩ := getElem?_of_lastPosition? h
  exact (List.getElem?_eq_some_iff.mp hm).1

/-- The positions of the two ends of an edge. -/
def EndsAt (g : Graph) (e : Edge) (q : Nat × Nat) : Prop :=
  lastPosition? e.source g.nodes = some q.1 ∧ lastPosition? e.target g.nodes = some q.2

/-- The constraints of edges that end at nodes: one for each edge. -/
theorem exists_constraints {g : Graph} : ∀ {es : List Edge}, g.EndAtNodes es →
    ∃ pairs, constraints g es = .ok pairs ∧ ∀ q, q ∈ pairs ↔ ∃ e ∈ es, EndsAt g e q
  | [], _ => ⟨[], rfl, fun q => by simp⟩
  | e :: es, h => by
      obtain ⟨a, ha⟩ := exists_lastPosition? (h e List.mem_cons_self).1
      obtain ⟨b, hb⟩ := exists_lastPosition? (h e List.mem_cons_self).2
      obtain ⟨pairs, hp, hmem⟩ := exists_constraints fun f hf => h f (List.mem_cons_of_mem _ hf)
      refine ⟨(a, b) :: pairs, ?_, fun q => ?_⟩
      · simp only [constraints, position, ha, hb, hp]
        rfl
      · have hq : EndsAt g e q ↔ q = (a, b) := by
          rw [EndsAt, ha, hb, Prod.ext_iff]
          simp only [Option.some.injEq]
          exact ⟨fun ⟨x, y⟩ => ⟨x.symm, y.symm⟩, fun ⟨x, y⟩ => ⟨x.symm, y.symm⟩⟩
        rw [List.mem_cons, hmem q, ← hq]
        simp

theorem exists_edge_of_constraints {g : Graph} : ∀ {es : List Edge} {pairs : List (Nat × Nat)},
    constraints g es = .ok pairs → ∀ q ∈ pairs, ∃ e ∈ es, EndsAt g e q
  | [], pairs, h => by
      cases h
      exact List.forall_mem_nil _
  | e :: es, pairs, h => by
      have at_position : ∀ {endpoint i}, position g e endpoint = .ok i →
          lastPosition? endpoint g.nodes = some i := by
        intro endpoint i hi
        unfold position at hi
        split at hi
        · rename_i j hj
          rw [hj, Except.ok.inj hi]
        · cases hi
      obtain ⟨a, ha, h⟩ := Outcome.bind_eq_ok.mp h
      obtain ⟨b, hb, h⟩ := Outcome.bind_eq_ok.mp h
      obtain ⟨others, ho, h⟩ := Outcome.bind_eq_ok.mp h
      cases h
      refine List.forall_mem_cons.mpr ⟨⟨e, List.mem_cons_self, at_position ha, at_position hb⟩, ?_⟩
      intro q hq
      obtain ⟨f, hf, ends⟩ := exists_edge_of_constraints ho q hq
      exact ⟨f, List.mem_cons_of_mem _ hf, ends⟩

theorem within_of_constraints {g : Graph} {es : List Edge} {pairs : List (Nat × Nat)}
    (h : constraints g es = .ok pairs) : Within g.nodes.length pairs := by
  intro q hq
  obtain ⟨e, -, ha, hb⟩ := exists_edge_of_constraints h q hq
  exact ⟨lt_length_of_lastPosition? ha, lt_length_of_lastPosition? hb⟩

/-! ## 3. The order of a well-formed diagram -/

/-- **An order of declaration**: every node once, and every network before what it contains. -/
structure Arranged (g : Graph) (order : List Node) : Prop where
  perm : order.Perm g.nodes
  precedes : ∀ before n after v, order = before ++ n :: after → g.Contains v n → v ∈ before

theorem range_filterMap_getElem? {α : Type} : ∀ xs : List α,
    ((List.range xs.length).filterMap fun i => xs[i]?) = xs
  | [] => rfl
  | x :: xs => by
      rw [List.length_cons, List.range_succ_eq_map, List.filterMap_cons, List.filterMap_map]
      exact congrArg (x :: ·) (range_filterMap_getElem? xs)

/-- The position of a node is the one its id stands for. -/
theorem eq_lastPosition? {g : Graph} (wf : g.WellFormed) {i j : Nat} {n : Node}
    (hi : g.nodes[i]? = some n) (hj : lastPosition? n.id g.nodes = some j) : i = j := by
  obtain ⟨m, hm, hid⟩ := getElem?_of_lastPosition? hj
  have hlt : i < g.nodeIds.length := by
    rw [Graph.nodeIds, List.length_map]
    exact (List.getElem?_eq_some_iff.mp hi).1
  refine (List.getElem?_inj hlt wf.nodesDistinct).mp ?_
  rw [Graph.nodeIds, List.getElem?_map, List.getElem?_map, hi, hm, Option.map_some, Option.map_some,
    hid]

/-- In a well-formed diagram no positions are stuck: networks wait for nothing, and all else only
    for networks. -/
theorem exists_ready {g : Graph} (wf : g.WellFormed) {pairs : List (Nat × Nat)}
    (hp : ∀ q, q ∈ pairs ↔ ∃ e ∈ g.containsEdges, EndsAt g e q) {l : List Nat} (hne : l ≠ []) :
    ∃ i ∈ l, isReady pairs l i = true := by
  have kinds : ∀ a b, (a, b) ∈ pairs → ∃ v n, g.nodes[a]? = some v ∧ g.nodes[b]? = some n ∧
      v.isCompute = false ∧ n.isCompute = true := by
    intro a b hq
    obtain ⟨e, he, ha, hb⟩ := (hp (a, b)).mp hq
    obtain ⟨v, hv, n, hn, hs, ht, hk, hc⟩ := wf.nests e he
    obtain ⟨v', hv', hvid⟩ := getElem?_of_lastPosition? ha
    obtain ⟨n', hn', hnid⟩ := getElem?_of_lastPosition? hb
    have ev : v' = v := Graph.eq_of_id_eq wf.nodesDistinct (List.mem_of_getElem? hv') hv
      (hvid.trans hs)
    have en : n' = n := Graph.eq_of_id_eq wf.nodesDistinct (List.mem_of_getElem? hn') hn
      (hnid.trans ht)
    exact ⟨v, n, ev ▸ hv', en ▸ hn', by rw [Node.isCompute, hk]; rfl, hc⟩
  -- what is no server or database waits for nothing, and nothing waits for servers or databases
  by_cases hex : ∃ i ∈ l, ∀ n, g.nodes[i]? = some n → n.isCompute = false
  · obtain ⟨i, hi, hnc⟩ := hex
    refine ⟨i, hi, isReady_of_forall fun p hpi => ?_⟩
    obtain ⟨_, n, _, hn, _, hc⟩ := kinds p i hpi
    rw [hnc n hn] at hc
    cases hc
  · obtain ⟨i, hi⟩ := List.exists_mem_of_ne_nil l hne
    refine ⟨i, hi, isReady_of_forall fun p hpi hpl => hex ⟨p, hpl, fun m hm => ?_⟩⟩
    obtain ⟨v, _, hv, _, hc, _⟩ := kinds p i hpi
    rw [hm] at hv
    cases hv
    exact hc

theorem endAtNodes_containsEdges {g : Graph} (wf : g.WellFormed) :
    g.EndAtNodes g.containsEdges := by
  intro e he
  obtain ⟨v, hv, n, hn, hs, ht, _⟩ := wf.nests e he
  exact ⟨hs ▸ List.mem_map_of_mem hv, ht ▸ List.mem_map_of_mem hn⟩

section Settled

variable {g : Graph} {pairs : List (Nat × Nat)}
  (h : constraints g g.containsEdges = .ok pairs)
include h

theorem order_of_all_taken
    (all : remaining g.nodes.length (settle pairs g.nodes.length).taken = []) :
    order g = .ok ((settle pairs g.nodes.length).taken.filterMap fun i => g.nodes[i]?) := by
  have sizes := (sound_settle (within_of_constraints h)).perm.length_eq
  rw [all, List.append_nil, List.length_range] at sizes
  unfold order
  rw [h, Outcome.ok_bind]
  exact if_neg (by omega)

theorem order_of_left {i : Nat} {rest : List Nat} {n : Node}
    (left : remaining g.nodes.length (settle pairs g.nodes.length).taken = i :: rest)
    (hn : g.nodes[i]? = some n) : order g = .error (.cycle n.id) := by
  have within := within_of_constraints h
  have sizes := (sound_settle within).perm.length_eq
  rw [left, List.length_append, List.length_cons, List.length_range] at sizes
  have stuck : stuckId g (settle pairs g.nodes.length) = n.id := by
    unfold stuckId
    rw [settle_findIdx? within, left, List.head?_cons, Option.bind_some, hn]
  unfold order
  rw [h, Outcome.ok_bind, ← stuck]
  exact if_pos (by omega)

/-- The order once the constraints are known: what is taken, unless something is left. -/
theorem order_of_constraints :
    order g = match (arrange pairs g.nodes.length (List.range g.nodes.length)).2.filterMap
        fun i => g.nodes[i]? with
      | [] => .ok ((arrange pairs g.nodes.length (List.range g.nodes.length)).1.filterMap
          fun i => g.nodes[i]?)
      | stuck :: _ => .error (.cycle stuck.id) := by
  rw [arrange_eq_settle (within_of_constraints h)]
  cases left : remaining g.nodes.length (settle pairs g.nodes.length).taken with
  | nil => exact order_of_all_taken h left
  | cons i rest =>
    have hi : i < g.nodes.length := (mem_remaining.mp (left ▸ List.mem_cons_self)).1
    have hn := List.getElem?_eq_getElem hi
    rw [order_of_left h left hn, List.filterMap_cons_some hn]

end Settled

/-- **A well-formed diagram has an order of declaration.** -/
theorem exists_order {g : Graph} (wf : g.WellFormed) :
    ∃ ns, order g = .ok ns ∧ Arranged g ns := by
  obtain ⟨pairs, hpairs, hmem⟩ := exists_constraints (endAtNodes_containsEdges wf)
  have hleft : (arrange pairs g.nodes.length (List.range g.nodes.length)).2 = [] :=
    arrange_exhausts (fun l _ hne => exists_ready wf hmem hne) (Nat.le_of_eq List.length_range)
  have hperm := arrange_perm pairs g.nodes.length (List.range g.nodes.length)
  have hord : order g = .ok ((arrange pairs g.nodes.length (List.range g.nodes.length)).1.filterMap
      fun i => g.nodes[i]?) := by
    rw [order_of_constraints hpairs, hleft]
    rfl
  rw [hleft, List.append_nil] at hperm
  refine ⟨_, hord, ?_, fun before n after v hsplit hcon => ?_⟩
  · exact (hperm.filterMap _).trans (List.Perm.of_eq (range_filterMap_getElem? g.nodes))
  · obtain ⟨t₁, t₂, ht, hb, hrest⟩ := List.filterMap_eq_append_iff.mp hsplit
    obtain ⟨u, i, w, ht₂, hu, hi, -⟩ := List.filterMap_eq_cons_iff.mp hrest
    obtain ⟨hv, e, he, hs, htgt⟩ := hcon
    have hends := endAtNodes_containsEdges wf e he
    obtain ⟨a, ha⟩ := exists_lastPosition? hends.1
    obtain ⟨b, hb'⟩ := exists_lastPosition? hends.2
    obtain ⟨v', hv', hvid⟩ := getElem?_of_lastPosition? ha
    have ev : v' = v := Graph.eq_of_id_eq wf.nodesDistinct (List.mem_of_getElem? hv') hv
      (hvid.trans hs)
    have hib : i = b := eq_lastPosition? wf hi (htgt ▸ hb')
    have hpair : (a, i) ∈ pairs := (hmem (a, i)).mpr ⟨e, he, ha, hib ▸ hb'⟩
    have hrange : a ∈ List.range g.nodes.length :=
      List.mem_range.mpr (List.getElem?_eq_some_iff.mp hv').1
    have htaken : (arrange pairs g.nodes.length (List.range g.nodes.length)).1 =
        (t₁ ++ u) ++ i :: w := by
      rw [ht, ht₂, List.append_assoc]
    have hbefore : a ∈ t₁ ++ u := arrange_precedes hpair htaken hrange
    -- the positions of `u` hold no nodes, so `a` has been taken among those of `before`
    rcases List.mem_append.mp hbefore with h1 | h2
    · rw [← hb]
      exact List.mem_filterMap.mpr ⟨a, h1, ev ▸ hv'⟩
    · rw [hu a h2] at hv'
      cases hv'

end InfraDiagram.Order
