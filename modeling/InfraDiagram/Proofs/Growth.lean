import InfraDiagram.Proofs.Program

/-!
# Diagrams that grow

A node is added at the end of a diagram, alone or inside a network that is there. What was compiled
before is compiled as before: the order of declaration goes on with the new node, the symbols stay,
and the fragment of the new node stands between the old declarations and the rules
(`Stack.Continues`).

The argument follows the compilation. The new node is a stranger to every old look-up
(`Grows.parent?_eq`, `Grows.isPublic_eq`, `Grows.rule_eq`). Its position is the last, so it is taken
last (`arrange_last`). The run over the old nodes is the old run, and one step follows
(`declare_append_eq_ok`). Rules only look up symbols that are there already
(`Access.fragmentsOf_extends`).
-/

namespace InfraDiagram

/-! ## 1. One more node -/

namespace Graph

/-- **A diagram with one more node at its end**, alone or inside one of its networks. -/
inductive Grows (g : Graph) (n : Node) : Graph → Prop where
  | alone : Grows g n (g.withNode n)
  | inside {v : Node} (hv : v ∈ g.nodes) (kind : v.kind = .vpc) : Grows g n (g.withChild v.id n)

variable {g g' : Graph} {n : Node}

theorem Grows.nodes (grows : Grows g n g') : g'.nodes = g.nodes ++ [n] := by
  cases grows <;> rfl

theorem Grows.mem_nodes (grows : Grows g n g') : n ∈ g'.nodes := by
  rw [grows.nodes]
  exact List.mem_append_right _ List.mem_cons_self

theorem Grows.accessEdges (grows : Grows g n g') : g'.accessEdges = g.accessEdges := by
  cases grows with
  | alone => rfl
  | inside hv kind =>
    show (g.edges ++ [childEdge _ n.id]).filter Edge.isAccess = _
    rw [List.filter_append]
    exact List.append_nil _

/-- The new containing edges lead from old nodes to the new one. -/
theorem Grows.containsEdges (grows : Grows g n g') :
    ∃ new, g'.containsEdges = g.containsEdges ++ new ∧
      ∀ e ∈ new, e.source ∈ g.nodeIds ∧ e.target = n.id := by
  cases grows with
  | alone => exact ⟨[], (List.append_nil _).symm, List.forall_mem_nil _⟩
  | @inside v hv kind =>
    refine ⟨[childEdge v.id n.id], List.filter_append .., fun e he => ?_⟩
    rw [List.mem_singleton.mp he]
    exact ⟨List.mem_map_of_mem hv, rfl⟩

theorem Grows.node?_eq (grows : Grows g n g') {id : String} (h : id ≠ n.id) :
    g'.node? id = g.node? id := by
  have other : (n.id == id) = false := beq_eq_false_iff_ne.mpr h.symm
  unfold node?
  rw [grows.nodes, List.find?_append]
  simp [other]

section

variable (grows : Grows g n g') (wf : g.WellFormed) (wf' : g'.WellFormed)
include grows wf'

theorem Grows.fresh : n.id ∉ g.nodeIds := by
  have distinct := wf'.nodesDistinct
  rw [nodeIds, grows.nodes, List.map_append, List.nodup_append] at distinct
  exact fun h => distinct.2.2 n.id h n.id List.mem_cons_self rfl

theorem Grows.ne_of_mem {id : String} (h : id ∈ g.nodeIds) : id ≠ n.id := by
  rintro rfl
  exact grows.fresh wf' h

include wf

/-- **An old node lies in the network it lay in.** -/
theorem Grows.parent?_eq {id : String} (h : id ≠ n.id) : g'.parent? id = g.parent? id := by
  obtain ⟨new, hnew, ends⟩ := grows.containsEdges
  have nothing : (new.find? fun e => e.target == id) = none := by
    refine List.find?_eq_none.mpr fun e he hid => h ?_
    rw [← beq_iff_eq.mp hid]
    exact (ends e he).2
  unfold parent?
  rw [hnew, List.find?_append, nothing, Option.or_none]
  cases hfound : g.containsEdges.find? fun e => e.target == id with
  | none => rfl
  | some e =>
    obtain ⟨v, hv, -, -, hs, -⟩ := wf.nests e (List.mem_of_find?_eq_some hfound)
    have old : e.source ≠ n.id := grows.ne_of_mem wf' (hs ▸ List.mem_map_of_mem hv)
    exact grows.node?_eq old

theorem Grows.isAnySourceFor_eq (endpoint : String) {id : String} (h : id ≠ n.id) :
    g'.isAnySourceFor endpoint id = g.isAnySourceFor endpoint id := by
  unfold isAnySourceFor
  rw [grows.parent?_eq wf wf' h]

/-- An old node can be reached from outside if it could be. -/
theorem Grows.isPublic_eq {id : String} (h : id ≠ n.id) : g'.isPublic id = g.isPublic id := by
  unfold isPublic
  simp only [grows.accessEdges, grows.isAnySourceFor_eq wf wf' _ h]

/-- **An old edge asks for the rule it asked for.** -/
theorem Grows.rule_eq {e : Edge} (he : e ∈ g.accessEdges) : Access.rule g' e = Access.rule g e := by
  have old : ∀ x ∈ [e.source, e.target], x ≠ n.id := by
    intro x hx
    rcases wf.ends e (List.mem_filter.mp he).1 x hx with h | ⟨-, rfl⟩
    · exact grows.ne_of_mem wf' h
    · exact (wf'.nodeProper n grows.mem_nodes).2.symm
  have source : g'.node? e.source = g.node? e.source := grows.node?_eq (old _ (by simp))
  have target : g'.node? e.target = g.node? e.target := grows.node?_eq (old _ (by simp))
  have any : ∀ {x endpoint : String} {m : Node}, x ∈ [e.source, e.target] →
      Access.secured? g x = some m →
      g'.isAnySourceFor endpoint m.id = g.isAnySourceFor endpoint m.id := by
    intro x endpoint m hx hm
    obtain ⟨hm, -⟩ := Option.filter_eq_some_iff.mp hm
    refine grows.isAnySourceFor_eq wf wf' endpoint ?_
    rw [(mem_of_node? hm).2]
    exact old x hx
  have hs : Access.secured? g' e.source = Access.secured? g e.source := by
    rw [Access.secured?, source, Access.secured?]
  have ht : Access.secured? g' e.target = Access.secured? g e.target := by
    rw [Access.secured?, target, Access.secured?]
  have refused : Access.refusal g' e = Access.refusal g e := by
    rw [Access.refusal, source, target, Access.refusal]
  unfold Access.rule
  rw [hs, ht, refused]
  cases h1 : Access.secured? g e.source with
  | none =>
    cases h2 : Access.secured? g e.target with
    | none => rfl
    | some m => simp only [any (by simp) h2]
  | some m =>
    cases h2 : Access.secured? g e.target with
    | none => simp only [any (by simp) h1]
    | some _ => rfl

end

end Graph

/-! ## 2. The order of declaration -/

namespace Order

open InfraDiagram.Graph (Grows)

section Positions

variable {pairs extra : List (Nat × Nat)} {k : Nat}
  (old : ∀ q ∈ pairs, q.1 ≠ k) (new : ∀ q ∈ extra, q.1 ≠ k ∧ q.2 = k)
include old new

/-- A position other than the last is ready whether or not the last is left. -/
theorem isReady_append_last {left : List Nat} {i : Nat} (hi : i ≠ k) :
    isReady (pairs ++ extra) (left ++ [k]) i = isReady pairs left i := by
  have waits : extra.all (fun q => q.2 != i || !(left ++ [k]).contains q.1) = true := by
    refine List.all_eq_true.mpr fun q hq => ?_
    rw [(new q hq).2, bne_iff_ne.mpr hi.symm, Bool.true_or]
  have same : pairs.all (fun q => q.2 != i || !(left ++ [k]).contains q.1) =
      pairs.all fun q => q.2 != i || !left.contains q.1 := by
    rw [Bool.eq_iff_iff, List.all_eq_true, List.all_eq_true]
    refine forall₂_congr fun q hq => ?_
    have : (left ++ [k]).contains q.1 = left.contains q.1 := by
      simp [old q hq]
    rw [this]
  unfold isReady
  rw [List.all_append, waits, Bool.and_true, same]

theorem arrange_only_last (rounds : Nat) :
    arrange (pairs ++ extra) (rounds + 1) [k] = ([k], []) := by
  have ready : isReady (pairs ++ extra) [k] k = true := by
    refine isReady_of_forall fun p hp => ?_
    rw [List.mem_singleton]
    rcases List.mem_append.mp hp with hp | hp
    · exact old (p, k) hp
    · exact (new (p, k) hp).1
  have nothing : arrange (pairs ++ extra) rounds [] = ([], []) := by
    cases rounds <;> rfl
  unfold arrange
  rw [List.find?_cons_of_pos ready]
  simp only [List.erase_cons_head, nothing]

/-- **A last position for which nothing waits is taken last.** -/
theorem arrange_last : ∀ {rounds : Nat} {left : List Nat}, k ∉ left →
    (arrange pairs rounds left).2 = [] →
    arrange (pairs ++ extra) (rounds + 1) (left ++ [k]) =
      ((arrange pairs rounds left).1 ++ [k], [])
  | 0, left, _, h => by
      obtain rfl : left = [] := h
      exact arrange_only_last old new 0
  | rounds + 1, left, hk, h => by
      cases hf : left.find? (isReady pairs left) with
      | none =>
        have stays : arrange pairs (rounds + 1) left = ([], left) := by
          rw [arrange, hf]
        rw [stays] at h ⊢
        obtain rfl : left = [] := h
        exact arrange_only_last old new (rounds + 1)
      | some i =>
        have hi : i ∈ left := List.mem_of_find?_eq_some hf
        have takes : arrange pairs (rounds + 1) left =
            (i :: (arrange pairs rounds (left.erase i)).1,
              (arrange pairs rounds (left.erase i)).2) := by
          rw [arrange, hf]
        have found : (left ++ [k]).find? (isReady (pairs ++ extra) (left ++ [k])) = some i := by
          have same : ∀ j ∈ left, isReady (pairs ++ extra) (left ++ [k]) j = isReady pairs left j :=
            fun j hj => isReady_append_last old new fun e => hk (e ▸ hj)
          obtain ⟨ready, before, after, e, notReady⟩ := List.find?_eq_some_iff_append.mp hf
          refine List.find?_eq_some_iff_append.mpr
            ⟨(same i hi).trans ready, before, after ++ [k], by rw [e]; simp, fun j hj => ?_⟩
          rw [same j (e ▸ List.mem_append_left _ hj)]
          exact notReady j hj
        rw [takes] at h ⊢
        rw [arrange, found]
        simp only
        rw [List.erase_append_left _ hi,
          arrange_last (fun hm => hk (List.mem_of_mem_erase hm)) h]
        rfl

end Positions

variable {g g' : Graph} {n : Node}

theorem lastPosition?_append_of_ne {id : String} (h : id ≠ n.id) : ∀ ns : List Node,
    lastPosition? id (ns ++ [n]) = lastPosition? id ns
  | [] => by simp [lastPosition?, beq_eq_false_iff_ne.mpr h.symm]
  | m :: ns => by
      rw [List.cons_append, lastPosition?, lastPosition?_append_of_ne h ns, lastPosition?]

theorem lastPosition?_append_self (n : Node) : ∀ ns : List Node,
    lastPosition? n.id (ns ++ [n]) = some ns.length
  | [] => by simp [lastPosition?]
  | m :: ns => by
      rw [List.cons_append, lastPosition?, lastPosition?_append_self n ns]
      rfl

theorem constraints_append {fs : List Edge} {qs : List (Nat × Nat)} :
    ∀ {es : List Edge} {ps : List (Nat × Nat)}, constraints g es = .ok ps →
      constraints g fs = .ok qs → constraints g (es ++ fs) = .ok (ps ++ qs)
  | [], ps, hps, hqs => by
      cases hps
      exact hqs
  | e :: es, ps, hps, hqs => by
      unfold constraints at hps
      obtain ⟨a, ha, hps⟩ := Outcome.bind_eq_ok.mp hps
      obtain ⟨b, hb, hps⟩ := Outcome.bind_eq_ok.mp hps
      obtain ⟨rest, hrest, hps⟩ := Outcome.bind_eq_ok.mp hps
      cases hps
      rw [List.cons_append, constraints, ha, Outcome.ok_bind, hb, Outcome.ok_bind,
        constraints_append hrest hqs]
      rfl

theorem constraints_grown (grows : Grows g n g') : ∀ {es : List Edge},
    (∀ e ∈ es, e.source ≠ n.id ∧ e.target ≠ n.id) → constraints g' es = constraints g es
  | [], _ => rfl
  | e :: es, h => by
      obtain ⟨⟨hs, ht⟩, h⟩ := List.forall_mem_cons.mp h
      have position_eq : ∀ {x}, x ≠ n.id → position g' e x = position g e x := by
        intro x hx
        rw [position, grows.nodes, lastPosition?_append_of_ne hx, position]
      rw [constraints, position_eq hs, position_eq ht, constraints_grown grows h, constraints]

/-- **The order of a grown diagram goes on with the new node.** -/
theorem order_grown (grows : Grows g n g') (wf : g.WellFormed) (wf' : g'.WellFormed)
    {ns : List Node} (h : order g = .ok ns) : order g' = .ok (ns ++ [n]) := by
  obtain ⟨new, hnew, ends⟩ := grows.containsEdges
  have oldEnds := endAtNodes_containsEdges wf
  obtain ⟨pairs, hpairs, hmem⟩ := exists_constraints oldEnds
  obtain ⟨extra, hextra, hmem'⟩ : ∃ extra, constraints g' new = .ok extra ∧
      ∀ q, q ∈ extra ↔ ∃ e ∈ new, EndsAt g' e q := by
    refine exists_constraints fun e he => endAtNodes_containsEdges wf' e ?_
    rw [hnew]
    exact List.mem_append_right _ he
  have all : constraints g' g'.containsEdges = .ok (pairs ++ extra) := by
    rw [hnew]
    refine constraints_append ?_ hextra
    rw [constraints_grown grows fun e he => ⟨grows.ne_of_mem wf' (oldEnds e he).1,
      grows.ne_of_mem wf' (oldEnds e he).2⟩]
    exact hpairs
  -- old constraints do not speak of the last position, new ones say that it comes after old ones
  have old : ∀ q ∈ pairs, q.1 ≠ g.nodes.length := by
    intro q hq
    obtain ⟨e, -, hs, -⟩ := (hmem q).mp hq
    exact Nat.ne_of_lt (lt_length_of_lastPosition? hs)
  have later : ∀ q ∈ extra, q.1 ≠ g.nodes.length ∧ q.2 = g.nodes.length := by
    intro q hq
    obtain ⟨e, he, hs, ht⟩ := (hmem' q).mp hq
    rw [grows.nodes, lastPosition?_append_of_ne (grows.ne_of_mem wf' (ends e he).1)] at hs
    rw [grows.nodes, (ends e he).2, lastPosition?_append_self] at ht
    exact ⟨Nat.ne_of_lt (lt_length_of_lastPosition? hs), (Option.some.inj ht).symm⟩
  have exhausts : (arrange pairs g.nodes.length (List.range g.nodes.length)).2 = [] :=
    arrange_exhausts (fun l _ hne => exists_ready wf hmem hne) (Nat.le_of_eq List.length_range)
  have taken : ∀ i ∈ (arrange pairs g.nodes.length (List.range g.nodes.length)).1,
      (g.nodes ++ [n])[i]? = g.nodes[i]? := by
    intro i hi
    have hi := (arrange_perm pairs g.nodes.length (List.range g.nodes.length)).subset
      (List.mem_append_left _ hi)
    exact List.getElem?_append_left (List.mem_range.mp hi)
  have last := arrange_last old later List.not_mem_range_self exhausts
  rw [order_of_constraints hpairs, exhausts] at h
  obtain rfl := Except.ok.inj h
  rw [order_of_constraints all, grows.nodes, List.length_append, List.length_singleton,
    List.range_succ, last]
  simp only [List.filterMap_nil, List.filterMap_append]
  rw [List.filterMap_congr taken]
  simp

end Order

/-! ## 3. Rules -/

namespace Access

theorem symbolOf_eq_ok_iff {t : SymbolTable} {n : Node} {symbol : Symbol} :
    symbolOf t n = .ok symbol ↔ t.get? n.id = some symbol := by
  unfold symbolOf
  cases t.get? n.id <;> simp

/-- The steps of an edge stay the same when the table grows. -/
theorem steps_extends {services : Catalog} {t t' : SymbolTable} (ht : t.Extends t') {e : Edge}
    {r : Rule} {grants : Bool} {ss : List Fragment.Step}
    (h : steps services t e r grants = .ok ss) : steps services t' e r grants = .ok ss := by
  have keeps : ∀ {n : Node} {symbol : Symbol}, symbolOf t n = .ok symbol →
      symbolOf t' n = .ok symbol :=
    fun hn => symbolOf_eq_ok_iff.mpr (ht.get? (symbolOf_eq_ok_iff.mp hn))
  unfold steps at h ⊢
  obtain ⟨ps, hports, h⟩ := Outcome.bind_eq_ok.mp h
  obtain ⟨target, htarget, h⟩ := Outcome.bind_eq_ok.mp h
  rw [hports, Outcome.ok_bind, keeps htarget, Outcome.ok_bind]
  cases hr : r.source with
  | anywhere =>
    rw [hr] at h
    exact h
  | group n =>
    rw [hr] at h
    obtain ⟨source, hsource, h⟩ := Outcome.bind_eq_ok.mp h
    simp only
    rw [keeps hsource, Outcome.ok_bind]
    exact h

/-- **The fragments of edges stay the same** when the table grows and the edges ask for the same
    rules. -/
theorem fragmentsOf_extends {services : Catalog} {g g' : Graph} {t t' : SymbolTable}
    (ht : t.Extends t') : ∀ {es : List Edge} {granted : List (String × String)}
    {fs : List Fragment}, (∀ e ∈ es, rule g' e = rule g e) →
    fragmentsOf services g t granted es = .ok fs → fragmentsOf services g' t' granted es = .ok fs
  | [], _, _, _, h => h
  | e :: es, granted, fs, same, h => by
      obtain ⟨hr, same⟩ := List.forall_mem_cons.mp same
      have hrule : ∃ r, rule g e = .ok r := by
        unfold fragmentsOf at h
        obtain ⟨r, hrule, -⟩ := Outcome.bind_eq_ok.mp h
        exact ⟨r, Outcome.mapError_eq_ok.mp hrule⟩
      obtain ⟨r, hrule⟩ := hrule
      rw [fragmentsOf_cons hrule] at h
      obtain ⟨ss, hsteps, h⟩ := Outcome.bind_eq_ok.mp h
      obtain ⟨others, hothers, h⟩ := Outcome.bind_eq_ok.mp h
      rw [fragmentsOf_cons (hr.trans hrule), steps_extends ht (Outcome.mapError_eq_ok.mp hsteps)]
      exact Outcome.bind_eq_ok.mpr ⟨ss, rfl, Outcome.bind_eq_ok.mpr
        ⟨others, fragmentsOf_extends ht same hothers, h⟩⟩

end Access

/-! ## 4. Declarations -/

namespace Stack

open InfraDiagram.Graph (Grows)

variable {settings : Settings} {g g' : Graph} {n : Node} {name : String} {p p' : Parts}

/-- Of a diagram, declaring a node asks for the network around the node and for whether it can be
    reached from outside. -/
theorem emit_graph_congr {t : SymbolTable} {m : Node} (parent : g'.parent? m.id = g.parent? m.id)
    (isPublic : g'.isPublic m.id = g.isPublic m.id) :
    Resource.emit (scopeOf settings g' name t) m = Resource.emit (scopeOf settings g name t) m := by
  have network : (scopeOf settings g' name t).networkOf m =
      (scopeOf settings g name t).networkOf m := by
    unfold Resource.Scope.networkOf scopeOf
    simp only [parent]
  have symbol : (scopeOf settings g' name t).symbol m = (scopeOf settings g name t).symbol m := rfl
  unfold Resource.emit Resource.stepsOf
  rw [network, symbol]
  simp only [scopeOf, isPublic]

section Surroundings

variable {m : Node} (parent : g'.parent? m.id = g.parent? m.id)
include parent

theorem placeDefaultNetwork_graph_congr (a : Allocator) :
    placeDefaultNetwork settings g' a m = placeDefaultNetwork settings g a m := by
  unfold placeDefaultNetwork Graph.isUncontained
  rw [parent]

theorem admitted_graph_congr (a : Allocator) :
    admitted settings g' a m = admitted settings g a m := by
  unfold admitted
  rw [placeDefaultNetwork_graph_congr parent]

end Surroundings

/-- **Of a diagram, a run asks only for what is around its nodes and for which of them can be
    reached from outside.** -/
theorem declare_graph_congr : ∀ {ns : List Node} {a : Allocator},
    (∀ m ∈ ns, g'.parent? m.id = g.parent? m.id ∧ g'.isPublic m.id = g.isPublic m.id) →
      declare settings g' name a ns = declare settings g name a ns
  | [], _, _ => rfl
  | m :: ns, a, same => by
      obtain ⟨⟨parent, isPublic⟩, same⟩ := List.forall_mem_cons.mp same
      rw [declare_cons, declare_cons, placeDefaultNetwork_graph_congr parent,
        admitted_graph_congr parent, emit_graph_congr parent isPublic, declare_graph_congr same]

/-- **A run over old nodes is the run it was.** -/
theorem declare_grown (grows : Grows g n g') (wf : g.WellFormed) (wf' : g'.WellFormed)
    {ns : List Node} {a : Allocator} (old : ∀ m ∈ ns, m.id ≠ n.id) :
    declare settings g' name a ns = declare settings g name a ns :=
  declare_graph_congr fun m hm =>
    ⟨grows.parent?_eq wf wf' (old m hm), grows.isPublic_eq wf wf' (old m hm)⟩

/-- A run over two lists is a run over the first and then one over the second. -/
theorem declare_append_eq_ok {ms : List Node} : ∀ {ns : List Node} {a mid last : Allocator}
    {fs all : List Fragment}, declare settings g name a ns = .ok (mid, fs) →
    declare settings g name a (ns ++ ms) = .ok (last, all) →
    ∃ rest, declare settings g name mid ms = .ok (last, rest) ∧ all = fs ++ rest
  | [], a, mid, last, fs, all, h, h' => by
      cases h
      exact ⟨all, h', rfl⟩
  | n :: ns, a, mid, last, fs, all, h, h' => by
      obtain ⟨f, others, hf, hr, rfl⟩ := declare_cons_eq_ok_iff.mp h
      obtain ⟨f', others', hf', hr', rfl⟩ := declare_cons_eq_ok_iff.mp h'
      cases hf.symm.trans hf'
      obtain ⟨rest, hrest, rfl⟩ := declare_append_eq_ok hr hr'
      exact ⟨rest, hrest, by simp⟩

/-! ## 5. What a grown diagram compiles to -/

/-- **What a diagram compiles to, beside what it compiled to before it grew.** -/
structure Continues (settings : Settings) (g g' : Graph) (n : Node) (p p' : Parts) : Prop where
  order : p'.order = p.order ++ [n]
  /-- Every node and the default network keep their symbols. -/
  symbols : p.symbols.Extends p'.symbols
  /-- The new fragments stand between the declarations and the rules: that of the node, and before
      it that of the default network if the node is the first to need it. -/
  fragments : ∃ network f, p'.fragments = p.declarations ++ (network ++ [f]) ++ p.rules ∧
    p'.fragmentsOf n = [f] ∧
    ((Uncontained g' n ∧ (∀ m ∈ g.nodes, ¬ Uncontained g m) ∧
        ∃ symbol, p'.symbols.defaultNetwork = some symbol ∧
          network = [Resource.defaultNetwork symbol settings]) ∨
      (¬ (Uncontained g' n ∧ ∀ m ∈ g.nodes, ¬ Uncontained g m)) ∧ network = [])

/-- There is a default network exactly if a node needs it. -/
theorem Compiled.defaultNetwork_eq_none_iff (c : Compiled settings g name p) :
    p.symbols.defaultNetwork = none ↔ ∀ m ∈ g.nodes, ¬ Uncontained g m := by
  have wf := c.admitted.wellFormed
  obtain ⟨own, -, laid⟩ := c.laid
  rcases laid with ⟨all, hd, -⟩ | ⟨symbol, before, m, after, -, -, -, hd, e, -, hm, -⟩
  · refine iff_of_true hd fun m hm hu => ?_
    have contained := all m (c.mem_order.mpr hm)
    rw [(isUncontained_iff wf).mpr hu] at contained
    cases contained
  · refine iff_of_false (by simp [hd]) fun h => ?_
    have mem : m ∈ p.order := by rw [e]; simp
    exact h m (c.mem_order.mp mem) ((isUncontained_iff wf).mp hm)

theorem continues_of_parts (grows : Grows g n g') (h : parts settings g name = .ok p)
    (h' : parts settings g' name = .ok p') : Continues settings g g' n p p' := by
  have c := compiled_of_parts h
  have c' := compiled_of_parts h'
  have wf := c.admitted.wellFormed
  have wf' := c'.admitted.wellFormed
  obtain ⟨last, table, run, rules⟩ := runs_of_parts h
  obtain ⟨last', table', run', rules'⟩ := runs_of_parts h'
  have order : p'.order = p.order ++ [n] :=
    Except.ok.inj (c'.ordered.symm.trans (Order.order_grown grows wf wf' c.ordered))
  have old : ∀ m ∈ p.order, m.id ≠ n.id := fun m hm =>
    grows.ne_of_mem wf' (List.mem_map_of_mem (c.mem_order.mp hm))
  rw [← declare_grown grows wf wf' old] at run
  rw [order] at run'
  obtain ⟨rest, step, declarations⟩ := declare_append_eq_ok run run'
  have kept : p.symbols.Extends p'.symbols := by
    rw [← table, ← table']
    exact declare_extends step
  have same : p'.rules = p.rules := by
    have rerun := Access.fragmentsOf_extends kept (fun e he => grows.rule_eq wf wf' he) rules
    rw [Access.fragments, grows.accessEdges] at rules'
    exact Except.ok.inj (rules'.symm.trans rerun)
  obtain ⟨f, others, emitted, ended, rfl⟩ := declare_cons_eq_ok_iff.mp step
  cases ended
  have fragments : p'.fragments =
      p.declarations ++ ((placeDefaultNetwork settings g' last n).2 ++ [f]) ++ p.rules := by
    rw [Parts.fragments, declarations, same]
  refine ⟨order, kept, (placeDefaultNetwork settings g' last n).2, f, fragments, ?_, ?_⟩
  · obtain ⟨-, steps, -, -, only⟩ := c'.fragmentsOf_node grows.mem_nodes
    have mem : f ∈ p'.fragmentsOf n :=
      List.mem_filter.mpr ⟨by rw [fragments]; simp, beq_iff_eq.mpr (origin_emits emitted)⟩
    rw [only] at mem ⊢
    rw [List.mem_singleton.mp mem]
  · rcases defaultNetwork_admitted settings g' last n with ⟨symbol, hu, hd, hd', hf⟩ | ⟨hu, -, hf⟩
    · refine Or.inl ⟨(isUncontained_iff wf').mp hu, ?_, symbol, table' ▸ hd', hf⟩
      exact c.defaultNetwork_eq_none_iff.mp (table ▸ hd)
    · refine Or.inr ⟨?_, hf⟩
      rintro ⟨needs, first⟩
      obtain ⟨symbol, hd⟩ := hu ((isUncontained_iff wf').mpr needs)
      rw [table, c.defaultNetwork_eq_none_iff.mpr first] at hd
      cases hd

/-- **Growing a diagram renames nothing.** -/
theorem growth_keeps_names {stack stack' : Stack} (grows : Grows g n g')
    (h : generateNamed settings g name = .ok stack)
    (h' : generateNamed settings g' name = .ok stack') :
    ∃ p p', parts settings g name = .ok p ∧ parts settings g' name = .ok p' ∧
      stack.source = program settings.stackClass name p.fragments ∧
      stack'.source = program settings.stackClass name p'.fragments ∧
      stack.symbols = some p.symbols ∧ stack'.symbols = some p'.symbols ∧
      Order.order g = .ok p.order ∧ Order.order g' = .ok (p.order ++ [n]) ∧
      Continues settings g g' n p p' := by
  obtain ⟨p, hp, rfl⟩ := generateNamed_eq_ok_iff.mp h
  obtain ⟨p', hp', rfl⟩ := generateNamed_eq_ok_iff.mp h'
  have grown := continues_of_parts grows hp hp'
  refine ⟨p, p', hp, hp', rfl, rfl, rfl, rfl, (compiled_of_parts hp).ordered, ?_, grown⟩
  rw [← grown.order]
  exact (compiled_of_parts hp').ordered

/-- A second server called `Web` joins the network of the shop. -/
theorem webShop_grows_by_namesake :
    ∃ g' p p', g' = (webShop "MySQL").withChild "net" ⟨"twin", .server, "Web", []⟩ ∧
      parts {} (webShop "MySQL") "shop" = .ok p ∧ parts {} g' "shop" = .ok p' ∧
      Continues {} (webShop "MySQL") g' ⟨"twin", .server, "Web", []⟩ p p' := by
  have grows : Grows (webShop "MySQL") ⟨"twin", .server, "Web", []⟩
      ((webShop "MySQL").withChild "net" ⟨"twin", .server, "Web", []⟩) :=
    .inside (v := ⟨"net", .vpc, "Net", []⟩) (by decide) rfl
  obtain ⟨stack, h⟩ := exists_webShop
  obtain ⟨stack', h'⟩ : ∃ stack', generateNamed {} ((webShop "MySQL").withChild "net"
      ⟨"twin", .server, "Web", []⟩) "shop" = .ok stack' :=
    Outcome.exists_of_isOk (by decide)
  obtain ⟨p, p', hp, hp', -, -, -, -, -, -, grown⟩ := growth_keeps_names grows h h'
  exact ⟨_, p, p', rfl, hp, hp', grown⟩

end Stack

end InfraDiagram
