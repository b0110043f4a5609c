import InfraDiagram.Proofs.SourceLines

/-!
# Where the program places servers and databases

A server or database is declared in one network: the one that contains it, or else the default
network (`DeclaredIn`). It is put into public subnets exactly if one of its rules lets traffic in
from anywhere, and rules that join groups join nodes of one network.

The last holds of every line of the program text, as long as the managed policy stays in its
literal. A policy that leaves it may join groups of two networks (`injected_rule_crosses`).
-/

namespace InfraDiagram.Stack

open Access (Stands)
open Resource (groupLine placeLine publicSubnets)
open Text

variable {settings : Settings} {g : Graph} {name : String} {p : Parts}

/-! ## 1. Public subnets -/

/-- An unrestricted source of a node is no server and no database. -/
theorem outside_of_isAnySourceFor (wf : g.WellFormed) {n : Node} {x : String}
    (h : g.isAnySourceFor x n.id = true) : ∀ m ∈ g.nodes, m.id = x → m.isCompute = false := by
  rw [Graph.isAnySourceFor, Bool.or_eq_true, beq_iff_eq] at h
  rcases h with rfl | h
  · exact Access.outside_internet wf
  · cases hp : g.parent? n.id with
    | none =>
      rw [hp] at h
      cases h
    | some v =>
      have hv : v.id = x := by simpa [hp] using h
      rw [← hv]
      exact Access.outside_network wf (Graph.contains_of_parent? hp)

theorem isPublic_of_otherEnd {n : Node} {e : Edge} {x : String} (he : e ∈ g.accessEdges)
    (hx : e.otherEnd? n.id = some x) (h : g.isAnySourceFor x n.id = true) :
    g.isPublic n.id = true :=
  List.any_eq_true.mpr ⟨e, he, by rw [hx]; exact h⟩

/-- **A node can be reached from outside exactly if the rules of an edge open it to anywhere.** -/
theorem isPublic_iff (wf : g.WellFormed) {n : Node} (hn : n ∈ g.nodes) (hc : n.isCompute = true) :
    g.isPublic n.id = true ↔ ∃ e ∈ g.accessEdges, Stands g e n .anywhere := by
  constructor
  · intro h
    obtain ⟨e, he, hany⟩ := List.any_eq_true.mp h
    refine ⟨e, he, ?_⟩
    unfold Edge.otherEnd? at hany
    split at hany
    · rename_i hs
      exact .outOf hn hc (beq_iff_eq.mp hs) (outside_of_isAnySourceFor wf hany)
    · split at hany
      · rename_i ht
        exact .into hn hc (beq_iff_eq.mp ht) (outside_of_isAnySourceFor wf hany)
      · cases hany
  · rintro ⟨e, he, stands⟩
    -- the edge has a rule, so its other end is an unrestricted source of `n`
    obtain ⟨r, hr, -⟩ := Access.exists_rule wf he
    cases stands with
    | into _ _ ht outside =>
      rw [Access.rule_into wf hn hc ht outside] at hr
      split at hr
      · rename_i hany
        have hne : (e.source == n.id) = false := by
          rw [beq_eq_false_iff_ne]
          intro hs
          rw [outside n hn hs.symm] at hc
          cases hc
        exact isPublic_of_otherEnd he (by simp [Edge.otherEnd?, hne, ht]) hany
      · cases hr
    | outOf _ _ hs outside =>
      rw [Access.rule_outOf wf hn hc hs outside] at hr
      split at hr
      · rename_i hany
        exact isPublic_of_otherEnd he (by simp [Edge.otherEnd?, hs]) hany
      · cases hr

/-- **A program opens the group of a node to anywhere exactly if the rules of an edge do.** -/
theorem Compiled.opened_iff (c : Compiled settings g name p) {n : Node} (hn : n ∈ g.nodes)
    {symbol : Symbol} (hs : p.symbols.get? n.id = some symbol) :
    (∃ f ∈ p.edgeFragments, ∃ t ∈ f.texts, Begins (Access.openingFor symbol) t) ↔
      ∃ e ∈ g.accessEdges, Stands g e n .anywhere := by
  have wf := c.admitted.wellFormed
  rw [c.edgeFragments_eq]
  constructor
  · rintro ⟨f, hf, t, ht, hb⟩
    obtain ⟨e, he, r, grants, -, hcomp⟩ := exists_match c.run.forall₂.flip hf
    obtain ⟨a, ha, numbered⟩ := c.numbered
    have line := hcomp.edgeLine ht
    rw [← ha] at line hs
    obtain ⟨hsource, hid⟩ := line.of_opening numbered hs hb
    obtain ⟨stands, -, -, -⟩ := hcomp
    rw [hsource, Graph.eq_of_id_eq wf.nodesDistinct stands.target_mem.1 hn hid] at stands
    exact ⟨e, he, stands⟩
  · rintro ⟨e, he, stands⟩
    obtain ⟨f, hf, r, grants, hr, hcomp⟩ := exists_match c.run.forall₂ he
    cases Access.rule_eq_of_stands wf hr stands
    obtain @⟨target, source?, ps, -, htarget, hsource, ports⟩ := hcomp
    obtain ⟨port, hport⟩ := List.exists_mem_of_ne_nil ps ports.ne_nil
    cases hsource
    cases hs.symm.trans htarget
    refine ⟨_, hf, Access.ruleLine settings.services e symbol none port, ?_, _, rfl⟩
    rw [Access.texts_stepsWith]
    exact List.mem_append_left _ (List.mem_map_of_mem hport)

/-- **Public subnets agree with the rules.** A server or database is declared in public subnets
    exactly if a rule of the same program opens its group to anywhere. -/
theorem publicSubnets_iff_opened {stack : Stack} (h : generateNamed settings g name = .ok stack) :
    ∃ p, parts settings g name = .ok p ∧
      stack.source = program settings.stackClass name p.fragments ∧
      ∀ n ∈ g.nodes, n.isCompute = true →
        ∃ f symbol, p.fragmentsOf n = [f] ∧ p.symbols.get? n.id = some symbol ∧
          (publicSubnets ∈ f.texts ↔
            ∃ r ∈ p.edgeFragments, ∃ t ∈ r.texts,
              Begins ((symbol.satellite .securityGroup).var
                ++ ".add_ingress_rule(ec2.Peer.any_ipv4(), ") t) := by
  obtain ⟨p, hp, rfl⟩ := generateNamed_eq_ok_iff.mp h
  have c := compiled_of_parts hp
  refine ⟨p, hp, rfl, fun n hn hc => ?_⟩
  obtain ⟨symbol, steps, hs, hd, hf⟩ := c.fragmentsOf_node hn
  obtain ⟨i, hi⟩ := c.var hs
  refine ⟨_, symbol, hf, hs, ?_⟩
  calc publicSubnets ∈ (Fragment.build (.node n.id) steps).texts
      ↔ Resource.Placed (scopeIn settings g name p) n symbol publicSubnets :=
        hd.mem_texts_iff_placed hi (by simp [Resource.placeWords]) Resource.publicSubnets_begins
    _ ↔ g.isPublic n.id = true :=
        (Resource.placed_publicSubnets_iff hi).trans (and_iff_right hc)
    _ ↔ ∃ e ∈ g.accessEdges, Stands g e n .anywhere := isPublic_iff c.admitted.wellFormed hn hc
    _ ↔ _ := (c.opened_iff hn hs).symm

/-- In the shop the server that anyone may reach is declared in public subnets. -/
theorem webShop_server_is_public : ∃ stack p f,
    generateNamed {} (webShop "MySQL") "shop" = .ok stack ∧
    parts {} (webShop "MySQL") "shop" = .ok p ∧
    p.fragmentsOf ⟨"web", .server, "Web", []⟩ = [f] ∧ publicSubnets ∈ f.texts := by
  obtain ⟨stack, h⟩ := exists_webShop
  obtain ⟨p, hp, -, all⟩ := publicSubnets_iff_opened h
  have c := compiled_of_parts hp
  have hweb : (⟨"web", .server, "Web", []⟩ : Node) ∈ (webShop "MySQL").nodes := by decide
  obtain ⟨f, symbol, hf, hs, agrees⟩ := all _ hweb rfl
  refine ⟨stack, p, f, h, hp, hf, agrees.mpr ((c.opened_iff hweb hs).mpr ?_)⟩
  exact (isPublic_iff c.admitted.wellFormed hweb rfl).mp (by decide)

/-! ## 2. Networks -/

/-- **A node is declared in the network of a variable**: its security group and the resource itself
    are, and in no other. -/
def DeclaredIn (p : Parts) (n : Node) (v : String) : Prop :=
  ∃ f symbol, p.fragmentsOf n = [f] ∧ p.symbols.get? n.id = some symbol ∧
    (∀ w, groupLine symbol w ∈ f.texts ↔ w = v) ∧ ∀ w, placeLine n.kind w ∈ f.texts ↔ w = v

theorem declares_network {s : Resource.Scope} {n : Node} {symbol : Symbol}
    {steps : List Fragment.Step} (h : Resource.Declares s n symbol steps)
    (hc : n.isCompute = true) : ∃ net, s.network? n = some net := by
  cases h with
  | vpc kind => rw [Node.isCompute, kind] at hc; cases hc
  | server kind read within => exact ⟨_, within⟩
  | database kind read within => exact ⟨_, within⟩
  | bucket kind read => rw [Node.isCompute, kind] at hc; cases hc

/-- **Every server and database is declared in its network.** -/
theorem Compiled.declaredIn (c : Compiled settings g name p) {n : Node} (hn : n ∈ g.nodes)
    (hc : n.isCompute = true) :
    ∃ net, (scopeIn settings g name p).network? n = some net ∧ DeclaredIn p n net.var := by
  obtain ⟨symbol, steps, hs, hd, hf⟩ := c.fragmentsOf_node hn
  obtain ⟨i, hi⟩ := c.var hs
  obtain ⟨net, within⟩ := declares_network hd hc
  have only : ∀ w, (n.isCompute = true ∧ ∃ net, (scopeIn settings g name p).network? n = some net ∧
      w = net.var) ↔ w = net.var := by
    refine fun w => ⟨fun ⟨_, net', within', e⟩ => ?_, fun e => ⟨hc, net, within, e⟩⟩
    cases within.symm.trans within'
    exact e
  refine ⟨net, within, _, symbol, hf, hs, fun w => ?_, fun w => ?_⟩
  · rw [hd.mem_groupLine_iff_placed hi, Resource.placed_groupLine_iff hi]
    exact only w
  · rw [hd.mem_texts_iff_placed hi (by simp [Resource.placeWords]) (Resource.placeLine_begins _ _),
      Resource.placed_placeLine_iff hi]
    exact only w

theorem network?_of_contains (wf : g.WellFormed) {n v : Node} (h : g.Contains v n) :
    (scopeIn settings g name p).network? n = p.symbols.get? v.id := by
  have hp := Graph.parent?_of_contains wf.nodesDistinct wf.single h
  simp only [Resource.Scope.network?, scopeIn, scopeOf, hp]

theorem network?_of_uncontained {n : Node} (h : ∀ v, ¬ g.Contains v n) :
    (scopeIn settings g name p).network? n = p.symbols.defaultNetwork := by
  have hp : g.parent? n.id = none := by
    cases hp : g.parent? n.id with
    | none => rfl
    | some v => exact absurd (Graph.contains_of_parent? hp) (h v)
  simp only [Resource.Scope.network?, scopeIn, scopeOf, hp]

/-! ## 3. The default network -/

/-- **The default network is declared for the first node that needs it, once.** -/
theorem Compiled.defaultNetwork_placed (c : Compiled settings g name p) :
    ((∀ n ∈ g.nodes, ¬ Uncontained g n) ∧ ∀ f ∈ p.fragments, f.origin ≠ .defaultNetwork) ∨
    ∃ net before n after fb f fa, p.symbols.defaultNetwork = some net ∧
      p.order = before ++ n :: after ∧ (∀ m ∈ before, ¬ Uncontained g m) ∧ Uncontained g n ∧
      p.fragments = fb ++ Resource.defaultNetwork net settings :: f :: fa ∧
      f.origin = .node n.id ∧ ∀ f' ∈ fb ++ f :: fa, f'.origin ≠ .defaultNetwork := by
  have wf := c.admitted.wellFormed
  have contained : ∀ {m}, g.isUncontained m = false → ¬ Uncontained g m := fun h hu => by
    rw [(isUncontained_iff wf).mpr hu] at h
    cases h
  obtain ⟨own, emits, laid⟩ := c.laid
  have others : ∀ f ∈ own ++ p.rules, f.origin ≠ .defaultNetwork := by
    intro f hf e
    rcases List.mem_append.mp hf with hf | hf
    · obtain ⟨n, -, hemit⟩ := exists_match emits.flip hf
      cases (origin_emits hemit).symm.trans e
    · obtain ⟨_, -, ho⟩ := c.rule_origin hf
      cases ho.symm.trans e
  rcases laid with ⟨none, -, e⟩ |
    ⟨net, before, n, after, fb, f, fa, hnet, ho, hb, hn, e, hlen, e'⟩
  · refine Or.inl ⟨fun n hn => contained (none n (c.mem_order.mpr hn)), fun f hf => ?_⟩
    rw [Parts.fragments, e] at hf
    exact others f hf
  · have origin : f.origin = .node n.id := by
      have ho' := map_origin_emits emits
      rw [e, ho, List.map_append, List.map_append, List.map_cons, List.map_cons] at ho'
      have := (List.append_inj ho' (by simpa using hlen)).2
      exact (List.cons.inj this).1
    refine Or.inr ⟨net, before, n, after, fb, f, fa ++ p.rules, hnet, ho,
      fun m hm => contained (hb m hm), (isUncontained_iff wf).mp hn, ?_, origin, ?_⟩
    · rw [Parts.fragments, e']
      simp
    · intro f' hf'
      exact others f' (by rw [e]; simpa using hf')

/-! ## 4. Rules that join groups -/

/-- Nodes whose groups a rule joins are contained in the same network. -/
theorem contains_iff_of_stands (wf : g.WellFormed) {e : Edge} (he : e ∈ g.accessEdges)
    {m n : Node} (h : Stands g e n (.group m)) (v : Node) : g.Contains v m ↔ g.Contains v n := by
  have joined := (wf.joins e he).2.2
  cases h with
  | between hm hn cm cn hs ht =>
    rw [hs, ht] at joined
    generalize hx : m.id = x at joined
    generalize hy : n.id = y at joined
    cases joined with
    | @peers m' n' hm' hn' _ _ same =>
      rw [Graph.eq_of_id_eq wf.nodesDistinct hm hm' hx,
        Graph.eq_of_id_eq wf.nodesDistinct hn hn' hy]
      exact same v
    | fromInternet _ _ => exact absurd hx (wf.nodeProper m hm).2
    | toInternet _ _ => exact absurd hy (wf.nodeProper n hn).2
    | fromNetwork _ _ within =>
      rw [Access.outside_network wf within m hm hx] at cm
      cases cm
    | toNetwork _ _ within =>
      rw [Access.outside_network wf within n hn hy] at cn
      cases cn

theorem network?_congr (wf : g.WellFormed) {m n : Node}
    (h : ∀ v, g.Contains v m ↔ g.Contains v n) :
    (scopeIn settings g name p).network? m = (scopeIn settings g name p).network? n := by
  by_cases hv : ∃ v, g.Contains v m
  · obtain ⟨v, hv⟩ := hv
    rw [network?_of_contains wf hv, network?_of_contains wf ((h v).mp hv)]
  · have none : ∀ v, ¬ g.Contains v m := fun v hm => hv ⟨v, hm⟩
    rw [network?_of_uncontained none, network?_of_uncontained fun v hn => none v ((h v).mpr hn)]

/-- **A line that joins groups** is the rule of an edge between two nodes that are declared in the
    same network. -/
def JoinsWithin (settings : Settings) (g : Graph) (p : Parts) (line : String) : Prop :=
  ∃ e ∈ g.accessEdges, ∃ m ∈ g.nodes, ∃ n ∈ g.nodes, ∃ source target port v,
    p.symbols.get? m.id = some source ∧ p.symbols.get? n.id = some target ∧
    line = Access.ruleLine settings.services e target (some source) port ∧
    DeclaredIn p m v ∧ DeclaredIn p n v

/-- **A rule that joins groups joins nodes that are declared in the same network.** -/
theorem Compiled.joined_in_network (c : Compiled settings g name p) {f : Fragment}
    (hf : f ∈ p.fragments) {t : String} (ht : t ∈ f.texts) {k : Nat}
    (hb : Begins (variableName k ++ "_sg.connections.allow_from(") t) :
    JoinsWithin settings g p t := by
  have wf := c.admitted.wellFormed
  rcases List.mem_append.mp hf with hf | hf
  · exact absurd hb (c.not_rule hf ht (by simp [Resource.ruleTails]))
  · obtain ⟨e, he, r, grants, -, hcomp⟩ := exists_match c.run.forall₂.flip hf
    obtain ⟨a, ha, numbered⟩ := c.numbered
    have line := hcomp.edgeLine ht
    rw [← ha] at line
    obtain ⟨m, target, source, port, hm, hntarget, hmsource, same⟩ := line.of_joining numbered hb
    rw [ha] at hntarget hmsource
    obtain ⟨stands, -, -, -⟩ := hcomp
    rw [hm] at stands
    obtain ⟨mm, cm⟩ := stands.source_mem
    obtain ⟨mn, cn⟩ := stands.target_mem
    obtain ⟨net, hnet, hdm⟩ := c.declaredIn mm cm
    obtain ⟨net', hnet', hdn⟩ := c.declaredIn mn cn
    rw [network?_congr wf (contains_iff_of_stands wf he stands), hnet'] at hnet
    cases hnet
    exact ⟨e, he, m, mm, r.target, mn, source, target, port, _, hmsource, hntarget, same, hdm, hdn⟩

/-- **The same of the lines of the text**, if the managed policy stays in its literal. -/
theorem joined_in_source (h : parts settings g name = .ok p) (stays : PolicyStays settings g)
    {line : String}
    (hl : line ∈ sourceLines (program settings.stackClass name p.fragments)) {k : Nat}
    (hb : Begins (variableName k ++ "_sg.connections.allow_from(") line) :
    JoinsWithin settings g p line := by
  have c := compiled_of_parts h
  obtain ⟨before, after, e, others⟩ := rulesStand_of_parts h stays
  have rule : line ∈ p.edgeFragments.flatMap Fragment.texts := by
    rw [e, List.append_assoc, List.mem_append, List.mem_append] at hl
    by_contra no
    refine others line ?_ _ (by simp [Resource.ruleTails]) k hb
    exact List.mem_append.mpr (hl.imp_right fun h => h.resolve_left no)
  obtain ⟨f, hf, ht⟩ := List.mem_flatMap.mp rule
  exact c.joined_in_network (List.mem_of_mem_filter hf) ht hb

/-! ## 5. The whole diagram -/

/-- **Where a program places the nodes of a diagram.** -/
structure Places (settings : Settings) (g : Graph) (p : Parts) (source : String) : Prop where
  /-- A node is declared in the variable of the network that contains it. -/
  contained : ∀ n ∈ g.nodes, n.isCompute = true → ∀ v, g.Contains v n →
    ∃ f symbol, p.fragmentsOf v = [f] ∧ p.symbols.get? v.id = some symbol ∧
      symbol.var ∈ f.defines ∧ DeclaredIn p n symbol.var
  /-- Without such a network it is declared in the variable of the default network. -/
  uncontained : ∀ n ∈ g.nodes, Uncontained g n →
    ∃ net, p.symbols.defaultNetwork = some net ∧ DeclaredIn p n net.var
  /-- There is a default network exactly if a node needs it. -/
  needed : (∃ f ∈ p.fragments, f.origin = .defaultNetwork) ↔ ∃ n ∈ g.nodes, Uncontained g n
  /-- There is one, and it stands just before the first node that needs it. -/
  once : (∃ n ∈ g.nodes, Uncontained g n) →
    ∃ net before n after fb f fa, p.symbols.defaultNetwork = some net ∧
      p.order = before ++ n :: after ∧ (∀ m ∈ before, ¬ Uncontained g m) ∧ Uncontained g n ∧
      p.fragments = fb ++ Resource.defaultNetwork net settings :: f :: fa ∧
      f.origin = .node n.id ∧ ∀ f' ∈ fb ++ f :: fa, f'.origin ≠ .defaultNetwork
  /-- A rule that joins groups joins nodes that are declared in the same network. -/
  ruled : ∀ f ∈ p.fragments, ∀ t ∈ f.texts, ∀ k,
    Begins (variableName k ++ "_sg.connections.allow_from(") t → JoinsWithin settings g p t
  /-- The text is made of the lines of the fragments, one after the other, between those of the
      class, if the managed policy stays in its literal. -/
  spelled : PolicyStays settings g → ∃ before after,
    sourceLines source = before ++ p.fragments.flatMap Fragment.texts ++ after
  /-- Then every line of the text that joins groups is such a rule. -/
  joined : PolicyStays settings g → ∀ line ∈ sourceLines source, ∀ k,
    Begins (variableName k ++ "_sg.connections.allow_from(") line → JoinsWithin settings g p line

theorem places_of_parts (h : parts settings g name = .ok p) :
    Places settings g p (program settings.stackClass name p.fragments) where
  contained n hn hc v hv := by
    have c := compiled_of_parts h
    obtain ⟨net, hnet, hd⟩ := c.declaredIn hn hc
    rw [network?_of_contains c.admitted.wellFormed hv] at hnet
    obtain ⟨symbol, steps, hs, hdecl, hf⟩ := c.fragmentsOf_node hv.1
    cases hs.symm.trans hnet
    exact ⟨_, _, hf, hs, Fragment.mem_defines_build.mpr hdecl.define_var, hd⟩
  uncontained n hn hu := by
    obtain ⟨net, hnet, hd⟩ := (compiled_of_parts h).declaredIn hn hu.1
    rw [network?_of_uncontained hu.2] at hnet
    exact ⟨net, hnet, hd⟩
  needed := by
    have c := compiled_of_parts h
    rcases c.defaultNetwork_placed with ⟨hno, hf⟩ |
      ⟨net, before, n, after, fb, f, fa, -, ho, -, hn, e, -, -⟩
    · exact ⟨fun ⟨f, hm, ho⟩ => absurd ho (hf f hm), fun ⟨n, hn, hu⟩ => absurd hu (hno n hn)⟩
    · refine iff_of_true ⟨Resource.defaultNetwork net settings, ?_, origin_defaultNetwork net⟩
        ⟨n, c.mem_order.mp ?_, hn⟩
      · rw [e]
        simp
      · rw [ho]
        simp
  once := by
    rintro ⟨n, hn, hu⟩
    exact (compiled_of_parts h).defaultNetwork_placed.resolve_left fun h => h.1 n hn hu
  ruled f hf t ht k hb := (compiled_of_parts h).joined_in_network hf ht hb
  spelled stays := by
    rw [sourceLines_program h stays, programTexts_eq]
    exact ⟨_, _, List.append_assoc _ _ _⟩
  joined stays line hl k hb := joined_in_source h stays hl hb

/-- **Every node is declared in its own network.** The security group and the resource of a server
    or database are declared in the network that contains it, or else in the default network, which
    is there exactly if it is needed, once, just before the first node that needs it. Rules that
    join groups never cross networks, and no line of the text does if the managed policy stays in
    its literal. -/
theorem compilation_places_nodes {stack : Stack} (h : generateNamed settings g name = .ok stack) :
    ∃ p, parts settings g name = .ok p ∧
      stack.source = program settings.stackClass name p.fragments ∧
      Order.order g = .ok p.order ∧ Places settings g p stack.source := by
  obtain ⟨p, hp, rfl⟩ := generateNamed_eq_ok_iff.mp h
  exact ⟨p, hp, rfl, (compiled_of_parts hp).ordered, places_of_parts hp⟩

/-- In the shop one server is outside any network, so there is a default network. -/
theorem webShop_has_default_network : PolicyStays {} (webShop "MySQL") ∧ ∃ stack p,
    generateNamed {} (webShop "MySQL") "shop" = .ok stack ∧
    parts {} (webShop "MySQL") "shop" = .ok p ∧
    Places {} (webShop "MySQL") p stack.source ∧ ∃ f ∈ p.fragments, f.origin = .defaultNetwork := by
  obtain ⟨stack, h⟩ := exists_webShop
  obtain ⟨p, hp, -, -, places⟩ := compilation_places_nodes h
  have wf := (compiled_of_parts hp).admitted.wellFormed
  refine ⟨by decide, stack, p, h, hp, places,
    places.needed.mpr ⟨⟨"job", .server, "Job", []⟩, by decide, ?_⟩⟩
  exact (isUncontained_iff wf).mp (by decide)

/-- Two networks with a server in each. -/
def twoNetworks : Graph where
  name := "shop"
  nodes := [⟨"n1", .vpc, "n1", []⟩, ⟨"a", .server, "a", []⟩, ⟨"n2", .vpc, "n2", []⟩,
    ⟨"b", .server, "b", []⟩]
  edges := [⟨"1", "n1", "a", .contains⟩, ⟨"2", "n2", "b", .contains⟩]

/-- A rule that joins the groups of the servers. -/
def crossing : String :=
  "a2_sg.connections.allow_from(ec2.Connections(security_groups=[a4_sg]), ec2.Port.tcp(22), 'y')"

/-- A managed policy that leaves its literal may join the groups of servers that are declared in
    different networks. -/
theorem injected_rule_crosses :
    ∃ stack p, generateNamed (injected crossing) twoNetworks "shop" = .ok stack ∧
      parts (injected crossing) twoNetworks "shop" = .ok p ∧ crossing ∈ sourceLines stack.source ∧
      p.symbols.get? "a" = some ⟨"a2", "a1"⟩ ∧ p.symbols.get? "b" = some ⟨"a4", "b1"⟩ ∧
      DeclaredIn p ⟨"a", .server, "a", []⟩ "a1" ∧ DeclaredIn p ⟨"b", .server, "b", []⟩ "a3" := by
  have named : (parts (injected crossing) twoNetworks "shop").map (fun p =>
      (p.symbols.get? "a", p.symbols.get? "b", p.symbols.get? "n1", p.symbols.get? "n2")) =
      .ok (some ⟨"a2", "a1"⟩, some ⟨"a4", "b1"⟩, some ⟨"a1", "n11"⟩, some ⟨"a3", "n21"⟩) := by
    decide
  obtain ⟨p, hp, e⟩ := Outcome.map_eq_ok.mp named
  obtain ⟨ha, e⟩ := Prod.mk.inj e
  obtain ⟨hb, e⟩ := Prod.mk.inj e
  obtain ⟨h1, h2⟩ := Prod.mk.inj e
  have read := mem_sourceLines_injected hp (List.mem_cons_of_mem _ List.mem_cons_self) rfl
    (by decide)
  obtain ⟨_, _, -, first, -, declared⟩ := (places_of_parts hp).contained
    ⟨"a", .server, "a", []⟩ (by decide) rfl ⟨"n1", .vpc, "n1", []⟩
    ⟨by decide, ⟨"1", "n1", "a", .contains⟩, by decide, rfl, rfl⟩
  obtain ⟨_, _, -, second, -, declared'⟩ := (places_of_parts hp).contained
    ⟨"b", .server, "b", []⟩ (by decide) rfl ⟨"n2", .vpc, "n2", []⟩
    ⟨by decide, ⟨"2", "n2", "b", .contains⟩, by decide, rfl, rfl⟩
  cases h1.symm.trans first
  cases h2.symm.trans second
  exact ⟨_, p, generateNamed_eq_ok_iff.mpr ⟨p, hp, rfl⟩, hp, read, ha, hb, declared, declared'⟩

end InfraDiagram.Stack
