import InfraDiagram.Proofs.Rewiring
import InfraDiagram.Proofs.Validity

/-!
# Diagrams whose edges are reordered

The edges of a diagram are drawn in some order, which should not matter. It does not: the diagram
stays well formed (`Reorders.wellFormed`), the order of declaration stays, and each node is declared
as it was, because whether a node can be reached from outside does not depend on the order either
(`Reorders.isPublic_eq`). As long as the edges that let traffic through keep their order among each
other, the result of a compilation stays the same, be it a stack or an error
(`generateNamed_reordered`).

The rules follow the edges, and the first edge between a server and a database grants the secret.
So a new order moves lines. Which lines there are is told without an order: those of each edge by
itself (`Access.ruleTexts`), and one for each pair between which some edge grants a secret
(`Access.fragmentsOf_texts`).
-/

namespace InfraDiagram

open InfraDiagram.Graph (Rewires)

/-! ## 1. Look-ups and checks -/

namespace Graph

/-- **A diagram with its edges in another order.** -/
structure Reorders (g h : Graph) : Prop where
  nodes : h.nodes = g.nodes
  edges : h.edges.Perm g.edges

namespace Reorders

variable {g h : Graph} (r : Reorders g h)
include r

theorem rewires : Rewires g h := ⟨r.nodes, r.edges.filter _⟩

theorem accessEdges : h.accessEdges.Perm g.accessEdges := r.edges.filter _

theorem joined {x y : String} (joined : g.Joined x y) : h.Joined x y := by
  cases joined with
  | peers hm hn cm cn same =>
    refine .peers (r.nodes ▸ hm) (r.nodes ▸ hn) cm cn fun v => ?_
    rw [r.rewires.contains_iff, r.rewires.contains_iff]
    exact same v
  | fromInternet hn cn => exact .fromInternet (r.nodes ▸ hn) cn
  | toInternet hn cn => exact .toInternet (r.nodes ▸ hn) cn
  | fromNetwork hn cn within =>
    exact .fromNetwork (r.nodes ▸ hn) cn (r.rewires.contains_iff.mpr within)
  | toNetwork hn cn within =>
    exact .toNetwork (r.nodes ▸ hn) cn (r.rewires.contains_iff.mpr within)

/-- **A diagram stays well formed** when its edges are reordered. -/
theorem wellFormed (wf : g.WellFormed) : h.WellFormed where
  nodeProper := r.nodes ▸ wf.nodeProper
  nodesDistinct := by
    rw [nodeIds, r.nodes]
    exact wf.nodesDistinct
  edgeProper e he := wf.edgeProper e (r.edges.mem_iff.mp he)
  edgesDistinct := (r.edges.map Edge.id).nodup_iff.mpr wf.edgesDistinct
  ends e he := by
    rw [nodeIds, r.nodes]
    exact wf.ends e (r.edges.mem_iff.mp he)
  nests e he := by
    rw [r.nodes]
    exact wf.nests e (r.rewires.contains.mem_iff.mp he)
  single := (r.rewires.contains.map Edge.target).nodup_iff.mpr wf.single
  joins e he := by
    obtain ⟨ends, ports, joined⟩ := wf.joins e (r.accessEdges.mem_iff.mp he)
    exact ⟨ends, ports, r.joined joined⟩

variable (wf : g.WellFormed)
include wf

/-- Whether a node can be reached from outside does not depend on the order of edges. -/
theorem isPublic_eq (id : String) : h.isPublic id = g.isPublic id := by
  rw [Bool.eq_iff_iff]
  unfold isPublic
  simp only [List.any_eq_true, r.accessEdges.mem_iff, r.rewires.isAnySourceFor_eq wf]

end Reorders

end Graph

open InfraDiagram.Graph (Reorders)

/-! ## 2. What is checked and declared -/

namespace Stack

variable {settings : Settings} {g h : Graph} {name : String} {p p' : Parts}

section Reordered

variable (r : Reorders g h) (wf : g.WellFormed)
include r wf

theorem checkPlacement_reordered : checkPlacement settings h = checkPlacement settings g := by
  have uncontained : h.isUncontained = g.isUncontained := by
    funext n
    unfold Graph.isUncontained
    rw [r.rewires.parent?_eq wf]
  unfold checkPlacement
  rw [r.nodes, uncontained]

/-- **The check says the same**: neither diagram has structural problems, and all else that is
    checked does not depend on edges or is told by containment. -/
theorem checkInput_reordered : checkInput settings h name = checkInput settings g name := by
  have problems : (h.checkNamed name).problems = (g.checkNamed name).problems := by
    show Graph.stackNameProblems name ++ h.structureProblems =
      Graph.stackNameProblems name ++ g.structureProblems
    rw [Graph.structureProblems_eq_nil_iff.mpr wf,
      Graph.structureProblems_eq_nil_iff.mpr (r.wellFormed wf)]
  have report : (h.checkNamed name).toExcept = (g.checkNamed name).toExcept := by
    unfold Report.toExcept
    rw [problems]
  unfold checkInput
  rw [report, checkPlacement_reordered r wf]

theorem declare_reordered (a : Allocator) (ns : List Node) :
    declare settings h name a ns = declare settings g name a ns :=
  declare_graph_congr fun n _ => ⟨r.rewires.parent?_eq wf n.id, r.isPublic_eq wf n.id⟩

end Reordered

end Stack

/-! ## 3. Rules, whatever their order -/

namespace Access

open Fragment (Step)

variable {services : Catalog} {g h : Graph} {symbols : SymbolTable}

/-- Of a diagram, a run over edges asks for the rules of the edges. -/
theorem fragmentsOf_graph_congr : ∀ {es : List Edge} {granted : List (String × String)},
    (∀ e ∈ es, rule h e = rule g e) →
      fragmentsOf services h symbols granted es = fragmentsOf services g symbols granted es
  | [], _, _ => rfl
  | e :: es, granted, same => by
      obtain ⟨first, same⟩ := List.forall_mem_cons.mp same
      rw [fragmentsOf, first, fragmentsOf]
      simp only [fragmentsOf_graph_congr same]

/-- **The steps of an edge are made exactly if** its ports and the symbols of its ends are known. -/
theorem steps_eq_ok_iff {e : Edge} {r : Rule} {grants : Bool} {ss : List Step} :
    steps services symbols e r grants = .ok ss ↔
      ∃ ps target source?, ports services e r.target = .ok ps ∧
        symbols.get? r.target.id = some target ∧ SourceSymbol symbols r.source source? ∧
        ss = stepsWith services e target ps grants source? := by
  constructor
  · intro h
    obtain ⟨ps, hp, h'⟩ := Outcome.bind_eq_ok.mp h
    obtain ⟨target, ht, h'⟩ := Outcome.bind_eq_ok.mp h'
    have ht := symbolOf_eq_ok_iff.mp ht
    obtain ⟨source?, hs⟩ : ∃ source?, SourceSymbol symbols r.source source? := by
      cases hsource : r.source with
      | anywhere => exact ⟨none, .anywhere⟩
      | group n =>
        simp only [hsource] at h'
        obtain ⟨source, hs, -⟩ := Outcome.bind_eq_ok.mp h'
        exact ⟨some source, .group (symbolOf_eq_ok_iff.mp hs)⟩
    rw [steps_of_ports grants ht hs hp] at h
    exact ⟨ps, target, source?, hp, ht, hs, (Except.ok.inj h).symm⟩
  · rintro ⟨ps, target, source?, hp, ht, hs, rfl⟩
    exact steps_of_ports grants ht hs hp

/-- The rule of an edge and its steps can be made. -/
def Makes (services : Catalog) (g : Graph) (symbols : SymbolTable) (e : Edge) : Prop :=
  ∃ r ss, rule g e = .ok r ∧ steps services symbols e r false = .ok ss

/-- Whether a secret is granted does not decide whether the steps can be made. -/
theorem exists_steps {e : Edge} {r : Rule} {grants : Bool} {ss : List Step}
    (made : steps services symbols e r grants = .ok ss) (grants' : Bool) :
    ∃ ss', steps services symbols e r grants' = .ok ss' := by
  obtain ⟨ps, target, source?, hp, ht, hs, -⟩ := steps_eq_ok_iff.mp made
  exact ⟨_, steps_of_ports grants' ht hs hp⟩

/-- **A run over edges succeeds exactly if each edge can be made**, so their order and what has been
    granted before do not matter. -/
theorem exists_fragmentsOf_iff : ∀ {es : List Edge} {granted : List (String × String)},
    (∃ fs, fragmentsOf services g symbols granted es = .ok fs) ↔
      ∀ e ∈ es, Makes services g symbols e
  | [], _ => iff_of_true ⟨[], rfl⟩ (List.forall_mem_nil _)
  | e :: es, granted => by
      rw [List.forall_mem_cons]
      constructor
      · rintro ⟨fs, run⟩
        obtain ⟨r, hr, run'⟩ := Outcome.bind_eq_ok.mp run
        have hr := Outcome.mapError_eq_ok.mp hr
        rw [fragmentsOf_cons hr] at run
        obtain ⟨ss, hss, run⟩ := Outcome.bind_eq_ok.mp run
        obtain ⟨others, rest, -⟩ := Outcome.bind_eq_ok.mp run
        obtain ⟨own, made⟩ := exists_steps (Outcome.mapError_eq_ok.mp hss) false
        exact ⟨⟨r, own, hr, made⟩, exists_fragmentsOf_iff.mp ⟨others, rest⟩⟩
      · rintro ⟨⟨r, own, hr, made⟩, rest⟩
        obtain ⟨ss, hss⟩ := exists_steps made (!(newGrants granted r).isEmpty)
        obtain ⟨others, hothers⟩ : ∃ others,
            fragmentsOf services g symbols (newGrants granted r ++ granted) es = .ok others :=
          exists_fragmentsOf_iff.mpr rest
        rw [fragmentsOf_cons hr, hss, hothers]
        exact ⟨_, rfl⟩

/-- The lines of an edge by itself, without the secret that it may grant. -/
def ruleTexts (services : Catalog) (g : Graph) (symbols : SymbolTable) (e : Edge) : List String :=
  ((rule g e).toOption.bind fun r => (steps services symbols e r false).toOption).elim []
    fun ss => ss.filterMap Step.text?

/-- The line that grants a secret between a server and a database, told by their ids. -/
def grantTexts (symbols : SymbolTable) (pair : String × String) : List String :=
  ((symbols.get? pair.2).bind fun database =>
    (symbols.get? pair.1).map fun server => grantLine database server).toList

/-- **One edge**: its own lines, and the line of the secret that it is the first to grant. -/
theorem texts_edge {e : Edge} {r : Rule} {granted : List (String × String)} {ss : List Step}
    (hr : rule g e = .ok r)
    (made : steps services symbols e r (!(newGrants granted r).isEmpty) = .ok ss)
    (origin : Origin) :
    (Fragment.build origin ss).texts =
      ruleTexts services g symbols e ++ (newGrants granted r).flatMap (grantTexts symbols) := by
  obtain ⟨ps, target, source?, hp, ht, hs, rfl⟩ := steps_eq_ok_iff.mp made
  have own : ruleTexts services g symbols e = ps.map (ruleLine services e target source?) := by
    have lines := texts_stepsWith services e target ps false source? origin
    rw [Fragment.texts_build] at lines
    rw [ruleTexts, hr]
    show (steps services symbols e r false).toOption.elim [] _ = _
    rw [steps_of_ports false ht hs hp]
    refine lines.trans ?_
    cases source? <;> simp [grantLines]
  rw [texts_stepsWith, own, List.append_cancel_left_eq]
  rcases newGrants_cases granted r with none | ⟨pair, asks, new⟩
  · rw [none]
    cases source? <;> rfl
  · obtain ⟨m, hm, -, -, rfl⟩ := grantPair?_eq_some asks
    rw [hm] at hs
    cases hs with
    | group hs => simp [new, grantLines, grantTexts, ht, hs]

theorem nodup_newGrants (granted : List (String × String)) (r : Rule) :
    (newGrants granted r).Nodup := by
  rcases newGrants_cases granted r with none | ⟨pair, -, new⟩
  · rw [none]
    exact List.nodup_nil
  · rw [new]
    exact List.nodup_singleton pair

/-- An edge asks for a secret to be granted between two nodes. -/
def AsksGrant (g : Graph) (e : Edge) (pair : String × String) : Prop :=
  ∃ r, rule g e = .ok r ∧ r.grantPair? = some pair

/-- **The lines of a run over edges, whatever their order**: those of each edge by itself, and one
    for each pair that some edge asks for and that has not been granted. -/
theorem fragmentsOf_texts : ∀ {es : List Edge} {granted : List (String × String)}
    {fs : List Fragment}, fragmentsOf services g symbols granted es = .ok fs →
    ∃ pairs : List (String × String), pairs.Nodup ∧
      (∀ pair, pair ∈ pairs ↔ pair ∉ granted ∧ ∃ e ∈ es, AsksGrant g e pair) ∧
      (fs.flatMap Fragment.texts).Perm
        (es.flatMap (ruleTexts services g symbols) ++ pairs.flatMap (grantTexts symbols))
  | [], _, _, run => by
      cases run
      exact ⟨[], List.nodup_nil, fun pair => by simp, .refl _⟩
  | e :: es, granted, fs, run => by
      obtain ⟨r, hr, -⟩ := Outcome.bind_eq_ok.mp run
      have hr := Outcome.mapError_eq_ok.mp hr
      rw [fragmentsOf_cons hr] at run
      obtain ⟨ss, made, run⟩ := Outcome.bind_eq_ok.mp run
      obtain ⟨others, rest, run⟩ := Outcome.bind_eq_ok.mp run
      cases run
      obtain ⟨pairs, nodup, mem, perm⟩ := fragmentsOf_texts rest
      -- the pairs left are those not granted before `e` and not granted by `e`
      refine ⟨newGrants granted r ++ pairs, ?_, fun pair => ?_, ?_⟩
      · refine List.Nodup.append (nodup_newGrants granted r) nodup fun pair h h' => ?_
        exact ((mem pair).mp h').1 (List.mem_append_left _ h)
      · have asks : AsksGrant g e pair ↔ r.grantPair? = some pair := by
          unfold AsksGrant
          simp only [hr, Except.ok.injEq, exists_eq_left']
        rw [List.mem_append, mem, List.mem_append, mem_newGrants, List.exists_mem_cons_iff, asks]
        by_cases known : pair ∈ granted
        · simp [known]
        · by_cases own : r.grantPair? = some pair
          · simp [known, own]
          · simp [known, own]
      · rw [List.flatMap_cons, texts_edge hr (Outcome.mapError_eq_ok.mp made), List.flatMap_cons,
          List.flatMap_append, List.append_assoc, List.append_assoc]
        refine List.Perm.append_left _ ?_
        refine (perm.append_left _).trans ?_
        rw [← List.append_assoc, ← List.append_assoc]
        exact List.perm_append_comm.append_right _

/-- **Reordered edges give the same lines**, as a multiset. -/
theorem texts_perm {es es' : List Edge} {fs fs' : List Fragment}
    (same : ∀ e ∈ es', rule h e = rule g e) (reordered : es'.Perm es)
    (run : fragmentsOf services g symbols [] es = .ok fs)
    (run' : fragmentsOf services h symbols [] es' = .ok fs') :
    (fs'.flatMap Fragment.texts).Perm (fs.flatMap Fragment.texts) := by
  rw [fragmentsOf_graph_congr same] at run'
  obtain ⟨pairs, nodup, mem, perm⟩ := fragmentsOf_texts run
  obtain ⟨pairs', nodup', mem', perm'⟩ := fragmentsOf_texts run'
  have pairs_perm : pairs'.Perm pairs := by
    refine (List.perm_ext_iff_of_nodup nodup' nodup).mpr fun pair => ?_
    rw [mem, mem']
    simp only [reordered.mem_iff]
  calc fs'.flatMap Fragment.texts
    _ |>.Perm (es'.flatMap (ruleTexts services g symbols) ++ pairs'.flatMap (grantTexts symbols)) :=
      perm'
    _ |>.Perm (es.flatMap (ruleTexts services g symbols) ++ pairs.flatMap (grantTexts symbols)) :=
      (reordered.flatMap_right _).append (pairs_perm.flatMap_right _)
    _ |>.Perm (fs.flatMap Fragment.texts) := perm.symm

end Access

namespace Fragment

theorem mem_lines_step {f : Fragment} {s : Step} {l : Line} (h : l ∈ (f.step s).lines) :
    l ∈ f.lines ∨ l.indent = f.depth := by
  have added : ∀ {text}, l ∈ (f.addLine text).lines → l ∈ f.lines ∨ l.indent = f.depth := by
    intro text h
    rcases List.mem_append.mp h with h | h
    · exact Or.inl h
    · exact Or.inr (by rw [List.mem_singleton.mp h])
  cases s with
  | line text => exact added h
  | output o => exact added h
  | indent => exact Or.inl h
  | dedent => exact Or.inl h
  | use m =>
    simp only [step] at h
    split at h <;> exact Or.inl h
  | define v =>
    simp only [step] at h
    split at h <;> exact Or.inl h
  | reference v =>
    simp only [step] at h
    split at h <;> exact Or.inl h

/-- Steps that never indent write lines that are not indented. -/
theorem indent_extend {l : Line} : ∀ {steps : List Step} {f : Fragment},
    (∀ s ∈ steps, s.shift 0 = 0) → f.depth = 0 → l ∈ (f.extend steps).lines →
      l ∈ f.lines ∨ l.indent = 0
  | [], _, _, _, h => Or.inl h
  | s :: steps, f, flat, depth, h => by
      obtain ⟨first, flat⟩ := List.forall_mem_cons.mp flat
      have depth' : (f.step s).depth = 0 := by rw [depth_step, depth, first]
      rcases indent_extend (f := f.step s) flat depth' h with h | h
      · rw [← depth]
        exact mem_lines_step h
      · exact Or.inr h

theorem lines_of_flat {origin : Origin} {steps : List Step} (flat : ∀ s ∈ steps, s.shift 0 = 0) :
    (build origin steps).lines = (build origin steps).texts.map (Line.mk 0) := by
  have level : ∀ l ∈ (build origin steps).lines, Line.mk 0 l.text = l := by
    intro l hl
    rw [← (indent_extend flat rfl hl).resolve_left List.not_mem_nil]
  calc (build origin steps).lines
    _ = (build origin steps).lines.map id := (List.map_id _).symm
    _ = (build origin steps).lines.map (Line.mk 0 ∘ Line.text) :=
      List.map_congr_left fun l hl => (level l hl).symm
    _ = (build origin steps).texts.map (Line.mk 0) := List.map_map.symm

end Fragment

/-! ## 4. What a reordered diagram compiles to -/

namespace Stack

variable {settings : Settings} {g h : Graph} {name : String} {p p' : Parts}

/-- Rules are not indented, so they are told by the texts of their lines. -/
theorem Compiled.lines_rules (c : Compiled settings g name p) :
    p.rules.flatMap Fragment.lines = (p.rules.flatMap Fragment.texts).map (Line.mk 0) := by
  have flat : ∀ f ∈ p.rules, f.lines = f.texts.map (Line.mk 0) := by
    intro f hf
    obtain ⟨e, -, rule, grants, -, compiles⟩ := exists_match c.run.forall₂.flip hf
    cases compiles with
    | @intro target source? ps stands ht hs ports =>
      refine Fragment.lines_of_flat fun s hs => ?_
      cases source? with
      | none =>
        simp only [Access.stepsWith, Access.openRule, List.mem_append, List.mem_cons,
          List.not_mem_nil, List.mem_flatMap, or_false] at hs
        rcases hs with (rfl | rfl) | ⟨_, -, rfl⟩ <;> rfl
      | some source =>
        cases grants <;>
          simp only [Access.stepsWith, Access.groupRule, Access.secretGrant, List.mem_append,
            List.mem_cons, List.not_mem_nil, List.mem_flatMap, or_false, if_true,
            Bool.false_eq_true, if_false] at hs
        · rcases hs with (rfl | rfl) | ⟨_, -, rfl | rfl⟩ <;> rfl
        · rcases hs with ((rfl | rfl) | ⟨_, -, rfl | rfl⟩) | rfl | rfl | rfl <;> rfl
  rw [List.map_flatMap]
  exact List.flatMap_congr flat

/-- **What a diagram compiles to, beside what it compiled to before its edges were reordered.** -/
structure Reordered (p p' : Parts) : Prop where
  order : p'.order = p.order
  symbols : p'.symbols = p.symbols
  declarations : p'.declarations = p.declarations
  /-- The lines that open groups and grant secrets are the same, apart from their order. -/
  rules : (p'.rules.flatMap Fragment.lines).Perm (p.rules.flatMap Fragment.lines)

theorem exists_parts_reordered (r : Reorders g h) (hp : parts settings g name = .ok p) :
    ∃ p', parts settings h name = .ok p' ∧ Reordered p p' := by
  have c := compiled_of_parts hp
  have wf := c.admitted.wellFormed
  obtain ⟨last, table, run, rules⟩ := runs_of_parts hp
  have admitted : Admitted settings h name := by
    rw [← checkInput_eq_ok_iff, checkInput_reordered r wf, checkInput_eq_ok_iff]
    exact c.admitted
  have ordered : Order.order h = .ok p.order :=
    (Order.order_rewired r.rewires wf).trans c.ordered
  have same : ∀ e ∈ h.accessEdges, Access.rule h e = Access.rule g e :=
    fun e _ => r.rewires.rule_eq wf e
  obtain ⟨rules', hrules⟩ :
      ∃ rules', Access.fragments settings.services h p.symbols = .ok rules' := by
    rw [Access.fragments, Access.fragmentsOf_graph_congr same]
    refine Access.exists_fragmentsOf_iff.mpr fun e he => ?_
    exact Access.exists_fragmentsOf_iff.mp ⟨_, rules⟩ e (r.accessEdges.mem_iff.mp he)
  have hp' : parts settings h name = .ok ⟨p.order, p.symbols, p.declarations, rules'⟩ := by
    rw [parts_of_admitted admitted ordered, declare_reordered r wf, run, Outcome.ok_bind]
    show (Access.fragments settings.services h last.table >>= _) = _
    rw [table, hrules]
    rfl
  refine ⟨_, hp', rfl, rfl, rfl, ?_⟩
  rw [c.lines_rules, (compiled_of_parts hp').lines_rules]
  exact (Access.texts_perm same r.accessEdges rules hrules).map _

/-- **The order of edges does not matter**, as long as those that let traffic through keep theirs:
    the same stack results, or the same error. -/
theorem generateNamed_reordered (r : Reorders g h) (wf : g.WellFormed)
    (kept : h.accessEdges = g.accessEdges) :
    generateNamed settings h name = generateNamed settings g name := by
  have rules : Access.fragments settings.services h = Access.fragments settings.services g := by
    funext symbols
    rw [Access.fragments, kept, Access.fragments]
    exact Access.fragmentsOf_graph_congr fun e _ => r.rewires.rule_eq wf e
  have same : parts settings h name = parts settings g name := by
    unfold parts
    simp only [checkInput_reordered r wf, Order.order_rewired r.rewires wf,
      declare_reordered r wf, rules]
  unfold generateNamed
  rw [same]

/-- **The order of edges matters where it should and nowhere else.** A diagram that passes the check
    gives the same result when its edges are reordered and those that let traffic through keep their
    order. In any order it compiles or not, with the same symbols, variables, outputs and
    declarations, and with the same lines that open groups and grant secrets. -/
theorem edge_order_irrelevant (passes : g.checkStructure.problems = []) (r : Reorders g h) :
    (h.accessEdges = g.accessEdges →
      generateNamed settings h name = generateNamed settings g name) ∧
    ((∃ stack, generateNamed settings g name = .ok stack) ↔
      ∃ stack', generateNamed settings h name = .ok stack') ∧
    ∀ stack stack', generateNamed settings g name = .ok stack →
      generateNamed settings h name = .ok stack' →
      stack'.symbols = stack.symbols ∧ stack'.declared = stack.declared ∧
        stack'.outputs = stack.outputs ∧
        ∃ p p', parts settings g name = .ok p ∧ parts settings h name = .ok p' ∧
          stack.source = program settings.stackClass name p.fragments ∧
          stack'.source = program settings.stackClass name p'.fragments ∧ Reordered p p' := by
  have wf : g.WellFormed := Graph.wellFormed_of_structureProblems passes
  have back : Reorders h g := ⟨r.nodes.symm, r.edges.symm⟩
  refine ⟨generateNamed_reordered r wf, ⟨?_, ?_⟩, fun stack stack' compiles compiles' => ?_⟩
  · rintro ⟨stack, compiles⟩
    obtain ⟨p, hp, -⟩ := generateNamed_eq_ok_iff.mp compiles
    obtain ⟨p', hp', -⟩ := exists_parts_reordered r hp
    exact ⟨_, generateNamed_eq_ok_iff.mpr ⟨p', hp', rfl⟩⟩
  · rintro ⟨stack', compiles'⟩
    obtain ⟨p', hp', -⟩ := generateNamed_eq_ok_iff.mp compiles'
    obtain ⟨p, hp, -⟩ := exists_parts_reordered back hp'
    exact ⟨_, generateNamed_eq_ok_iff.mpr ⟨p, hp, rfl⟩⟩
  · obtain ⟨p, hp, rfl⟩ := generateNamed_eq_ok_iff.mp compiles
    obtain ⟨p', hp', rfl⟩ := generateNamed_eq_ok_iff.mp compiles'
    obtain ⟨q, hq, reordered⟩ := exists_parts_reordered r hp
    cases hp'.symm.trans hq
    have rewired := rewired_of_parts r.rewires hp hp'
    exact ⟨congrArg some rewired.symbols, rewired.declared, rewired.outputs,
      p, p', hp, hp', rfl, rfl, reordered⟩

/-- The shop with its edges in another order: the secret is granted with another edge. -/
def webShopReordered : Graph :=
  { webShop "MySQL" with
    edges := [⟨"5", internet, "web", .access [80, 80] none⟩, ⟨"2", "net", "db", .contains⟩,
      ⟨"4", "web", "db", .access [3307] none⟩, ⟨"1", "net", "web", .contains⟩,
      ⟨"3", "web", "db", .access [] (some "Database")⟩] }

/-- The shop compiles in both orders, to fragments that differ and lines that do not. -/
theorem webShop_reordered :
    ∃ p p', parts {} (webShop "MySQL") "shop" = .ok p ∧ parts {} webShopReordered "shop" = .ok p' ∧
      Reordered p p' ∧ ¬ p'.rules.Perm p.rules := by
  have r : Reorders (webShop "MySQL") webShopReordered := ⟨rfl, by decide⟩
  have passes : (webShop "MySQL").checkStructure.problems = [] := by decide
  obtain ⟨-, both, same⟩ :=
    @edge_order_irrelevant {} (webShop "MySQL") webShopReordered "shop" passes r
  obtain ⟨stack, compiles⟩ := exists_webShop
  obtain ⟨stack', compiles'⟩ := both.mp ⟨stack, compiles⟩
  obtain ⟨-, -, -, p, p', hp, hp', -, -, reordered⟩ := same stack stack' compiles compiles'
  have moved : (do
      let p ← parts {} (webShop "MySQL") "shop"
      let p' ← parts {} webShopReordered "shop"
      .ok (decide (p'.rules.Perm p.rules)) : Except CompileError Bool) = .ok false := by
    decide
  rw [hp, hp'] at moved
  exact ⟨p, p', hp, hp', reordered, of_decide_eq_false (Except.ok.inj moved)⟩

end Stack

end InfraDiagram
