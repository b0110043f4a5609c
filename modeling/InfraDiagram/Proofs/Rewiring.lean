import InfraDiagram.Proofs.DistinctIds
import InfraDiagram.Proofs.Growth
import Mathlib.Data.List.Find

/-!
# Diagrams that are rewired

A diagram is rewired if its nodes stay and the same containing edges are drawn, whatever becomes of
the edges that let traffic through (`Graph.Rewires`). Nothing is renamed then: symbols, variables,
outputs and modules stay, and the declaration of a node changes by at most one line, which says
whether the node is placed in public subnets (`SameButSubnets`).

Containment alone decides on the networks around nodes (`Rewires.parent?_eq`) and on the order of
declaration (`order_rewired`), and so on every symbol (`declare_rewired`). Whether a node can be
reached from outside decides on one line of its fragment, and on nothing else (`OneLine.build`).
Rules come last, and they define nothing and need no module that declarations do not need
(`Compiled.modulesOf_eq`, `Compiled.declaredBy_eq`).
-/

namespace InfraDiagram

/-! ## 1. What is looked up -/

namespace Graph

/-- **A diagram with other edges that let traffic through**: the nodes are the same, and so are the
    containing edges apart from their order. -/
structure Rewires (g h : Graph) : Prop where
  nodes : h.nodes = g.nodes
  contains : h.containsEdges.Perm g.containsEdges

namespace Rewires

variable {g h : Graph} (r : Rewires g h)
include r

theorem node?_eq (id : String) : h.node? id = g.node? id := by
  unfold node?
  rw [r.nodes]

theorem contains_iff {v n : Node} : h.Contains v n ↔ g.Contains v n := by
  unfold Contains
  simp only [r.nodes, r.contains.mem_iff]

variable (wf : g.WellFormed)
include wf

/-- **A node lies in the network it lay in**: only one containing edge leads to it, so it does not
    matter which is the first. -/
theorem parent?_eq (id : String) : h.parent? id = g.parent? id := by
  have alone : {e ∈ h.containsEdges | (e.target == id) = true}.Subsingleton := by
    rintro a ⟨ha, hta⟩ b ⟨hb, htb⟩
    have target : a.target = b.target := (beq_iff_eq.mp hta).trans (beq_iff_eq.mp htb).symm
    exact List.inj_on_of_nodup_map wf.single (r.contains.mem_iff.mp ha) (r.contains.mem_iff.mp hb)
      target
  have node : h.node? = g.node? := funext r.node?_eq
  unfold parent?
  rw [List.find?_eq_find?_of_perm r.contains alone, node]

theorem isAnySourceFor_eq (endpoint id : String) :
    h.isAnySourceFor endpoint id = g.isAnySourceFor endpoint id := by
  unfold isAnySourceFor
  rw [r.parent?_eq wf]

/-- **An edge asks for the rule it asked for.** -/
theorem rule_eq (e : Edge) : Access.rule h e = Access.rule g e := by
  have secured : Access.secured? h = Access.secured? g := by
    funext x
    rw [Access.secured?, r.node?_eq, Access.secured?]
  have refused : Access.refusal h e = Access.refusal g e := by
    rw [Access.refusal, r.node?_eq, r.node?_eq, Access.refusal]
  unfold Access.rule
  simp only [secured, refused, r.isAnySourceFor_eq wf]

end Rewires

end Graph

open InfraDiagram.Graph (Rewires)

/-! ## 2. The order of declaration -/

namespace Order

section Constraints

variable {ps qs : List (Nat × Nat)} (same : ∀ q, q ∈ ps ↔ q ∈ qs)
include same

theorem isReady_congr (left : List Nat) (i : Nat) : isReady ps left i = isReady qs left i := by
  rw [Bool.eq_iff_iff]
  unfold isReady
  simp only [List.all_eq_true, same]

/-- It does not matter in which order constraints are given, nor how often. -/
theorem arrange_congr : ∀ (rounds : Nat) (left : List Nat),
    arrange ps rounds left = arrange qs rounds left
  | 0, _ => rfl
  | rounds + 1, left => by
      have ready : isReady ps left = isReady qs left := funext (isReady_congr same left)
      rw [arrange, ready, arrange]
      cases left.find? (isReady qs left) with
      | none => rfl
      | some i => simp only [arrange_congr rounds]

end Constraints

/-- **The order of declaration stays**: it is told by containment. -/
theorem order_rewired {g h : Graph} (r : Rewires g h) (wf : g.WellFormed) : order h = order g := by
  have ends := endAtNodes_containsEdges wf
  have ends' : h.EndAtNodes h.containsEdges := by
    intro e he
    unfold Graph.nodeIds
    rw [r.nodes]
    exact ends e (r.contains.mem_iff.mp he)
  obtain ⟨ps, hps, mem⟩ := exists_constraints ends
  obtain ⟨qs, hqs, mem'⟩ := exists_constraints ends'
  have same : ∀ q, q ∈ qs ↔ q ∈ ps := by
    intro q
    rw [mem, mem']
    simp only [r.contains.mem_iff, EndsAt, r.nodes]
  rw [order_of_constraints hqs, order_of_constraints hps, r.nodes, arrange_congr same]

end Order

/-! ## 3. One line more -/

namespace Fragment

/-- **A fragment with one more line**, and nothing else. -/
def Inserts (l : Line) (f f' : Fragment) : Prop :=
  ∃ before after, f.lines = before ++ after ∧ f' = { f with lines := before ++ l :: after }

theorem inserts_addLine (f : Fragment) (text : String) :
    Inserts ⟨f.depth, text⟩ f (f.addLine text) :=
  ⟨f.lines, [], (List.append_nil _).symm, rfl⟩

/-- A step does to a fragment with one more line what it does to the fragment. -/
theorem Inserts.step {l : Line} {f f' : Fragment} (h : Inserts l f f') (s : Step) :
    Inserts l (f.step s) (f'.step s) := by
  obtain ⟨before, after, e, rfl⟩ := h
  cases s with
  | line text =>
    exact ⟨before, after ++ [⟨f.depth, text⟩], by simp [Fragment.step, addLine, e],
      by simp [Fragment.step, addLine]⟩
  | output o =>
    exact ⟨before, after ++ [⟨f.depth, outputLine o⟩], by simp [Fragment.step, addLine, e],
      by simp [Fragment.step, addLine]⟩
  | indent => exact ⟨before, after, e, rfl⟩
  | dedent => exact ⟨before, after, e, rfl⟩
  | use m =>
    simp only [Fragment.step]
    split <;> exact ⟨before, after, e, rfl⟩
  | define v =>
    simp only [Fragment.step]
    split <;> exact ⟨before, after, e, rfl⟩
  | reference v =>
    simp only [Fragment.step]
    split <;> exact ⟨before, after, e, rfl⟩

theorem Inserts.extend {l : Line} : ∀ (steps : List Step) {f f' : Fragment},
    Inserts l f f' → Inserts l (f.extend steps) (f'.extend steps)
  | [], _, _, h => h
  | s :: steps, _, _, h => Inserts.extend steps (h.step s)

/-- How deep the line after a step stands. -/
def Step.shift (depth : Nat) : Step → Nat
  | .indent => depth + 1
  | .dedent => depth - 1
  | _ => depth

theorem depth_step (f : Fragment) (s : Step) : (f.step s).depth = s.shift f.depth := by
  cases s with
  | use m =>
    simp only [step]
    split <;> rfl
  | define v =>
    simp only [step]
    split <;> rfl
  | reference v =>
    simp only [step]
    split <;> rfl
  | _ => rfl

theorem depth_extend : ∀ (steps : List Step) (f : Fragment),
    (f.extend steps).depth = steps.foldl Step.shift f.depth
  | [], _ => rfl
  | s :: steps, f => by
      rw [List.foldl_cons, ← depth_step]
      exact depth_extend steps (f.step s)

/-- **Steps that depend on a condition by one line**: `text` is written, one level deep, if the
    condition holds. -/
def OneLine (text : String) (steps : Bool → List Step) : Prop :=
  ∃ before after : List Step, before.foldl Step.shift 0 = 1 ∧
    ∀ b, steps b = before ++ (if b then [.line text] else []) ++ after

theorem OneLine.build {text : String} {steps : Bool → List Step} (h : OneLine text steps)
    (origin : Origin) :
    Inserts ⟨1, text⟩ (Fragment.build origin (steps false))
      (Fragment.build origin (steps true)) := by
  obtain ⟨before, after, depth, e⟩ := h
  have deep : (extend { origin } before).depth = 1 := (depth_extend before _).trans depth
  have first : Fragment.build origin (steps false) = extend (extend { origin } before) after := by
    rw [e, Fragment.build]
    simp [extend]
  have second : Fragment.build origin (steps true) =
      extend ((extend { origin } before).addLine text) after := by
    rw [e, Fragment.build]
    simp [extend, step]
  rw [first, second, ← deep]
  exact (inserts_addLine _ text).extend after

end Fragment

namespace Resource

open Fragment (OneLine)

theorem Server.steps_oneLine (s : Server) (settings : Settings) (nodeId : String)
    (symbol network : Symbol) :
    OneLine publicSubnets (s.steps settings nodeId symbol network) := by
  have declaration : ∀ b, s.declaration symbol network b =
      (s.declaration symbol network false).take 4 ++ (if b then [.line publicSubnets] else [])
        ++ (s.declaration symbol network false).drop 4 := by
    intro b
    cases b <;> rfl
  refine ⟨securityGroup symbol network ++ serverRole symbol settings
    ++ (s.declaration symbol network false).take 4, (s.declaration symbol network false).drop 4
      ++ s.appPath.elim [] (application symbol) ++ s.userData.elim [] (script symbol)
      ++ [.output (address nodeId symbol)], rfl, fun b => ?_⟩
  rw [steps_eq, declaration b]
  simp only [List.append_assoc]

theorem Database.steps_oneLine (d : Database) (settings : Settings) (stackName : String)
    (symbol network : Symbol) :
    OneLine publicSubnets (d.steps settings stackName symbol network) := by
  unfold steps
  generalize databaseName settings stackName symbol = name
  have declaration : ∀ b, d.declaration name symbol network b =
      (d.declaration name symbol network false).take 7
        ++ (if b then [.line publicSubnets] else [])
        ++ (d.declaration name symbol network false).drop 7 := by
    intro b
    cases b <;> rfl
  refine ⟨securityGroup symbol network ++ (d.declaration name symbol network false).take 7,
    (d.declaration name symbol network false).drop 7, rfl, fun b => ?_⟩
  simp only [declaration b, List.append_assoc]

end Resource

/-! ## 4. Declarations -/

namespace Stack

open Fragment (OneLine Inserts)
open Resource (emit publicSubnets)

variable {settings : Settings} {g h : Graph} {name : String} {p p' : Parts}

/-- **Two fragments that differ in the line about public subnets at most**: they are the same,
    unless they declare a server or database that can be reached from outside in one of two diagrams
    only; then the fragment of that diagram has the line, and the other one lacks it. -/
inductive SameButSubnets (g h : Graph) : Fragment → Fragment → Prop where
  | same {f : Fragment} (agree : ∀ n ∈ g.nodes, n.isCompute = true → f.origin = .node n.id →
      h.isPublic n.id = g.isPublic n.id) : SameButSubnets g h f f
  | opened {n : Node} {f f' : Fragment} (hn : n ∈ g.nodes) (cn : n.isCompute = true)
      (origin : f.origin = .node n.id) (before : g.isPublic n.id = false)
      (now : h.isPublic n.id = true) (line : Inserts ⟨1, publicSubnets⟩ f f') :
      SameButSubnets g h f f'
  | closed {n : Node} {f f' : Fragment} (hn : n ∈ g.nodes) (cn : n.isCompute = true)
      (origin : f.origin = .node n.id) (before : g.isPublic n.id = true)
      (now : h.isPublic n.id = false) (line : Inserts ⟨1, publicSubnets⟩ f' f) :
      SameButSubnets g h f f'

/-- What fragments give and need besides their lines is the same. -/
theorem SameButSubnets.frame {f f' : Fragment} (s : SameButSubnets g h f f') :
    f'.origin = f.origin ∧ f'.imports = f.imports ∧ f'.defines = f.defines ∧
      f'.references = f.references ∧ f'.outputs = f.outputs := by
  cases s with
  | same agree => exact ⟨rfl, rfl, rfl, rfl, rfl⟩
  | opened hn cn origin before now line =>
    obtain ⟨_, _, -, rfl⟩ := line
    exact ⟨rfl, rfl, rfl, rfl, rfl⟩
  | closed hn cn origin before now line =>
    obtain ⟨_, _, -, rfl⟩ := line
    exact ⟨rfl, rfl, rfl, rfl, rfl⟩

theorem sameButSubnets_of_not_compute (wf : g.WellFormed) {n : Node} (hn : n ∈ g.nodes)
    (cn : n.isCompute = false) (steps : List Fragment.Step) :
    SameButSubnets g h (.build (.node n.id) steps) (.build (.node n.id) steps) := by
  refine .same fun m hm cm origin => ?_
  rw [Fragment.origin_build] at origin
  rw [Graph.eq_of_id_eq wf.nodesDistinct hm hn (Origin.node.inj origin).symm, cn] at cm
  cases cm

theorem sameButSubnets_of_oneLine (wf : g.WellFormed) {n : Node} (hn : n ∈ g.nodes)
    (cn : n.isCompute = true) {steps : Bool → List Fragment.Step}
    (oneLine : OneLine publicSubnets steps) :
    SameButSubnets g h (.build (.node n.id) (steps (g.isPublic n.id)))
      (.build (.node n.id) (steps (h.isPublic n.id))) := by
  have agree (f : Fragment) (origin : f.origin = .node n.id)
      (same : h.isPublic n.id = g.isPublic n.id) : SameButSubnets g h f f := by
    refine .same fun m hm _ origin' => ?_
    rw [Graph.eq_of_id_eq wf.nodesDistinct hm hn (Origin.node.inj (origin'.symm.trans origin))]
    exact same
  have line := oneLine.build (.node n.id)
  cases before : g.isPublic n.id <;> cases now : h.isPublic n.id
  · exact agree _ (Fragment.origin_build _ _) (now.trans before.symm)
  · exact .opened hn cn (Fragment.origin_build _ _) before now line
  · exact .closed hn cn (Fragment.origin_build _ _) before now line
  · exact agree _ (Fragment.origin_build _ _) (now.trans before.symm)

section Rewired

variable (r : Rewires g h) (wf : g.WellFormed)
include r wf

/-- **One node**: it is declared as it was, apart from its subnets. -/
theorem emit_rewired {t : SymbolTable} {n : Node} (hn : n ∈ g.nodes) {f : Fragment}
    (hf : emit (scopeOf settings g name t) n = .ok f) :
    ∃ f', emit (scopeOf settings h name t) n = .ok f' ∧ SameButSubnets g h f f' := by
  have network : (scopeOf settings h name t).network? n =
      (scopeOf settings g name t).network? n := by
    unfold Resource.Scope.network? scopeOf
    simp only [r.parent?_eq wf]
  have emits : ∀ {symbol steps}, t.get? n.id = some symbol →
      Resource.Declares (scopeOf settings h name t) n symbol steps →
        emit (scopeOf settings h name t) n = .ok (.build (.node n.id) steps) :=
    fun hs declares => Resource.emit_eq_ok_iff.mpr ⟨_, _, hs, declares, rfl⟩
  obtain ⟨symbol, steps, hs, declares, rfl⟩ := Resource.emit_eq_ok_iff.mp hf
  cases declares with
  | vpc kind =>
    exact ⟨_, emits hs (.vpc kind),
      sameButSubnets_of_not_compute wf hn (by rw [Node.isCompute, kind]; rfl) _⟩
  | server kind read within =>
    exact ⟨_, emits hs (.server (s := scopeOf settings h name t) kind read (network.trans within)),
      sameButSubnets_of_oneLine wf hn (by rw [Node.isCompute, kind]; rfl)
        (Resource.Server.steps_oneLine ..)⟩
  | database kind read within =>
    exact ⟨_,
      emits hs (.database (s := scopeOf settings h name t) kind read (network.trans within)),
      sameButSubnets_of_oneLine wf hn (by rw [Node.isCompute, kind]; rfl)
        (Resource.Database.steps_oneLine ..)⟩
  | bucket kind read =>
    exact ⟨_, emits hs (.bucket kind read),
      sameButSubnets_of_not_compute wf hn (by rw [Node.isCompute, kind]; rfl) _⟩

/-- **All nodes**: the same symbols are given out, and each node is declared as it was, apart from
    its subnets. -/
theorem declare_rewired : ∀ {ns : List Node} {a last : Allocator} {fs : List Fragment},
    (∀ n ∈ ns, n ∈ g.nodes) → declare settings g name a ns = .ok (last, fs) →
    ∃ fs', declare settings h name a ns = .ok (last, fs') ∧
      List.Forall₂ (SameButSubnets g h) fs fs'
  | [], _, _, _, _, run => by
      cases run
      exact ⟨[], rfl, .nil⟩
  | n :: ns, a, last, fs, mem, run => by
      obtain ⟨hn, mem⟩ := List.forall_mem_cons.mp mem
      obtain ⟨f, others, hf, rest, rfl⟩ := declare_cons_eq_ok_iff.mp run
      obtain ⟨f', hf', same⟩ := emit_rewired r wf hn hf
      obtain ⟨others', rest', sames⟩ := declare_rewired mem rest
      have parent := r.parent?_eq wf n.id
      have placed : List.Forall₂ (SameButSubnets g h) (placeDefaultNetwork settings g a n).2
          (placeDefaultNetwork settings g a n).2 := by
        refine List.forall₂_same.mpr fun network hnetwork => .same fun m _ _ origin => ?_
        rcases defaultNetwork_admitted settings g a n with ⟨symbol, -, -, -, e⟩ | ⟨-, -, e⟩
        · rw [e, List.mem_singleton] at hnetwork
          rw [hnetwork, origin_defaultNetwork] at origin
          cases origin
        · rw [e] at hnetwork
          cases hnetwork
      refine ⟨(placeDefaultNetwork settings g a n).2 ++ f' :: others', ?_,
        List.rel_append placed (.cons same sames)⟩
      refine declare_cons_eq_ok_iff.mpr ⟨f', others', ?_, ?_, ?_⟩
      · rw [admitted_graph_congr parent]
        exact hf'
      · rw [admitted_graph_congr parent]
        exact rest'
      · rw [placeDefaultNetwork_graph_congr parent]

end Rewired

/-! ## 5. What rules add -/

theorem flatMap_eq_of_forall₂ {α β : Type} {R : α → α → Prop} {F : α → List β}
    (keeps : ∀ x y, R x y → F y = F x) {xs ys : List α} (related : List.Forall₂ R xs ys) :
    ys.flatMap F = xs.flatMap F := by
  induction related with
  | nil => rfl
  | cons first rest ih => rw [List.flatMap_cons, List.flatMap_cons, keeps _ _ first, ih]

/-- **Rules define nothing**, and they need one module only. -/
theorem Compiled.rule_adds_nothing (c : Compiled settings g name p) {f : Fragment}
    (hf : f ∈ p.rules) : f.defines = [] ∧ ∀ m ∈ f.imports, m = .ec2 := by
  obtain ⟨e, -, rule, grants, -, compiles⟩ := exists_match c.run.forall₂.flip hf
  cases compiles with
  | @intro target source? ps stands ht hs ports =>
    refine ⟨List.eq_nil_iff_forall_not_mem.mpr fun v hv => ?_, fun m hm => ?_⟩
    · have hv := Fragment.mem_defines_build.mp hv
      cases source? with
      | none => simp [Access.stepsWith, Access.openRule] at hv
      | some source =>
        cases grants <;> simp [Access.stepsWith, Access.groupRule, Access.secretGrant] at hv
    · have hm := Fragment.mem_imports_build.mp hm
      cases source? with
      | none => simpa [Access.stepsWith, Access.openRule] using hm
      | some source =>
        cases grants <;> simpa [Access.stepsWith, Access.groupRule, Access.secretGrant] using hm

/-- Where there is a rule, a server or database is declared, and it needs the module of rules. -/
theorem Compiled.ec2_mem_modulesOf (c : Compiled settings g name p) {f : Fragment}
    (hf : f ∈ p.rules) : .ec2 ∈ modulesOf p.declarations := by
  obtain ⟨e, -, rule, grants, -, compiles⟩ := exists_match c.run.forall₂.flip hf
  cases compiles with
  | intro stands ht hs ports =>
    obtain ⟨hn, cn⟩ := stands.target_mem
    obtain ⟨own, emits, laid⟩ := c.laid
    obtain ⟨declaration, hd, emitted⟩ := exists_match emits (c.mem_order.mpr hn)
    obtain ⟨symbol, steps, -, declares, rfl⟩ := Resource.emit_eq_ok_iff.mp emitted
    refine mem_modulesOf.mpr ⟨_, laid.mem hd, Fragment.mem_imports_build.mpr ?_⟩
    cases declares with
    | vpc kind => rw [Node.isCompute, kind] at cn; cases cn
    | server kind read within => simp [Resource.Server.steps, Resource.securityGroup]
    | database kind read within => simp [Resource.Database.steps, Resource.securityGroup]
    | bucket kind read => rw [Node.isCompute, kind] at cn; cases cn

theorem Compiled.modulesOf_eq (c : Compiled settings g name p) :
    modulesOf p.fragments = modulesOf p.declarations := by
  rw [Parts.fragments, modulesOf, List.flatMap_append, List.foldl_append]
  refine foldl_appendNew_of_subset fun m hm => ?_
  obtain ⟨f, hf, hm⟩ := List.mem_flatMap.mp hm
  rw [(c.rule_adds_nothing hf).2 m hm]
  exact c.ec2_mem_modulesOf hf

theorem Compiled.declaredBy_eq (c : Compiled settings g name p) :
    declaredBy p.fragments = declaredBy p.declarations := by
  have nothing : p.rules.flatMap Fragment.defines = [] :=
    List.flatMap_eq_nil_iff.mpr fun f hf => (c.rule_adds_nothing hf).1
  rw [Parts.fragments, declaredBy, List.flatMap_append, nothing, List.append_nil, declaredBy]

theorem Compiled.outputs_eq (c : Compiled settings g name p) :
    p.fragments.flatMap Fragment.outputs = p.declarations.flatMap Fragment.outputs := by
  have nothing : p.rules.flatMap Fragment.outputs = [] :=
    List.flatMap_eq_nil_iff.mpr fun f hf => c.outputs_of_rule hf
  rw [Parts.fragments, List.flatMap_append, nothing, List.append_nil]

/-! ## 6. What a rewired diagram compiles to -/

/-- **What a diagram compiles to, beside what it compiled to before it was rewired.** -/
structure Rewired (g h : Graph) (p p' : Parts) : Prop where
  order : p'.order = p.order
  /-- Every node and the default network keep their symbols. -/
  symbols : p'.symbols = p.symbols
  declarations : List.Forall₂ (SameButSubnets g h) p.declarations p'.declarations
  declared : declaredBy p'.fragments = declaredBy p.fragments
  outputs : p'.fragments.flatMap Fragment.outputs = p.fragments.flatMap Fragment.outputs
  /-- The programs begin with the same import statements. -/
  modules : modulesOf p'.fragments = modulesOf p.fragments

theorem rewired_of_parts (r : Rewires g h) (hp : parts settings g name = .ok p)
    (hp' : parts settings h name = .ok p') : Rewired g h p p' := by
  have c := compiled_of_parts hp
  have c' := compiled_of_parts hp'
  have wf := c.admitted.wellFormed
  obtain ⟨last, table, run, -⟩ := runs_of_parts hp
  obtain ⟨last', table', run', -⟩ := runs_of_parts hp'
  have order : p'.order = p.order :=
    Except.ok.inj (c'.ordered.symm.trans ((Order.order_rewired r wf).trans c.ordered))
  obtain ⟨fs, rerun, same⟩ := declare_rewired r wf (fun n hn => c.mem_order.mp hn) run
  rw [order, rerun] at run'
  cases run'
  refine ⟨order, table'.symm.trans table, same, ?_, ?_, ?_⟩
  · rw [c.declaredBy_eq, c'.declaredBy_eq, declaredBy, declaredBy,
      flatMap_eq_of_forall₂ (fun f f' s => s.frame.2.2.1) same]
  · rw [c.outputs_eq, c'.outputs_eq,
      flatMap_eq_of_forall₂ (fun f f' s => s.frame.2.2.2.2) same]
  · rw [c.modulesOf_eq, c'.modulesOf_eq, modulesOf, modulesOf,
      flatMap_eq_of_forall₂ (fun f f' s => s.frame.2.1) same]

/-- **Rewiring a diagram renames nothing.** -/
theorem rewiring_keeps_names {stack stack' : Stack} (r : Rewires g h)
    (compiles : generateNamed settings g name = .ok stack)
    (compiles' : generateNamed settings h name = .ok stack') :
    stack'.symbols = stack.symbols ∧ stack'.declared = stack.declared ∧
      stack'.outputs = stack.outputs ∧
      ∃ p p', parts settings g name = .ok p ∧ parts settings h name = .ok p' ∧
        stack.source = program settings.stackClass name p.fragments ∧
        stack'.source = program settings.stackClass name p'.fragments ∧
        stack.symbols = some p.symbols ∧ Rewired g h p p' := by
  obtain ⟨p, hp, rfl⟩ := generateNamed_eq_ok_iff.mp compiles
  obtain ⟨p', hp', rfl⟩ := generateNamed_eq_ok_iff.mp compiles'
  have rewired := rewired_of_parts r hp hp'
  exact ⟨congrArg some rewired.symbols, rewired.declared, rewired.outputs,
    p, p', hp, hp', rfl, rfl, rfl, rewired⟩

/-- The shop with other edges that let traffic through: its database can be reached from outside,
    and its server cannot. -/
def webShopInsideOut : Graph :=
  { webShop "MySQL" with
    edges := [⟨"2", "net", "db", .contains⟩, ⟨"1", "net", "web", .contains⟩,
      ⟨"6", internet, "db", .access [] (some "mysql")⟩] }

/-- The shop keeps its symbols; one declaration loses its public subnets and one gets them. -/
theorem webShop_rewired_keeps_names :
    ∃ p p', parts {} (webShop "MySQL") "shop" = .ok p ∧ parts {} webShopInsideOut "shop" = .ok p' ∧
      Rewired (webShop "MySQL") webShopInsideOut p p' ∧ p'.declarations ≠ p.declarations := by
  have r : Rewires (webShop "MySQL") webShopInsideOut := ⟨rfl, by decide⟩
  obtain ⟨stack, compiles⟩ := exists_webShop
  obtain ⟨stack', compiles'⟩ : ∃ stack', generateNamed {} webShopInsideOut "shop" = .ok stack' :=
    Outcome.exists_of_isOk (by decide)
  obtain ⟨-, -, -, p, p', hp, hp', -, -, -, rewired⟩ := rewiring_keeps_names r compiles compiles'
  have differ : (parts {} webShopInsideOut "shop").map Parts.declarations ≠
      (parts {} (webShop "MySQL") "shop").map Parts.declarations := by decide
  refine ⟨p, p', hp, hp', rewired, fun e => differ ?_⟩
  rw [hp, hp']
  exact congrArg Except.ok e

end Stack

end InfraDiagram
