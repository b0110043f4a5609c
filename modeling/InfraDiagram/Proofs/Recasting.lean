import InfraDiagram.Proofs.ProgramScope

/-!
# Diagrams whose nodes are recast

A recasting replaces every node by one of the same id, kind, name and engine; it may change all
other properties. Everything in a compilation but the declarations of the nodes goes by what a
recasting keeps: the checks, the order, the symbols and the rules (`checkInput_recast`,
`order_recast`, `fragments_recast`). So a recast diagram compiles to parts of which the same is seen,
if the same is seen of each declaration (`parts_recast`).
-/

namespace InfraDiagram

/-- **A recasting of nodes.** -/
structure Recasting (φ : Node → Node) : Prop where
  id : ∀ n, (φ n).id = n.id
  kind : ∀ n, (φ n).kind = n.kind
  name : ∀ n, (φ n).name = n.name
  engine : ∀ n, Engine.ofNode? (φ n) = Engine.ofNode? n

/-- The diagram with its nodes recast. -/
def Graph.recast (g : Graph) (φ : Node → Node) : Graph := { g with nodes := g.nodes.map φ }

variable {φ : Node → Node} (hφ : Recasting φ) (g : Graph)
include hφ

/-! ## 1. What is looked up in a diagram -/

theorem Recasting.isCompute (n : Node) : (φ n).isCompute = n.isCompute := by
  unfold Node.isCompute
  rw [hφ.kind]

namespace Graph

theorem nodeIds_recast : (g.recast φ).nodeIds = g.nodeIds := by
  unfold nodeIds recast
  rw [List.map_map]
  exact List.map_congr_left fun n _ => hφ.id n

theorem node?_recast (id : String) : (g.recast φ).node? id = (g.node? id).map φ := by
  unfold node? recast
  rw [List.find?_map]
  refine congrArg (Option.map φ) ?_
  refine congrArg (fun p => g.nodes.find? p) (funext fun n => ?_)
  show ((φ n).id == id) = (n.id == id)
  rw [hφ.id]

theorem parent?_recast (id : String) : (g.recast φ).parent? id = (g.parent? id).map φ := by
  have edges : (g.recast φ).containsEdges = g.containsEdges := rfl
  unfold parent?
  rw [edges, Option.map_bind]
  exact congrArg _ (funext fun e => node?_recast hφ g e.source)

theorem isAnySourceFor_recast (endpoint id : String) :
    (g.recast φ).isAnySourceFor endpoint id = g.isAnySourceFor endpoint id := by
  unfold isAnySourceFor
  rw [parent?_recast hφ]
  cases g.parent? id with
  | none => rfl
  | some p => simp [hφ.id]

theorem isPublic_recast (id : String) : (g.recast φ).isPublic id = g.isPublic id := by
  unfold isPublic
  simp only [isAnySourceFor_recast hφ]
  rfl

theorem isUncontained_recast (n : Node) :
    (g.recast φ).isUncontained (φ n) = g.isUncontained n := by
  unfold isUncontained
  rw [hφ.isCompute, hφ.id, parent?_recast hφ, Option.isNone_map]

/-! ## 2. The checks -/

theorem nodeIdProblems_recast : ∀ (seen : List String) (ns : List Node),
    nodeIdProblems seen (ns.map φ) = nodeIdProblems seen ns
  | _, [] => rfl
  | seen, n :: ns => by
      simp only [List.map_cons, nodeIdProblems, hφ.id, nodeIdProblems_recast]

theorem nestingProblems_recast : ∀ (contained : List String) (es : List Edge),
    nestingProblems (g.recast φ) contained es = nestingProblems g contained es
  | _, [] => rfl
  | contained, e :: es => by
      have rest := fun contained => nestingProblems_recast contained es
      unfold nestingProblems
      rw [node?_recast hφ, node?_recast hφ]
      cases g.node? e.source with
      | none => exact rest contained
      | some parent =>
        cases g.node? e.target with
        | none => exact rest contained
        | some child => simp only [Option.map_some, hφ.id, hφ.kind, rest]

theorem containsCycle?_recast : (g.recast φ).containsCycle? = g.containsCycle? := by
  have children : (g.recast φ).childIds = g.childIds := rfl
  have bound : (g.recast φ).searchBound = g.searchBound := by
    unfold searchBound
    rw [show (g.recast φ).nodes.length = g.nodes.length from List.length_map _]
    rfl
  unfold containsCycle?
  rw [children, bound, nodeIds_recast hφ]

theorem endRole_recast (e : Edge) (endpoint : String) :
    endRole (g.recast φ) e endpoint = endRole g e endpoint := by
  unfold endRole
  rw [node?_recast hφ]
  cases g.node? endpoint with
  | none => rfl
  | some n =>
    have parent : ((g.recast φ).parent? n.id).map Node.id = (g.parent? n.id).map Node.id := by
      rw [parent?_recast hφ, Option.map_map]
      exact congrArg (fun f => Option.map f _) (funext hφ.id)
    simp only [Option.map_some, hφ.kind, hφ.id, parent]

theorem checkAccess_recast (e : Edge) : checkAccess (g.recast φ) e = checkAccess g e := by
  unfold checkAccess
  rw [endRole_recast hφ, endRole_recast hφ]

/-- **A recast diagram has the problems of the diagram.** -/
theorem structureProblems_recast : structureProblems (g.recast φ) = structureProblems g := by
  have dangling : danglingProblems (g.recast φ) = danglingProblems g := by
    funext e
    unfold danglingProblems
    rw [nodeIds_recast hφ]
  have containment : containmentProblems (g.recast φ) = containmentProblems g := by
    unfold containmentProblems
    rw [containsCycle?_recast hφ, nestingProblems_recast hφ]
    rfl
  have access : ∀ edges, accessProblems (g.recast φ) edges = accessProblems g edges := by
    intro edges
    unfold accessProblems
    simp only [checkAccess_recast hφ]
  unfold structureProblems
  rw [dangling, containment, access]
  exact congrArg (fun ps => ps ++ _ ++ _ ++ _ ++ _) (nodeIdProblems_recast hφ [] g.nodes)

end Graph

namespace Stack

theorem checkPlacement_recast (settings : Settings) :
    checkPlacement settings (g.recast φ) = checkPlacement settings g := by
  have found : (g.recast φ).nodes.find? (g.recast φ).isUncontained =
      (g.nodes.find? g.isUncontained).map φ := by
    show (g.nodes.map φ).find? _ = _
    rw [List.find?_map]
    refine congrArg (Option.map φ) ?_
    exact congrArg (fun p => g.nodes.find? p) (funext fun n => Graph.isUncontained_recast hφ g n)
  unfold checkPlacement
  rw [found]
  cases g.nodes.find? g.isUncontained with
  | none => rfl
  | some n => simp only [Option.map_some, hφ.id]

theorem checkInput_recast (settings : Settings) (name : String) :
    checkInput settings (g.recast φ) name = checkInput settings g name := by
  -- only the problems decide, warnings are not looked at
  have report : ((g.recast φ).checkNamed name).toExcept = (g.checkNamed name).toExcept := by
    have problems : ((g.recast φ).checkNamed name).problems = (g.checkNamed name).problems :=
      congrArg (Graph.stackNameProblems name ++ ·) (Graph.structureProblems_recast hφ g)
    unfold Report.toExcept
    rw [problems]
  unfold checkInput
  rw [report, checkPlacement_recast hφ]

end Stack

/-! ## 3. The order -/

namespace Order

theorem lastPosition?_recast (id : String) : ∀ ns : List Node,
    lastPosition? id (ns.map φ) = lastPosition? id ns
  | [] => rfl
  | n :: ns => by
      simp only [List.map_cons, lastPosition?, lastPosition?_recast id ns, hφ.id]

theorem constraints_recast : ∀ es : List Edge, constraints (g.recast φ) es = constraints g es
  | [] => rfl
  | e :: es => by
      have position_eq : ∀ endpoint, position (g.recast φ) e endpoint = position g e endpoint := by
        intro endpoint
        have same : lastPosition? endpoint (g.recast φ).nodes = lastPosition? endpoint g.nodes :=
          lastPosition?_recast hφ endpoint g.nodes
        unfold position
        rw [same]
      simp only [constraints, position_eq, constraints_recast es]

/-- **A recast diagram is declared in the same order.** -/
theorem order_recast : order (g.recast φ) = (order g).map (List.map φ) := by
  -- nodes are arranged by their positions, which a recasting keeps
  have picked : ∀ is : List Nat, is.filterMap (fun i => (g.recast φ).nodes[i]?) =
      (is.filterMap fun i => g.nodes[i]?).map φ := by
    intro is
    rw [List.map_filterMap]
    refine List.filterMap_congr fun i _ => ?_
    show (g.nodes.map φ)[i]? = _
    rw [List.getElem?_map]
  have size : (g.recast φ).nodes.length = g.nodes.length := List.length_map _
  have edges : (g.recast φ).containsEdges = g.containsEdges := rfl
  cases hc : constraints g g.containsEdges with
  | error e =>
    unfold order
    rw [edges, constraints_recast hφ, hc]
    rfl
  | ok pairs =>
    have hc' : constraints (g.recast φ) (g.recast φ).containsEdges = .ok pairs := by
      rw [edges, constraints_recast hφ, hc]
    rw [order_of_constraints hc, order_of_constraints hc', size]
    simp only [picked]
    cases (arrange pairs g.nodes.length (List.range g.nodes.length)).2.filterMap
        fun i => g.nodes[i]? with
    | nil => rfl
    | cons stuck rest => simp [hφ.id, Except.map]

end Order

/-! ## 4. The rules -/

namespace Access

/-- The source of a rule for recast nodes. -/
def Source.recast (φ : Node → Node) : Source → Source
  | .anywhere => .anywhere
  | .group n => .group (φ n)

/-- The rule for recast nodes. -/
def Rule.recast (φ : Node → Node) (r : Rule) : Rule := ⟨φ r.target, r.source.recast φ⟩

theorem secured?_recast (endpoint : String) :
    secured? (g.recast φ) endpoint = (secured? g endpoint).map φ := by
  unfold secured?
  rw [Graph.node?_recast hφ]
  cases g.node? endpoint with
  | none => rfl
  | some n => cases h : n.isCompute <;> simp [Option.filter, hφ.isCompute, h]

theorem refusal_recast (e : Edge) : refusal (g.recast φ) e = refusal g e := by
  have found : (([(g.recast φ).node? e.source, (g.recast φ).node? e.target].filterMap id).find?
      fun n => n.kind == .bucket) =
      (([g.node? e.source, g.node? e.target].filterMap id).find? fun n => n.kind == .bucket).map
        φ := by
    have ends : [(g.recast φ).node? e.source, (g.recast φ).node? e.target].filterMap id =
        ([g.node? e.source, g.node? e.target].filterMap id).map φ := by
      rw [Graph.node?_recast hφ, Graph.node?_recast hφ]
      cases g.node? e.source <;> cases g.node? e.target <;> rfl
    rw [ends, List.find?_map]
    refine congrArg (Option.map φ) ?_
    exact congrArg (fun p => List.find? p _) (funext fun n => congrArg (· == _) (hφ.kind n))
  unfold refusal
  rw [found]
  cases ([g.node? e.source, g.node? e.target].filterMap id).find? fun n => n.kind == .bucket with
  | none => rfl
  | some n => simp only [Option.map_some, hφ.id]

/-- **A recast diagram asks for the same rules**, between recast nodes. -/
theorem rule_recast (e : Edge) : rule (g.recast φ) e = (rule g e).map (Rule.recast φ) := by
  unfold rule
  rw [secured?_recast hφ, secured?_recast hφ, refusal_recast hφ]
  cases secured? g e.source with
  | none =>
    cases secured? g e.target with
    | none => rfl
    | some target =>
      simp only [Option.map_none, Option.map_some, Graph.isAnySourceFor_recast hφ, hφ.id]
      split <;> rfl
  | some source =>
    cases secured? g e.target with
    | none =>
      simp only [Option.map_none, Option.map_some, Graph.isAnySourceFor_recast hφ, hφ.id]
      split <;> rfl
    | some target => rfl

omit g in
theorem ports_recast (services : Catalog) (e : Edge) (n : Node) :
    ports services e (φ n) = ports services e n := by
  have service : ∀ name, servicePort services (φ n) name = servicePort services n name := by
    intro name
    unfold servicePort
    rw [hφ.kind, hφ.engine]
  unfold ports
  simp only [service]

omit g in
theorem steps_recast (services : Catalog) (t : SymbolTable) (e : Edge) (r : Rule) (grants : Bool) :
    steps services t e (r.recast φ) grants = steps services t e r grants := by
  have symbol : ∀ n, symbolOf t (φ n) = symbolOf t n := by
    intro n
    unfold symbolOf
    rw [hφ.id]
  obtain ⟨target, source⟩ := r
  cases source with
  | anywhere =>
    simp only [steps, Rule.recast, Source.recast, ports_recast hφ, symbol]
  | group n =>
    simp only [steps, Rule.recast, Source.recast, ports_recast hφ, symbol]

omit g in
theorem grantPair?_recast (r : Rule) : (r.recast φ).grantPair? = r.grantPair? := by
  obtain ⟨target, source⟩ := r
  cases source with
  | anywhere => rfl
  | group n => simp only [Rule.grantPair?, Rule.recast, Source.recast, hφ.kind, hφ.id]

/-- **A recast diagram has the rules of the diagram.** -/
theorem fragments_recast (services : Catalog) (t : SymbolTable) :
    fragments services (g.recast φ) t = fragments services g t := by
  have run : ∀ (es : List Edge) (granted : List (String × String)),
      fragmentsOf services (g.recast φ) t granted es = fragmentsOf services g t granted es := by
    intro es
    induction es with
    | nil => exact fun _ => rfl
    | cons e es ih =>
      intro granted
      unfold fragmentsOf
      rw [rule_recast hφ]
      cases rule g e with
      | error problem => rfl
      | ok r =>
        simp only [Except.map, Except.mapError, Outcome.ok_bind, grantPair?_recast hφ,
          steps_recast hφ, ih]
  exact run g.accessEdges []

end Access

/-! ## 5. The declarations -/

namespace Stack

omit g in
theorem allocate_recast (a : Allocator) (n : Node) : a.allocate (φ n) = a.allocate n := by
  unfold Allocator.allocate
  rw [hφ.id, hφ.name, hφ.kind]

theorem placeDefaultNetwork_recast (settings : Settings) (a : Allocator) (n : Node) :
    placeDefaultNetwork settings (g.recast φ) a (φ n) = placeDefaultNetwork settings g a n := by
  unfold placeDefaultNetwork
  rw [Graph.isUncontained_recast hφ]

theorem admitted_recast (settings : Settings) (a : Allocator) (n : Node) :
    admitted settings (g.recast φ) a (φ n) = admitted settings g a n := by
  unfold admitted
  rw [placeDefaultNetwork_recast hφ, allocate_recast hφ]

theorem symbol_recast (settings : Settings) (name : String) (t : SymbolTable) (n : Node) :
    (scopeOf settings (g.recast φ) name t).symbol (φ n) = (scopeOf settings g name t).symbol n := by
  unfold Resource.Scope.symbol scopeOf
  rw [hφ.id]

theorem networkOf_recast (settings : Settings) (name : String) (t : SymbolTable) (n : Node) :
    (scopeOf settings (g.recast φ) name t).networkOf (φ n) =
      (scopeOf settings g name t).networkOf n := by
  unfold Resource.Scope.networkOf scopeOf
  simp only [hφ.id, Graph.parent?_recast hφ]
  cases g.parent? n.id with
  | none => rfl
  | some parent => simp only [Option.map_some, hφ.id]

section View

variable {α : Type} {view : Fragment → α} {settings : Settings} {name : String}

/-- What is seen of each declaration of a recast diagram is what is seen of that of the diagram. -/
def SameView (settings : Settings) (name : String) (φ : Node → Node) (view : Fragment → α) : Prop :=
  ∀ (g : Graph) (a : Allocator) (n : Node), a.Legible →
    (Resource.emit (scopeOf settings (g.recast φ) name a.table) (φ n)).map view =
      (Resource.emit (scopeOf settings g name a.table) n).map view

/-- **What is seen of a run over recast nodes is what is seen of the run over the nodes.** -/
theorem declare_recast (same : SameView settings name φ view) : ∀ (ns : List Node) {a : Allocator},
    a.Legible →
    (declare settings (g.recast φ) name a (ns.map φ)).map (fun r => (r.1, r.2.map view)) =
      (declare settings g name a ns).map fun r => (r.1, r.2.map view)
  | [], _, _ => rfl
  | n :: ns, a, legible => by
      -- both runs go on with the same allocator, so the invariant is needed on one side only
      have legible' : (admitted settings g a n).Legible := legible_admitted legible n
      have first := same g _ n legible'
      have rest := declare_recast same ns legible'
      rw [Outcome.map_eq_map_iff] at first rest
      rw [List.map_cons, declare_cons, declare_cons, placeDefaultNetwork_recast hφ,
        admitted_recast hφ, Outcome.map_eq_map_iff]
      refine first.bind fun {f f'} hf => rest.bind fun {r r'} hr => .ok ?_
      obtain ⟨last, seen⟩ := Prod.mk.inj hr
      rw [last, List.map_append, List.map_append, List.map_cons, List.map_cons, hf, seen]

/-- What is seen of the parts of a stack. -/
def Parts.seen (view : Fragment → α) (p : Parts) : SymbolTable × List α × List Fragment :=
  (p.symbols, p.declarations.map view, p.rules)

/-- **What is seen of the parts of a recast diagram is what is seen of those of the diagram.** -/
theorem parts_recast (same : SameView settings name φ view) :
    (parts settings (g.recast φ) name).map (Parts.seen view) =
      (parts settings g name).map (Parts.seen view) := by
  have order_seen : Outcome.Rel (fun ns ms => ns = ms.map φ) (Order.order (g.recast φ))
      (Order.order g) := by
    rw [Order.order_recast hφ]
    cases Order.order g with
    | error e => exact .error
    | ok ns => exact .ok rfl
  unfold parts
  rw [checkInput_recast hφ, Outcome.map_eq_map_iff]
  refine (Outcome.Rel.refl _).bind fun _ => order_seen.bind fun {ns ms} hns => ?_
  have run := declare_recast hφ g same ms (Allocator.legible_empty settings.naming)
  rw [Outcome.map_eq_map_iff] at run
  rw [hns]
  refine run.bind fun {r r'} hr => ?_
  obtain ⟨a, declarations⟩ := r
  obtain ⟨a', declarations'⟩ := r'
  obtain ⟨last, seen⟩ := Prod.mk.inj hr
  subst last
  simp only [Access.fragments_recast hφ]
  refine (Outcome.Rel.refl _).bind fun {rules rules'} hrules => .ok ?_
  simp only [Parts.seen, seen, hrules]

end View

end Stack

end InfraDiagram
