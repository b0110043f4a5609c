import InfraDiagram.Access
import InfraDiagram.Proofs.Fragments
import InfraDiagram.Proofs.Properties
import InfraDiagram.Proofs.WellFormed

/-!
# From edges to rules

Three questions are settled for each edge that lets traffic through: on whose group its rules
stand and where their traffic comes from (`Stands`), which ports they open (`PortsOf`), and what
they look like (`ruleLine`, `grantLine`).

The run over all edges is described by `Run`, edge by edge. It gives each edge its fragment
(`Run.forall₂`), it fails exactly at the first edge for which no port is known
(`fragmentsOf_outcome`), and it refers only to groups, roles and databases that are declared
(`Run.references`).
-/

namespace InfraDiagram.Access

open Fragment (Step)
open Outcome (FirstFailing)

/-! ## 1. Whose group, and from where -/

/-- **The place of an edge's rules.** Between two servers or databases they stand on the group of
    the target, for traffic from the group of the source; with one such end they stand on its
    group, for traffic from anywhere. -/
inductive Stands (g : Graph) (e : Edge) : Node → Source → Prop where
  | between {m n : Node} (hm : m ∈ g.nodes) (hn : n ∈ g.nodes) (cm : m.isCompute = true)
      (cn : n.isCompute = true) (hs : e.source = m.id) (ht : e.target = n.id) :
      Stands g e n (.group m)
  | into {n : Node} (hn : n ∈ g.nodes) (cn : n.isCompute = true) (ht : e.target = n.id)
      (outside : ∀ m ∈ g.nodes, m.id = e.source → m.isCompute = false) : Stands g e n .anywhere
  | outOf {n : Node} (hn : n ∈ g.nodes) (cn : n.isCompute = true) (hs : e.source = n.id)
      (outside : ∀ m ∈ g.nodes, m.id = e.target → m.isCompute = false) : Stands g e n .anywhere

theorem Stands.target_mem {g : Graph} {e : Edge} {n : Node} {source : Source}
    (h : Stands g e n source) : n ∈ g.nodes ∧ n.isCompute = true := by
  cases h with
  | between hm hn cm cn hs ht => exact ⟨hn, cn⟩
  | into hn cn ht outside => exact ⟨hn, cn⟩
  | outOf hn cn hs outside => exact ⟨hn, cn⟩

theorem Stands.source_mem {g : Graph} {e : Edge} {n m : Node} (h : Stands g e n (.group m)) :
    m ∈ g.nodes ∧ m.isCompute = true := by
  cases h with
  | between hm hn cm cn hs ht => exact ⟨hm, cm⟩

theorem secured?_of_mem {g : Graph} (wf : g.WellFormed) {n : Node} (hn : n ∈ g.nodes)
    (cn : n.isCompute = true) : secured? g n.id = some n := by
  rw [secured?, Graph.node?_id wf.nodesDistinct hn, Option.filter_some, cn]
  rfl

theorem secured?_eq_none {g : Graph} {x : String}
    (h : ∀ m ∈ g.nodes, m.id = x → m.isCompute = false) : secured? g x = none := by
  unfold secured?
  cases hx : g.node? x with
  | none => rfl
  | some m =>
    obtain ⟨hm, hid⟩ := Graph.mem_of_node? hx
    rw [Option.filter_some, h m hm hid]
    rfl

theorem outside_internet {g : Graph} (wf : g.WellFormed) :
    ∀ m ∈ g.nodes, m.id = internet → m.isCompute = false :=
  fun m hm e => absurd e (wf.nodeProper m hm).2

/-- A network is no server and no database. -/
theorem outside_network {g : Graph} (wf : g.WellFormed) {v n : Node} (h : g.Contains v n) :
    ∀ m ∈ g.nodes, m.id = v.id → m.isCompute = false := by
  intro m hm hid
  obtain ⟨-, e, he, hs, -⟩ := h
  obtain ⟨w, hw, -, -, hsw, -, kind, -⟩ := wf.nests e he
  have : m = w := Graph.eq_of_id_eq wf.nodesDistinct hm hw (hid.trans (hs.symm.trans hsw))
  rw [this, Node.isCompute, kind]
  rfl

theorem isAnySourceFor_network {g : Graph} (wf : g.WellFormed) {v n : Node}
    (h : g.Contains v n) : g.isAnySourceFor v.id n.id = true := by
  rw [Graph.isAnySourceFor, Graph.parent?_of_contains wf.nodesDistinct wf.single h]
  simp

theorem rule_between {g : Graph} (wf : g.WellFormed) {e : Edge} {m n : Node} (hm : m ∈ g.nodes)
    (hn : n ∈ g.nodes) (cm : m.isCompute = true) (cn : n.isCompute = true)
    (hs : e.source = m.id) (ht : e.target = n.id) : rule g e = .ok ⟨n, .group m⟩ := by
  unfold rule
  rw [hs, ht, secured?_of_mem wf hm cm, secured?_of_mem wf hn cn]

theorem rule_into {g : Graph} (wf : g.WellFormed) {e : Edge} {n : Node} (hn : n ∈ g.nodes)
    (cn : n.isCompute = true) (ht : e.target = n.id)
    (outside : ∀ m ∈ g.nodes, m.id = e.source → m.isCompute = false) :
    rule g e = if g.isAnySourceFor e.source n.id then .ok ⟨n, .anywhere⟩
      else .error (refusal g e) := by
  unfold rule
  rw [ht, secured?_of_mem wf hn cn, secured?_eq_none outside]

theorem rule_outOf {g : Graph} (wf : g.WellFormed) {e : Edge} {n : Node} (hn : n ∈ g.nodes)
    (cn : n.isCompute = true) (hs : e.source = n.id)
    (outside : ∀ m ∈ g.nodes, m.id = e.target → m.isCompute = false) :
    rule g e = if g.isAnySourceFor e.target n.id then .ok ⟨n, .anywhere⟩
      else .error (refusal g e) := by
  unfold rule
  rw [hs, secured?_of_mem wf hn cn, secured?_eq_none outside]

/-- **Every edge of a well-formed diagram has its rule.** -/
theorem exists_rule {g : Graph} (wf : g.WellFormed) {e : Edge} (he : e ∈ g.accessEdges) :
    ∃ r, rule g e = .ok r ∧ Stands g e r.target r.source := by
  obtain ⟨-, -, joined⟩ := wf.joins e he
  generalize hs : e.source = x at joined
  generalize ht : e.target = y at joined
  cases joined with
  | @peers m n hm hn cm cn same =>
    exact ⟨_, rule_between wf hm hn cm cn hs ht, .between hm hn cm cn hs ht⟩
  | @fromInternet n hn cn =>
    have outside := hs ▸ outside_internet wf
    refine ⟨⟨n, .anywhere⟩, ?_, .into hn cn ht outside⟩
    rw [rule_into wf hn cn ht outside, hs]
    rfl
  | @toInternet n hn cn =>
    have outside := ht ▸ outside_internet wf
    refine ⟨⟨n, .anywhere⟩, ?_, .outOf hn cn hs outside⟩
    rw [rule_outOf wf hn cn hs outside, ht]
    rfl
  | @fromNetwork v n hn cn within =>
    have outside := hs ▸ outside_network wf within
    refine ⟨⟨n, .anywhere⟩, ?_, .into hn cn ht outside⟩
    rw [rule_into wf hn cn ht outside, hs, isAnySourceFor_network wf within]
    rfl
  | @toNetwork v n hn cn within =>
    have outside := ht ▸ outside_network wf within
    refine ⟨⟨n, .anywhere⟩, ?_, .outOf hn cn hs outside⟩
    rw [rule_outOf wf hn cn hs outside, ht, isAnySourceFor_network wf within]
    rfl

/-- The rule of an edge is the one where it stands. -/
theorem rule_eq_of_stands {g : Graph} (wf : g.WellFormed) {e : Edge} {r : Rule} {n : Node}
    {source : Source} (hr : rule g e = .ok r) (h : Stands g e n source) : r = ⟨n, source⟩ := by
  cases h with
  | between hm hn cm cn hs ht =>
    rw [rule_between wf hm hn cm cn hs ht] at hr
    exact (Except.ok.inj hr).symm
  | into hn cn ht outside =>
    rw [rule_into wf hn cn ht outside] at hr
    split at hr
    · exact (Except.ok.inj hr).symm
    · cases hr
  | outOf hn cn hs outside =>
    rw [rule_outOf wf hn cn hs outside] at hr
    split at hr
    · exact (Except.ok.inj hr).symm
    · cases hr

/-! ## 2. Which ports -/

/-- A service goes by a name, apart from the case of ASCII letters. -/
def GoesBy (s : Service) (name : String) : Prop := Text.lower s.name = Text.lower name

/-- An edge leaves its port to the engine of the database it leads to. -/
def AsksEngine (target : Node) (service : String) : Prop :=
  Text.lower service = databaseService ∧ target.kind = .database

/-- **The ports of an edge**: its own, or else the port of the engine of the database it leads to,
    or else the port of the first service in the catalog that goes by its name. What the engine of
    the database is, `isEngine` says. -/
inductive PortsOf (services : Catalog) (e : Edge) (target : Node) (isEngine : Engine → Prop) :
    List UInt16 → Prop where
  | explicit (given : e.ports ≠ []) : PortsOf services e target isEngine e.ports
  | engine {service : String} {engine : Engine} (none : e.ports = [])
      (hs : e.service? = some service) (asks : AsksEngine target service)
      (he : isEngine engine) : PortsOf services e target isEngine [engine.port]
  | catalog {service : String} {before after : List Service} {s : Service} (none : e.ports = [])
      (hs : e.service? = some service) (asks : ¬ AsksEngine target service)
      (split : services.services = before ++ s :: after)
      (first : ∀ t ∈ before, ¬ GoesBy t service) (hit : GoesBy s service) :
      PortsOf services e target isEngine [s.port]

theorem PortsOf.mono {services : Catalog} {e : Edge} {target : Node} {P Q : Engine → Prop}
    {ps : List UInt16} (h : PortsOf services e target P ps)
    (hPQ : target.kind = .database → ∀ engine, P engine → Q engine) :
    PortsOf services e target Q ps := by
  cases h with
  | explicit given => exact .explicit given
  | engine none hs asks he => exact .engine none hs asks (hPQ asks.2 _ he)
  | catalog none hs asks split first hit => exact .catalog none hs asks split first hit

/-- The engine that the properties of a node name. -/
def NamesEngine (n : Node) (engine : Engine) : Prop := Engine.ofNode? n = some engine

/-- **A port is known for an edge**, if its rules stand on a target. -/
def Resolves (services : Catalog) (e : Edge) (target : Node) : Prop :=
  e.ports ≠ [] ∨ ∃ service, e.service? = some service ∧
    ((∃ s ∈ services.services, GoesBy s service) ∨ AsksEngine target service)

theorem goesBy_iff {s : Service} {name : String} :
    Catalog.goesBy name s = true ↔ GoesBy s name := by
  rw [Catalog.goesBy, Text.sameFolded, beq_iff_eq, GoesBy]

theorem asksEngine_iff {target : Node} {service : String} :
    (Text.sameFolded service databaseService && target.kind == .database) = true ↔
      AsksEngine target service := by
  have e : Text.lower databaseService = databaseService := by decide
  rw [Bool.and_eq_true, Text.sameFolded, beq_iff_eq, beq_iff_eq, e, AsksEngine]

/-- The port of a service in the catalog: that of the first one with the name. -/
theorem port?_cases (services : Catalog) (name : String) :
    (∃ before s after, services.services = before ++ s :: after ∧
      (∀ t ∈ before, ¬ GoesBy t name) ∧ GoesBy s name ∧ services.port? name = some s.port) ∨
    ((∀ s ∈ services.services, ¬ GoesBy s name) ∧ services.port? name = none) := by
  unfold Catalog.port? Catalog.service?
  cases hf : services.services.find? (Catalog.goesBy name) with
  | none =>
    refine Or.inr ⟨fun s hs hit => ?_, rfl⟩
    exact List.find?_eq_none.mp hf s hs (goesBy_iff.mpr hit)
  | some s =>
    obtain ⟨hit, before, after, split, first⟩ := List.find?_eq_some_iff_append.mp hf
    refine Or.inl ⟨before, s, after, split, fun t ht hit => ?_, goesBy_iff.mp hit, rfl⟩
    have := first t ht
    rw [goesBy_iff.mpr hit] at this
    cases this

/-- The port of a service, or the reason why there is none. -/
theorem servicePort_eq (services : Catalog) {target : Node} {service : String}
    (asks : ¬ AsksEngine target service) :
    servicePort services target service = match services.port? service with
      | some port => .ok port
      | none => .error (.noDefaultPort service) := by
  cases hp : services.port? service <;>
    simp only [servicePort, if_neg fun h => asks (asksEngine_iff.mp h), hp]

theorem servicePort_of_engine (services : Catalog) {target : Node} {service : String}
    (asks : AsksEngine target service) {engine : Engine}
    (he : Engine.ofNode? target = some engine) :
    servicePort services target service = .ok engine.port := by
  unfold servicePort
  rw [if_pos (asksEngine_iff.mpr asks), he]
  rfl

theorem ports_of_service (services : Catalog) {e : Edge} {target : Node} {service : String}
    (none : e.ports = []) (hs : e.service? = some service) :
    ports services e target = (servicePort services target service).map fun port => [port] := by
  unfold ports
  rw [none, hs]

/-- **The ports of an edge are found exactly if a port is known for it.** -/
theorem ports_outcome (services : Catalog) (e : Edge) {target : Node}
    (typed : target.kind = .database → ∃ engine, Engine.ofNode? target = some engine) :
    (Resolves services e target ∧
      ∃ ps, ports services e target = .ok ps ∧
        PortsOf services e target (NamesEngine target) ps) ∨
    (¬ Resolves services e target ∧ ∃ reason, ports services e target = .error reason) := by
  by_cases none : e.ports = []
  · cases hs : e.service? with
    | none =>
      refine Or.inr ⟨fun h => ?_, .noPort, by unfold ports; rw [none, hs]⟩
      rcases h with h | ⟨service, hs', -⟩
      · exact h none
      · rw [hs] at hs'
        cases hs'
    | some service =>
      rw [ports_of_service services none hs]
      by_cases asks : AsksEngine target service
      · obtain ⟨engine, he⟩ := typed asks.2
        rw [servicePort_of_engine services asks he]
        exact Or.inl ⟨Or.inr ⟨service, hs, Or.inr asks⟩, _, rfl, .engine none hs asks he⟩
      · rw [servicePort_eq services asks]
        rcases port?_cases services service with
          ⟨before, s, after, split, first, hit, e'⟩ | ⟨miss, e'⟩
        · have hm : s ∈ services.services := by rw [split]; simp
          rw [e']
          exact Or.inl ⟨Or.inr ⟨service, hs, Or.inl ⟨s, hm, hit⟩⟩, _, rfl,
            .catalog none hs asks split first hit⟩
        · rw [e']
          refine Or.inr ⟨fun h => ?_, _, rfl⟩
          rcases h with h | ⟨service', hs', h⟩
          · exact h none
          · cases hs.symm.trans hs'
            rcases h with ⟨s, hm, hit⟩ | h
            · exact miss s hm hit
            · exact asks h
  · refine Or.inl ⟨Or.inl none, e.ports, ?_, .explicit none⟩
    unfold ports
    split
    · rename_i h _
      exact absurd h none
    · rename_i h _
      exact absurd h none
    · rfl

/-- No port of an edge is zero, if none of its own and none in the catalog is. -/
theorem PortsOf.ne_zero {services : Catalog} {e : Edge} {target : Node} {P : Engine → Prop}
    {ps : List UInt16} (h : PortsOf services e target P ps) (own : 0 ∉ e.ports)
    (catalog : ∀ s ∈ services.services, s.port ≠ 0) : ∀ port ∈ ps, port ≠ 0 := by
  intro port hp
  cases h with
  | explicit given => exact fun e => own (e ▸ hp)
  | @engine service engine none hs asks he =>
    rw [List.mem_singleton.mp hp]
    cases engine <;> decide
  | catalog none hs asks split first hit =>
    rw [List.mem_singleton.mp hp]
    exact catalog _ (by rw [split]; simp)

/-- An edge for which a port is known has one. -/
theorem PortsOf.ne_nil {services : Catalog} {e : Edge} {target : Node} {P : Engine → Prop}
    {ps : List UInt16} (h : PortsOf services e target P ps) : ps ≠ [] := by
  cases h with
  | explicit given => exact given
  | engine none hs asks he => exact List.cons_ne_nil _ _
  | catalog none hs asks split first hit => exact List.cons_ne_nil _ _

/-! ## 3. The lines of an edge -/

/-- The line of a rule on the group of a target, for traffic from a group or from anywhere. -/
def ruleLine (services : Catalog) (e : Edge) (target : Symbol) : Option Symbol → UInt16 → String
  | none, port =>
    (target.satellite .securityGroup).var ++ ".add_ingress_rule(ec2.Peer.any_ipv4(), "
      ++ portAndLabel services e port
  | some source, port =>
    (target.satellite .securityGroup).var
      ++ ".connections.allow_from(ec2.Connections(security_groups=["
      ++ (source.satellite .securityGroup).var ++ "]), " ++ portAndLabel services e port

/-- The line that lets a server's role read a database's secret. -/
def grantLine (database server : Symbol) : String :=
  database.var ++ ".secret.grant_read(" ++ (server.satellite .role).var ++ ")"

/-- The symbol of a source, if traffic comes from a group. -/
inductive SourceSymbol (symbols : SymbolTable) : Source → Option Symbol → Prop where
  | anywhere : SourceSymbol symbols .anywhere none
  | group {n : Node} {symbol : Symbol} (h : symbols.get? n.id = some symbol) :
      SourceSymbol symbols (.group n) (some symbol)

/-- The lines of the secret that is granted with an edge. -/
def grantLines (target : Symbol) (grants : Bool) : Option Symbol → List String
  | some source => if grants then [grantLine target source] else []
  | none => []

theorem length_grantLines_le (target : Symbol) (grants : Bool) (source? : Option Symbol) :
    (grantLines target grants source?).length ≤ 1 := by
  cases source? with
  | none => exact Nat.zero_le 1
  | some source => cases grants <;> simp [grantLines]

/-- The variables that the rules of an edge refer to. -/
inductive Refers (target : Symbol) (grants : Bool) : Option Symbol → String → Prop where
  | target {source? : Option Symbol} :
      Refers target grants source? (target.satellite .securityGroup).var
  | source {source : Symbol} :
      Refers target grants (some source) (source.satellite .securityGroup).var
  | database {source : Symbol} (h : grants = true) : Refers target grants (some source) target.var
  | role {source : Symbol} (h : grants = true) :
      Refers target grants (some source) (source.satellite .role).var

theorem symbolOf_of_get? {symbols : SymbolTable} {n : Node} {symbol : Symbol}
    (h : symbols.get? n.id = some symbol) : symbolOf symbols n = .ok symbol := by
  rw [symbolOf, h]

/-- The steps of an edge whose ports and symbols are known. -/
def stepsWith (services : Catalog) (e : Edge) (target : Symbol) (ps : List UInt16) (grants : Bool) :
    Option Symbol → List Step
  | none => [.use .ec2, .reference (target.satellite .securityGroup).var]
      ++ ps.flatMap (openRule services e target)
  | some source => [.use .ec2, .reference (target.satellite .securityGroup).var]
      ++ ps.flatMap (groupRule services e target source)
      ++ if grants then secretGrant target source else []

theorem steps_of_ports {services : Catalog} {symbols : SymbolTable} {e : Edge} {r : Rule}
    {target : Symbol} {source? : Option Symbol} (grants : Bool)
    (ht : symbols.get? r.target.id = some target) (hs : SourceSymbol symbols r.source source?)
    {ps : List UInt16} (hp : ports services e r.target = .ok ps) :
    steps services symbols e r grants = .ok (stepsWith services e target ps grants source?) := by
  unfold steps
  rw [hp, Outcome.ok_bind, symbolOf_of_get? ht, Outcome.ok_bind]
  cases hs' : r.source with
  | anywhere =>
    rw [hs'] at hs
    cases hs
    rfl
  | group n =>
    rw [hs'] at hs
    cases hs with
    | group h =>
      simp only [symbolOf_of_get? h, Outcome.ok_bind]
      rfl

theorem filterMap_openRule (services : Catalog) (e : Edge) (target : Symbol) (ps : List UInt16) :
    (ps.flatMap (openRule services e target)).filterMap Step.text? =
      ps.map (ruleLine services e target none) := by
  induction ps with
  | nil => rfl
  | cons port ps ih =>
    rw [List.flatMap_cons, List.filterMap_append, ih]
    rfl

theorem filterMap_groupRule (services : Catalog) (e : Edge) (target source : Symbol)
    (ps : List UInt16) :
    (ps.flatMap (groupRule services e target source)).filterMap Step.text? =
      ps.map (ruleLine services e target (some source)) := by
  induction ps with
  | nil => rfl
  | cons port ps ih =>
    rw [List.flatMap_cons, List.filterMap_append, ih]
    rfl

/-- **The lines of an edge**: one for each port, in their order, then the secret it grants. -/
theorem texts_stepsWith (services : Catalog) (e : Edge) (target : Symbol) (ps : List UInt16)
    (grants : Bool) (source? : Option Symbol) (origin : Origin) :
    (Fragment.build origin (stepsWith services e target ps grants source?)).texts =
      ps.map (ruleLine services e target source?) ++ grantLines target grants source? := by
  rw [Fragment.texts_build]
  cases source? with
  | none =>
    simp only [stepsWith, List.filterMap_append, filterMap_openRule, grantLines, List.append_nil]
    rfl
  | some source =>
    simp only [stepsWith, List.filterMap_append, filterMap_groupRule, grantLines]
    cases grants <;> rfl

/-- The lines of an edge refer to the groups that its rules join, and to what a secret joins. -/
theorem refers_of_mem {services : Catalog} {e : Edge} {target : Symbol} {ps : List UInt16}
    {grants : Bool} {source? : Option Symbol} {v : String}
    (h : .reference v ∈ stepsWith services e target ps grants source?) :
    Refers target grants source? v := by
  cases source? with
  | none =>
    have hv : v = (target.satellite .securityGroup).var := by
      simpa [stepsWith, openRule] using h
    rw [hv]
    exact .target
  | some source =>
    simp only [stepsWith, List.mem_append, List.mem_cons, reduceCtorEq, Step.reference.injEq,
      List.not_mem_nil, or_false, false_or, List.mem_flatMap, groupRule] at h
    rcases h with (hv | ⟨_, _, hv⟩) | h
    · exact hv ▸ .target
    · exact hv ▸ .source
    · cases grants with
      | false => simp at h
      | true =>
        have hv : v = target.var ∨ v = (source.satellite .role).var := by
          simpa [secretGrant] using h
        rcases hv with rfl | rfl
        · exact .database rfl
        · exact .role rfl

/-! ## 4. All edges -/

/-- What is known when the rules are made: the diagram is well formed, its nodes have symbols and
    its databases engines. -/
structure Known (g : Graph) (symbols : SymbolTable) : Prop where
  wf : g.WellFormed
  symbol : ∀ n ∈ g.nodes, ∃ symbol, symbols.get? n.id = some symbol
  engine : ∀ n ∈ g.nodes, n.kind = .database → ∃ engine, Engine.ofNode? n = some engine

/-- **The fragment of an edge**: its rules stand where they should, for the ports they should. -/
inductive Compiles (services : Catalog) (g : Graph) (symbols : SymbolTable) (e : Edge) (r : Rule)
    (grants : Bool) : Fragment → Prop where
  | intro {target : Symbol} {source? : Option Symbol} {ps : List UInt16}
      (stands : Stands g e r.target r.source) (ht : symbols.get? r.target.id = some target)
      (hs : SourceSymbol symbols r.source source?)
      (ports : PortsOf services e r.target (NamesEngine r.target) ps) :
      Compiles services g symbols e r grants
        (Fragment.build (.edge e.id) (stepsWith services e target ps grants source?))

/-- The pair whose secret a rule grants, unless it has been granted. -/
def newGrants (granted : List (String × String)) (r : Rule) : List (String × String) :=
  r.grantPair?.toList.filter fun pair => !granted.contains pair

/-- **A run over edges**; `granted` are the pairs whose secret is granted already. -/
inductive Run (services : Catalog) (g : Graph) (symbols : SymbolTable) :
    List (String × String) → List Edge → List Fragment → Prop where
  | nil {granted : List (String × String)} : Run services g symbols granted [] []
  | cons {granted : List (String × String)} {e : Edge} {r : Rule} {f : Fragment} {es : List Edge}
      {fs : List Fragment} (hr : rule g e = .ok r)
      (hf : Compiles services g symbols e r (!(newGrants granted r).isEmpty) f)
      (rest : Run services g symbols (newGrants granted r ++ granted) es fs) :
      Run services g symbols granted (e :: es) (f :: fs)

/-- A run gives each edge its fragment. -/
theorem Run.forall₂ {services : Catalog} {g : Graph} {symbols : SymbolTable}
    {granted : List (String × String)} {es : List Edge} {fs : List Fragment}
    (run : Run services g symbols granted es fs) :
    List.Forall₂ (fun e f => ∃ r grants, rule g e = .ok r ∧
      Compiles services g symbols e r grants f) es fs := by
  induction run with
  | nil => exact .nil
  | cons hr hf rest ih => exact .cons ⟨_, _, hr, hf⟩ ih

/-- **A port is known for an edge**: it gives ports, or it names a service of the catalog, or it
    leaves the port to the engine of the database on which its rules stand. -/
def Resolvable (services : Catalog) (g : Graph) (e : Edge) : Prop :=
  e.ports ≠ [] ∨ ∃ service, e.service? = some service ∧
    ((∃ s ∈ services.services, GoesBy s service) ∨
      (Text.lower service = databaseService ∧
        ∃ target source, Stands g e target source ∧ target.kind = .database))

theorem resolvable_iff_resolves {services : Catalog} {g : Graph} (wf : g.WellFormed) {e : Edge}
    {r : Rule} (hr : rule g e = .ok r) (stands : Stands g e r.target r.source) :
    Resolvable services g e ↔ Resolves services e r.target := by
  refine or_congr_right (exists_congr fun service => and_congr_right fun _ => or_congr_right ?_)
  refine and_congr_right fun _ => ⟨?_, fun kind => ⟨_, _, stands, kind⟩⟩
  rintro ⟨target, source, h, kind⟩
  rw [rule_eq_of_stands wf hr h]
  exact kind

theorem fragmentsOf_cons {services : Catalog} {g : Graph} {symbols : SymbolTable}
    {granted : List (String × String)} {e : Edge} {rest : List Edge} {r : Rule}
    (hr : rule g e = .ok r) :
    fragmentsOf services g symbols granted (e :: rest) = (do
      let st ← (steps services symbols e r (!(newGrants granted r).isEmpty)).mapError
        (.unresolvable e.id)
      let others ← fragmentsOf services g symbols (newGrants granted r ++ granted) rest
      .ok (Fragment.build (.edge e.id) st :: others)) := by
  rw [fragmentsOf, hr]
  rfl

/-- **One edge**: its rule is made if a port is known for it, and otherwise the edge is blamed. -/
theorem edge_outcome (services : Catalog) {g : Graph} {symbols : SymbolTable}
    (known : Known g symbols) {e : Edge} (he : e ∈ g.accessEdges) :
    ∃ r, rule g e = .ok r ∧
      ((Resolvable services g e ∧ ∀ grants, ∃ st, steps services symbols e r grants = .ok st ∧
          Compiles services g symbols e r grants (Fragment.build (.edge e.id) st)) ∨
        (¬ Resolvable services g e ∧
          ∃ reason, ∀ grants, steps services symbols e r grants = .error reason)) := by
  obtain ⟨r, hr, stands⟩ := exists_rule known.wf he
  refine ⟨r, hr, ?_⟩
  obtain ⟨hm, -⟩ := stands.target_mem
  obtain ⟨target, ht⟩ := known.symbol _ hm
  obtain ⟨source?, hs⟩ : ∃ source?, SourceSymbol symbols r.source source? := by
    cases hsource : r.source with
    | anywhere => exact ⟨none, .anywhere⟩
    | group m =>
      rw [hsource] at stands
      obtain ⟨symbol, h⟩ := known.symbol m stands.source_mem.1
      exact ⟨some symbol, .group h⟩
  rw [resolvable_iff_resolves known.wf hr stands]
  rcases ports_outcome services e (known.engine _ hm) with ⟨res, ps, hp, ports⟩ | ⟨res, reason, hp⟩
  · exact Or.inl ⟨res, fun grants =>
      ⟨_, steps_of_ports grants ht hs hp, .intro stands ht hs ports⟩⟩
  · refine Or.inr ⟨res, reason, fun grants => ?_⟩
    unfold steps
    rw [hp]
    rfl

/-- **A run succeeds, or it blames the first edge for which no port is known.** -/
theorem fragmentsOf_outcome (services : Catalog) {g : Graph} {symbols : SymbolTable}
    (known : Known g symbols) : ∀ (granted : List (String × String)) {es : List Edge},
    (∀ e ∈ es, e ∈ g.accessEdges) →
    ((∀ e ∈ es, Resolvable services g e) ∧ ∃ fs,
      fragmentsOf services g symbols granted es = .ok fs ∧ Run services g symbols granted es fs) ∨
    ∃ e reason, FirstFailing (Resolvable services g) es e ∧
      fragmentsOf services g symbols granted es = .error (.unresolvable e.id reason)
  | _, [], _ => Or.inl ⟨List.forall_mem_nil _, [], rfl, .nil⟩
  | granted, e :: es, hes => by
      obtain ⟨he, hes⟩ := List.forall_mem_cons.mp hes
      obtain ⟨r, hr, ⟨res, hsteps⟩ | ⟨res, reason, hsteps⟩⟩ := edge_outcome services known he
      · obtain ⟨st, hst, compiles⟩ := hsteps (!(newGrants granted r).isEmpty)
        rcases fragmentsOf_outcome services known (newGrants granted r ++ granted) hes with
          ⟨hall, fs, hfs, run⟩ | ⟨e', reason, hfirst, hfs⟩
        · refine Or.inl ⟨List.forall_mem_cons.mpr ⟨res, hall⟩, _, ?_, .cons hr compiles run⟩
          rw [fragmentsOf_cons hr, hst, hfs]
          rfl
        · refine Or.inr ⟨e', reason, hfirst.cons res, ?_⟩
          rw [fragmentsOf_cons hr, hst, hfs]
          rfl
      · refine Or.inr ⟨e, reason, FirstFailing.head res, ?_⟩
        rw [fragmentsOf_cons hr, hsteps]
        rfl

/-! ## 5. References -/

/-- The variables that rules may refer to are defined. -/
structure Provides (g : Graph) (symbols : SymbolTable) (defined : List String) : Prop where
  var : ∀ {n : Node} {symbol : Symbol}, n ∈ g.nodes → symbols.get? n.id = some symbol →
    symbol.var ∈ defined
  group : ∀ {n : Node} {symbol : Symbol}, n ∈ g.nodes → n.isCompute = true →
    symbols.get? n.id = some symbol → (symbol.satellite .securityGroup).var ∈ defined
  role : ∀ {n : Node} {symbol : Symbol}, n ∈ g.nodes → n.kind = .server →
    symbols.get? n.id = some symbol → (symbol.satellite .role).var ∈ defined

/-- A secret is granted only from a database to a server. -/
theorem grantPair?_eq_some {r : Rule} {pair : String × String} (h : r.grantPair? = some pair) :
    ∃ m, r.source = .group m ∧ m.kind = .server ∧ r.target.kind = .database ∧
      pair = (m.id, r.target.id) := by
  unfold Rule.grantPair? at h
  split at h
  · rename_i m hm
    split at h
    · rename_i hk
      rw [Bool.and_eq_true, beq_iff_eq, beq_iff_eq] at hk
      exact ⟨m, hm, hk.1, hk.2, (Option.some.inj h).symm⟩
    · cases h
  · cases h

/-- A pair that is newly granted is that of the rule, and has not been granted. -/
theorem mem_newGrants {granted : List (String × String)} {r : Rule} {pair : String × String} :
    pair ∈ newGrants granted r ↔ r.grantPair? = some pair ∧ pair ∉ granted := by
  rw [newGrants, List.mem_filter, Option.mem_toList]
  simp

theorem Compiles.references {services : Catalog} {g : Graph} {symbols : SymbolTable} {e : Edge}
    {r : Rule} {granted : List (String × String)} {f : Fragment} {defined : List String}
    (h : Compiles services g symbols e r (!(newGrants granted r).isEmpty) f)
    (provides : Provides g symbols defined) : ∀ v ∈ f.references, v ∈ defined := by
  intro v hv
  obtain ⟨stands, ht, hs, -⟩ := h
  obtain ⟨tm, tc⟩ := stands.target_mem
  generalize hr : r.source = source at hs stands
  cases refers_of_mem (Fragment.mem_references_build hv) with
  | target => exact provides.group tm tc ht
  | source =>
    cases hs with
    | group hm => exact provides.group stands.source_mem.1 stands.source_mem.2 hm
  | database _ => exact provides.var tm ht
  | role hg =>
    cases hs with
    | @group m symbol hm =>
      obtain ⟨pair, hp⟩ := List.exists_mem_of_ne_nil (newGrants granted r) (by simpa using hg)
      obtain ⟨m', hm', kind, -⟩ := grantPair?_eq_some (mem_newGrants.mp hp).1
      cases hr.symm.trans hm'
      exact provides.role stands.source_mem.1 kind hm

theorem Run.references {services : Catalog} {g : Graph} {symbols : SymbolTable}
    {granted : List (String × String)} {es : List Edge} {fs : List Fragment}
    {defined : List String} (run : Run services g symbols granted es fs)
    (provides : Provides g symbols defined) : ∀ f ∈ fs, ∀ v ∈ f.references, v ∈ defined := by
  induction run with
  | nil => exact List.forall_mem_nil _
  | cons hr hf rest ih => exact List.forall_mem_cons.mpr ⟨hf.references provides, ih⟩

end InfraDiagram.Access
