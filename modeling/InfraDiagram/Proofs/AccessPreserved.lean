import InfraDiagram.Proofs.SourceLines

/-!
# Compilation preserves access

The access that a diagram draws is the access that its program gives: each edge that lets traffic
through becomes one fragment, with one rule for each port, on the right group and for the right
source (`PreservesAccess`), and a server may read the secret of a database exactly if an edge leads
from the one to the other.

The text of the program has these rules and no others (`RulesStand`), as long as the managed policy
stays in its literal. A policy that leaves it may grant a secret that no edge asks for
(`injected_grant_is_read`).
-/

namespace InfraDiagram.Stack

open Access (Source Stands PortsOf SourceSymbol ruleLine grantLine)

variable {settings : Settings} {g : Graph} {name : String} {p : Parts}

/-! ## 1. What the program says of an edge -/

/-- The engine that a database is declared with, and the only one. -/
def Renders (p : Parts) (n : Node) (engine : Engine) : Prop :=
  ∃ f, p.fragmentsOf n = [f] ∧ ∀ other, Resource.engineLine other ∈ f.texts ↔ other = engine

/-- **The fragment of an edge preserves its access.** It stands on the group of its target, for
    traffic from its source; its lines are one rule for each of its ports, in their order, and after
    them at most the grant of the secret of the target, a database, to the source, a server. -/
inductive PreservesAccess (services : Catalog) (g : Graph) (p : Parts) (e : Edge) (f : Fragment) :
    Prop where
  | intro {target : Node} {source : Source} {symbol : Symbol} {source? : Option Symbol}
      {ports : List UInt16} {secrets : List String}
      (origin : f.origin = .edge e.id)
      (stands : Stands g e target source)
      (targetNamed : p.symbols.get? target.id = some symbol)
      (sourceNamed : SourceSymbol p.symbols source source?)
      (known : PortsOf services e target (Renders p target) ports)
      (range : ∀ port ∈ ports, 1 ≤ port.toNat ∧ port.toNat ≤ 65535)
      (lines : f.texts = ports.map (ruleLine services e symbol source?) ++ secrets)
      (atMostOne : secrets.length ≤ 1)
      (grants : ∀ t ∈ secrets, ∃ server s, source = .group server ∧ server.kind = .server ∧
        target.kind = .database ∧ p.symbols.get? server.id = some s ∧ t = grantLine symbol s)

/-- The engine that the properties of a database name is the one it is declared with. -/
theorem Compiled.renders (c : Compiled settings g name p) {n : Node} (hn : n ∈ g.nodes)
    (kind : n.kind = .database) {engine : Engine} (he : Engine.ofNode? n = some engine) :
    Renders p n engine := by
  obtain ⟨symbol, steps, hs, hd, hf⟩ := c.fragmentsOf_node hn
  obtain ⟨i, hi⟩ := c.var hs
  refine ⟨_, hf, fun other => ?_⟩
  rw [hd.mem_texts_iff_placed hi (by simp [Resource.placeWords]) (Resource.engineLine_begins other),
    Resource.placed_engineLine_iff hi, he]
  exact ⟨fun h => (Option.some.inj h.2).symm, fun h => ⟨kind, h ▸ rfl⟩⟩

theorem portRange {port : UInt16} (h : port ≠ 0) : 1 ≤ port.toNat ∧ port.toNat ≤ 65535 := by
  refine ⟨Nat.pos_of_ne_zero fun e => h ?_, Nat.le_of_lt_succ port.toNat_lt⟩
  exact UInt16.toNat_inj.mp e

/-- **One edge**: its fragment preserves its access. -/
theorem Compiled.preserves (c : Compiled settings g name p) {e : Edge} (he : e ∈ g.accessEdges)
    {granted : List (String × String)} {r : Access.Rule} {f : Fragment}
    (h : Access.Compiles settings.services g p.symbols e r
      (!(Access.newGrants granted r).isEmpty) f) :
    PreservesAccess settings.services g p e f := by
  have origin := origin_compiles h
  obtain @⟨symbol, source?, ports, stands, ht, hs, known⟩ := h
  have range := known.ne_zero (c.admitted.wellFormed.joins e he).2.1
    (validate_eq_ok c.admitted.usable).2
  have known := known.mono fun kind engine he => c.renders stands.target_mem.1 kind he
  refine .intro origin stands ht hs known (fun port hp => portRange (range port hp))
    (Access.texts_stepsWith _ _ _ _ _ _ _) (Access.length_grantLines_le _ _ _) ?_
  intro t htext
  rcases Access.newGrants_cases granted r with hnew | ⟨pair, hpair, hnew⟩
  · rw [hnew] at htext
    cases source? <;> cases htext
  · obtain ⟨server, hserver, kind, kind', -⟩ := Access.grantPair?_eq_some hpair
    rw [hserver] at hs
    cases hs with
    | @group _ s hs =>
      rw [hnew] at htext
      exact ⟨server, s, hserver, kind, kind', hs, List.mem_singleton.mp htext⟩

theorem Compiled.preserves_run (c : Compiled settings g name p) {granted : List (String × String)}
    {es : List Edge} {fs : List Fragment}
    (run : Access.Run settings.services g p.symbols granted es fs)
    (hes : ∀ e ∈ es, e ∈ g.accessEdges) :
    List.Forall₂ (PreservesAccess settings.services g p) es fs := by
  induction run with
  | nil => exact .nil
  | cons hr hf rest ih =>
    obtain ⟨he, hes⟩ := List.forall_mem_cons.mp hes
    exact .cons (c.preserves he hf) (ih hes)

/-! ## 2. Secrets -/

/-- Some edge leads from one node to another. -/
def Leads (g : Graph) (m n : Node) : Prop :=
  ∃ e ∈ g.accessEdges, e.source = m.id ∧ e.target = n.id

/-- **A secret is granted once if an edge leads from the server to the database**, and otherwise
    never, in what the steps of a program write. -/
theorem Compiled.count_grantLine (c : Compiled settings g name p) {server database : Node}
    (ms : server ∈ g.nodes) (md : database ∈ g.nodes) (ks : server.kind = .server)
    (kd : database.kind = .database) {s d : Symbol} (hs : p.symbols.get? server.id = some s)
    (hd : p.symbols.get? database.id = some d) :
    (Leads g server database → (programTexts settings name p).count (grantLine d s) = 1) ∧
    (¬ Leads g server database → (programTexts settings name p).count (grantLine d s) = 0) := by
  have wf := c.admitted.wellFormed
  obtain ⟨i, hi⟩ := c.var hd
  have begins := Access.grantLine_begins hi s
  have call : Text.Begins (variableName i ++ ".") (grantLine d s) :=
    Text.Begins.trans ⟨"secret.grant_read(", String.append_assoc.symm⟩ begins
  have declarations : (p.declarations.flatMap Fragment.texts).count (grantLine d s) = 0 := by
    refine List.count_eq_zero.mpr fun hm => ?_
    obtain ⟨f, hf, ht⟩ := List.mem_flatMap.mp hm
    exact c.not_rule hf ht (by simp [Resource.ruleTails]) begins
  rw [programTexts, count_programLines (validate_eq_ok c.admitted.usable).1 _ call,
    Parts.fragments, List.flatMap_append, List.count_append, declarations, Nat.zero_add]
  obtain ⟨a, ha, numbered⟩ := c.numbered
  have run := c.run
  rw [← ha] at run hs hd
  obtain ⟨one, zero⟩ := run.count_grantLine numbered hs hd List.not_mem_nil
  refine ⟨?_, fun hno => zero fun e he r hr hp => hno ⟨e, he, ?_⟩⟩
  · rintro ⟨e, he, hst⟩
    exact one ⟨e, he, (Access.asks_iff wf he ms md ks kd).mpr hst⟩
  · exact (Access.asks_iff wf he ms md ks kd).mp ⟨r, hr, hp⟩

/-- **The secret of a database is granted to a server as the edges of the diagram say**: the text of
    the program has the line if an edge leads from the server to the database. If the managed policy
    stays in its literal, it has the line once then, and otherwise never. -/
inductive GrantsSecret (settings : Settings) (g : Graph) (p : Parts) (source : String)
    (server database : Node) : Prop where
  | intro {s d : Symbol} (serverNamed : p.symbols.get? server.id = some s)
      (databaseNamed : p.symbols.get? database.id = some d)
      (granted : Leads g server database → grantLine d s ∈ sourceLines source)
      (once : PolicyStays settings g → Leads g server database →
        (sourceLines source).count (grantLine d s) = 1)
      (never : PolicyStays settings g → ¬ Leads g server database →
        (sourceLines source).count (grantLine d s) = 0)

theorem grantsSecret_of_parts (h : parts settings g name = .ok p) {server database : Node}
    (ms : server ∈ g.nodes) (md : database ∈ g.nodes) (ks : server.kind = .server)
    (kd : database.kind = .database) :
    GrantsSecret settings g p (program settings.stackClass name p.fragments) server database := by
  have c := compiled_of_parts h
  obtain ⟨s, -, hs, -, -⟩ := c.fragmentsOf_node ms
  obtain ⟨d, -, hd, -, -⟩ := c.fragmentsOf_node md
  obtain ⟨once, never⟩ := c.count_grantLine ms md ks kd hs hd
  have code : Literal.isCode (grantLine d s) = true := Access.grantLine_isCode
    ((legible_of_parts h).1 hd) ((legible_of_parts h).1 hs)
  have single := Literal.isBreak_of_scan? (Literal.scan?_of_isCode code)
  have some_ : grantLine d s ≠ "" := by
    obtain ⟨i, hi⟩ := c.var hd
    intro e
    have flush := isFlush_variable (Access.grantLine_begins hi s)
    rw [e] at flush
    cases flush
  refine .intro hs hd (fun leads => ?_) (fun stays leads => ?_) fun stays no => ?_
  · refine mem_sourceLines_of_single h (List.count_pos_iff.mp ?_) single
    rw [once leads]
    exact Nat.one_pos
  · rw [count_sourceLines h stays some_, once leads]
  · rw [count_sourceLines h stays some_, never no]

/-! ## 3. The whole diagram -/

/-- **Compilation preserves access.** The fragments of edges in a compiled program are those of the
    edges that let traffic through, in their order, and each preserves the access of its edge. Their
    lines are the rules of the text, if the managed policy stays in its literal. The text lets
    servers read the secrets of databases as the edges say. -/
theorem compilation_preserves_access {stack : Stack}
    (h : generateNamed settings g name = .ok stack) :
    ∃ p, parts settings g name = .ok p ∧
      stack.source = program settings.stackClass name p.fragments ∧
      List.Forall₂ (PreservesAccess settings.services g p) g.accessEdges p.edgeFragments ∧
      (PolicyStays settings g → RulesStand p stack.source) ∧
      ∀ server ∈ g.nodes, ∀ database ∈ g.nodes,
        server.kind = .server → database.kind = .database →
        GrantsSecret settings g p stack.source server database := by
  obtain ⟨p, hp, rfl⟩ := generateNamed_eq_ok_iff.mp h
  have c := compiled_of_parts hp
  refine ⟨p, hp, rfl, ?_, rulesStand_of_parts hp,
    fun server ms database md ks kd => grantsSecret_of_parts hp ms md ks kd⟩
  rw [c.edgeFragments_eq]
  exact c.preserves_run c.run fun _ he => he

/-- In the shop the secret is granted once, although two edges lead to the database. -/
theorem webShop_grants_secret_once : PolicyStays {} (webShop "MySQL") ∧ ∃ stack p s d,
    generateNamed {} (webShop "MySQL") "shop" = .ok stack ∧
    List.Forall₂ (PreservesAccess Catalog.standard (webShop "MySQL") p)
      (webShop "MySQL").accessEdges p.edgeFragments ∧
    RulesStand p stack.source ∧
    p.symbols.get? "web" = some s ∧ p.symbols.get? "db" = some d ∧
    (sourceLines stack.source).count (grantLine d s) = 1 := by
  have stays : PolicyStays {} (webShop "MySQL") := by decide
  obtain ⟨stack, h⟩ := exists_webShop
  obtain ⟨p, -, -, edges, rules, secrets⟩ := compilation_preserves_access h
  obtain ⟨hs, hd, -, once, -⟩ := secrets ⟨"web", .server, "Web", []⟩ (by decide)
    ⟨"db", .database, "Orders", [("engine", .str "MySQL")]⟩ (by decide) rfl rfl
  refine ⟨stays, stack, p, _, _, h, edges, rules stays, hs, hd, once stays ?_⟩
  exact ⟨⟨"3", "web", "db", .access [] (some "Database")⟩, by decide, rfl, rfl⟩

/-- A database and a server without an edge between them. -/
def unlinked : Graph where
  name := "shop"
  nodes := [⟨"db", .database, "db", [("engine", .str "MySQL")]⟩, ⟨"web", .server, "web", []⟩]
  edges := []

/-- A managed policy that leaves its literal may grant a secret that no edge asks for. -/
theorem injected_grant_is_read :
    ∃ stack p s d, generateNamed (injected "a2.secret.grant_read(a3_role)") unlinked "shop" =
        .ok stack ∧
      parts (injected "a2.secret.grant_read(a3_role)") unlinked "shop" = .ok p ∧
      p.symbols.get? "web" = some s ∧ p.symbols.get? "db" = some d ∧
      unlinked.accessEdges = [] ∧ grantLine d s ∈ sourceLines stack.source := by
  have named : (parts (injected "a2.secret.grant_read(a3_role)") unlinked "shop").map
      (fun p => (p.symbols.get? "web", p.symbols.get? "db")) =
      .ok (some ⟨"a3", "web1"⟩, some ⟨"a2", "db1"⟩) := by decide
  obtain ⟨p, hp, e⟩ := Outcome.map_eq_ok.mp named
  obtain ⟨hs, hd⟩ := Prod.mk.inj e
  have read := mem_sourceLines_injected hp (List.mem_cons_of_mem _ List.mem_cons_self) rfl
    (by decide)
  exact ⟨_, p, _, _, generateNamed_eq_ok_iff.mpr ⟨p, hp, rfl⟩, hp, hs, hd, rfl, read⟩

end InfraDiagram.Stack
