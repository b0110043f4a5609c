import InfraDiagram.Proofs.Fragments
import InfraDiagram.Proofs.Properties
import InfraDiagram.Proofs.Symbols

/-!
# The fragment of a node

What declaring one node can give. `Declares` lists the steps for each kind of node, and
`emit_eq_ok_iff` says that these are all: a node is declared exactly if its properties are well
typed, it has a symbol, and, for servers and databases, there is a network to place it in.
-/

namespace InfraDiagram.Resource

open Fragment (Step)

/-! ## 1. What declaring a node gives -/

/-- The symbol of the network a node is placed in. -/
def Scope.network? (s : Scope) (n : Node) : Option Symbol :=
  match s.graph.parent? n.id with
  | some parent => s.symbols.get? parent.id
  | none => s.symbols.defaultNetwork

theorem Scope.symbol_eq_ok_iff {s : Scope} {n : Node} {symbol : Symbol} :
    s.symbol n = .ok symbol ↔ s.symbols.get? n.id = some symbol := by
  unfold Scope.symbol
  cases s.symbols.get? n.id <;> simp

theorem Scope.networkOf_eq_ok_iff {s : Scope} {n : Node} {net : Symbol} :
    s.networkOf n = .ok net ↔ s.network? n = some net := by
  unfold Scope.networkOf Scope.network?
  cases s.graph.parent? n.id with
  | some v => cases hv : s.symbols.get? v.id <;> simp [hv]
  | none => cases s.symbols.defaultNetwork <;> simp

/-- **The steps that declare a node**, one case for each kind. -/
inductive Declares (s : Scope) (n : Node) (symbol : Symbol) : List Step → Prop where
  | vpc (kind : n.kind = .vpc) : Declares s n symbol (network symbol s.settings)
  | server (kind : n.kind = .server) {server : Server}
      (read : Server.ofNode s.settings n = .ok server) {net : Symbol}
      (within : s.network? n = some net) :
      Declares s n symbol
        (server.steps s.settings n.id symbol net (s.graph.isPublic n.id))
  | database (kind : n.kind = .database) {database : Database}
      (read : Database.ofNode s.settings n = .ok database) {net : Symbol}
      (within : s.network? n = some net) :
      Declares s n symbol
        (database.steps s.settings s.stackName symbol net (s.graph.isPublic n.id))
  | bucket (kind : n.kind = .bucket) {bucket : Bucket} (read : Bucket.ofNode n = .ok bucket) :
      Declares s n symbol (bucket.steps n.id symbol)

theorem stepsOf_eq_ok_iff {s : Scope} {n : Node} {steps : List Step} :
    stepsOf s n = .ok steps ↔
      ∃ symbol, s.symbols.get? n.id = some symbol ∧ Declares s n symbol steps := by
  constructor
  · intro h
    unfold stepsOf at h
    split at h
    · rename_i kind
      obtain ⟨symbol, hs, h⟩ := Outcome.bind_eq_ok.mp h
      cases h
      exact ⟨symbol, Scope.symbol_eq_ok_iff.mp hs, .vpc kind⟩
    · rename_i kind
      obtain ⟨server, hr, h⟩ := Outcome.bind_eq_ok.mp h
      obtain ⟨symbol, hs, h⟩ := Outcome.bind_eq_ok.mp h
      obtain ⟨net, hn, h⟩ := Outcome.bind_eq_ok.mp h
      cases h
      exact ⟨symbol, Scope.symbol_eq_ok_iff.mp hs,
        .server kind hr (Scope.networkOf_eq_ok_iff.mp hn)⟩
    · rename_i kind
      obtain ⟨database, hr, h⟩ := Outcome.bind_eq_ok.mp h
      obtain ⟨symbol, hs, h⟩ := Outcome.bind_eq_ok.mp h
      obtain ⟨net, hn, h⟩ := Outcome.bind_eq_ok.mp h
      cases h
      exact ⟨symbol, Scope.symbol_eq_ok_iff.mp hs,
        .database kind hr (Scope.networkOf_eq_ok_iff.mp hn)⟩
    · rename_i kind
      obtain ⟨bucket, hr, h⟩ := Outcome.bind_eq_ok.mp h
      obtain ⟨symbol, hs, h⟩ := Outcome.bind_eq_ok.mp h
      cases h
      exact ⟨symbol, Scope.symbol_eq_ok_iff.mp hs, .bucket kind hr⟩
  · rintro ⟨symbol, hs, h⟩
    have hs := Scope.symbol_eq_ok_iff.mpr hs
    cases h with
    | vpc kind =>
      simp only [stepsOf, kind, hs]
      rfl
    | server kind read within =>
      simp only [stepsOf, kind, read, hs, Scope.networkOf_eq_ok_iff.mpr within]
      rfl
    | database kind read within =>
      simp only [stepsOf, kind, read, hs, Scope.networkOf_eq_ok_iff.mpr within]
      rfl
    | bucket kind read =>
      simp only [stepsOf, kind, read, hs]
      rfl

theorem emit_eq_ok_iff {s : Scope} {n : Node} {f : Fragment} :
    emit s n = .ok f ↔ ∃ symbol steps, s.symbols.get? n.id = some symbol ∧
      Declares s n symbol steps ∧ f = Fragment.build (.node n.id) steps := by
  unfold emit
  rw [Outcome.map_eq_ok]
  constructor
  · rintro ⟨steps, hsteps, rfl⟩
    obtain ⟨symbol, hs, hd⟩ := stepsOf_eq_ok_iff.mp hsteps
    exact ⟨symbol, steps, hs, hd, rfl⟩
  · rintro ⟨symbol, steps, hs, hd, rfl⟩
    exact ⟨steps, stepsOf_eq_ok_iff.mpr ⟨symbol, hs, hd⟩, rfl⟩

/-! ## 2. When it fails, and what a later table changes -/

/-- **A node with properties of a wrong type is blamed**, whatever else is known. -/
theorem emit_of_not_wellTyped (s : Scope) {n : Node} (h : ¬ n.WellTyped) :
    ∃ reason, emit s n = .error (.unsupported n.id reason) := by
  cases kind : n.kind with
  | vpc => exact absurd (Node.wellTyped_of_vpc kind) h
  | server =>
    obtain ⟨reason, e⟩ := (Server.ofNode_reads s.settings kind).error h
    refine ⟨reason, ?_⟩
    simp only [emit, stepsOf, kind, e]
    rfl
  | database =>
    obtain ⟨reason, e⟩ := (Database.ofNode_reads s.settings kind).error h
    refine ⟨reason, ?_⟩
    simp only [emit, stepsOf, kind, e]
    rfl
  | bucket =>
    obtain ⟨reason, e⟩ := (Bucket.ofNode_reads kind).error h
    refine ⟨reason, ?_⟩
    simp only [emit, stepsOf, kind, e]
    rfl

/-- **A node with well-typed properties, a symbol and a place is declared.** -/
theorem exists_emit {s : Scope} {n : Node} {symbol : Symbol} (h : n.WellTyped)
    (hs : s.symbols.get? n.id = some symbol)
    (hn : n.isCompute = true → ∃ net, s.network? n = some net) : ∃ f, emit s n = .ok f := by
  have done : ∀ {steps}, Declares s n symbol steps → ∃ f, emit s n = .ok f :=
    fun hd => ⟨_, emit_eq_ok_iff.mpr ⟨symbol, _, hs, hd, rfl⟩⟩
  cases kind : n.kind with
  | vpc => exact done (.vpc kind)
  | server =>
    obtain ⟨server, read⟩ := (Server.ofNode_reads s.settings kind).ok h
    obtain ⟨net, within⟩ := hn (by rw [Node.isCompute, kind]; rfl)
    exact done (.server kind read within)
  | database =>
    obtain ⟨database, read⟩ := (Database.ofNode_reads s.settings kind).ok h
    obtain ⟨net, within⟩ := hn (by rw [Node.isCompute, kind]; rfl)
    exact done (.database kind read within)
  | bucket =>
    obtain ⟨bucket, read⟩ := (Bucket.ofNode_reads kind).ok h
    exact done (.bucket kind read)

theorem Scope.network?_extends {s : Scope} {t : SymbolTable} (h : s.symbols.Extends t) {n : Node}
    {net : Symbol} (e : s.network? n = some net) :
    Scope.network? { s with symbols := t } n = some net := by
  unfold Scope.network? at e ⊢
  split at e
  · rename_i parent hp
    rw [hp]
    exact h.get? e
  · rename_i hp
    rw [hp]
    exact h.network e

/-- **What is declared with a table is declared in the same way with a later one.** -/
theorem emit_extends {s : Scope} {t : SymbolTable} (h : s.symbols.Extends t) {n : Node}
    {f : Fragment} (e : emit s n = .ok f) : emit { s with symbols := t } n = .ok f := by
  obtain ⟨symbol, steps, hs, hd, rfl⟩ := emit_eq_ok_iff.mp e
  refine emit_eq_ok_iff.mpr ⟨symbol, steps, h.get? hs, ?_, rfl⟩
  cases hd with
  | vpc kind => exact .vpc kind
  | server kind read within =>
    exact .server (s := { s with symbols := t }) kind read (Scope.network?_extends h within)
  | database kind read within =>
    exact .database (s := { s with symbols := t }) kind read (Scope.network?_extends h within)
  | bucket kind read => exact .bucket kind read

/-! ## 3. What a declaration defines and refers to -/

theorem Declares.define_var {s : Scope} {n : Node} {symbol : Symbol} {steps : List Step}
    (h : Declares s n symbol steps) : .define symbol.var ∈ steps := by
  cases h <;>
    simp [network, Server.steps, Server.declaration, Database.steps, Database.declaration,
      Bucket.steps, Bucket.declaration]

theorem Declares.define_group {s : Scope} {n : Node} {symbol : Symbol} {steps : List Step}
    (h : Declares s n symbol steps) (hc : n.isCompute = true) :
    .define (symbol.satellite .securityGroup).var ∈ steps := by
  cases h with
  | vpc kind => rw [Node.isCompute, kind] at hc; cases hc
  | server kind read within => simp [Server.steps, securityGroup]
  | database kind read within => simp [Database.steps, securityGroup]
  | bucket kind read => rw [Node.isCompute, kind] at hc; cases hc

theorem Declares.define_role {s : Scope} {n : Node} {symbol : Symbol} {steps : List Step}
    (h : Declares s n symbol steps) (hk : n.kind = .server) :
    .define (symbol.satellite .role).var ∈ steps := by
  cases h with
  | vpc kind => rw [kind] at hk; cases hk
  | server kind read within => simp [Server.steps, serverRole]
  | database kind read within => rw [kind] at hk; cases hk
  | bucket kind read => rw [kind] at hk; cases hk

/-- A declaration refers to nothing but the network it is placed in. -/
theorem Declares.reference {s : Scope} {n : Node} {symbol : Symbol} {steps : List Step}
    (h : Declares s n symbol steps) {v : String} (hv : .reference v ∈ steps) :
    n.isCompute = true ∧ ∃ net, s.network? n = some net ∧ v = net.var := by
  cases h with
  | vpc kind => simp [network] at hv
  | @server kind server read net within =>
    refine ⟨by rw [Node.isCompute, kind]; rfl, net, within, ?_⟩
    cases ha : server.appPath <;> cases hu : server.userData <;>
      simpa [Server.steps, securityGroup, serverRole, Server.declaration, Server.application,
        Server.script, ha, hu] using hv
  | @database kind database read net within =>
    refine ⟨by rw [Node.isCompute, kind]; rfl, net, within, ?_⟩
    simpa [Database.steps, securityGroup, Database.declaration] using hv
  | @bucket kind bucket read =>
    cases ha : bucket.appPath <;> cases hi : bucket.index <;>
      simp [Bucket.steps, Bucket.declaration, Bucket.visibility, Bucket.deployment, ha, hi] at hv

end InfraDiagram.Resource
