import InfraDiagram.Proofs.Instantiation
import InfraDiagram.Proofs.Rewiring

/-!
# What a program declares, item by item

A run emits the nodes in their order, and the default network just before the first node that is
outside any network (`emission`). What is emitted as the `k`th has the variable `ak`, and it defines
that variable and those of its satellites (`variableSuffixes`). No two of these names are the same
(`nodup_variablesFrom`), so none is lost when names that are defined twice are dropped.

The text of the program has one line for the security group of every server or database, one for
the role of every server and one for every output, whatever the edges are (`exact_inventory`). This
takes a managed policy that stays in its literal: another one may add a role
(`injected_role_is_second`).
-/

namespace InfraDiagram

/-! ## 1. Properties that say something -/

/-- Whether a property is a text that is not blank. -/
def Node.says (n : Node) (key : String) : Bool :=
  match n.property? key with
  | some (.str s) => !Text.isBlank s
  | _ => false

theorem Node.isSome_of_text? {n : Node} {key : String} {r : Option String}
    (h : n.text? key = .ok r) : r.isSome = n.says key := by
  unfold Node.text? at h
  unfold Node.says
  split at h
  · rename_i hv
    cases h
    rw [hv]
    rfl
  · rename_i hv
    cases h
    rw [hv]
    rfl
  · rename_i s hv
    cases h
    rw [hv]
    show (Text.nonBlank? s).isSome = !Text.isBlank s
    unfold Text.nonBlank?
    cases Text.isBlank s <;> rfl
  · cases h

theorem Resource.Server.isSome_appPath {settings : Settings} {n : Node} {s : Server}
    (h : ofNode settings n = .ok s) : s.appPath.isSome = n.says Property.appPath := by
  obtain ⟨_, -, h⟩ := Outcome.bind_eq_ok.mp h
  obtain ⟨_, -, h⟩ := Outcome.bind_eq_ok.mp h
  obtain ⟨_, -, h⟩ := Outcome.bind_eq_ok.mp h
  obtain ⟨_, -, h⟩ := Outcome.bind_eq_ok.mp h
  obtain ⟨_, path, h⟩ := Outcome.bind_eq_ok.mp h
  cases h
  exact Node.isSome_of_text? path

theorem Resource.Bucket.isSome_index {n : Node} {b : Bucket} (h : ofNode n = .ok b) :
    b.index.isSome = n.says Property.indexDocument := by
  obtain ⟨_, index, h⟩ := Outcome.bind_eq_ok.mp h
  obtain ⟨_, -, h⟩ := Outcome.bind_eq_ok.mp h
  obtain ⟨_, -, h⟩ := Outcome.bind_eq_ok.mp h
  cases h
  exact Node.isSome_of_text? index

/-! ## 2. What is emitted -/

namespace Stack

open Allocator (Call)

variable {settings : Settings} {g : Graph} {name : String} {p : Parts}

/-- **What a run emits**, the default network as `none`: it is made for the first node that is
    outside any network, and for no other. -/
def emission (g : Graph) : List Node → List (Option Node)
  | [] => []
  | n :: ns => if g.isUncontained n then none :: some n :: ns.map some else some n :: emission g ns

theorem emission_cons_of_uncontained {n : Node} (h : g.isUncontained n = true) (ns : List Node) :
    emission g (n :: ns) = none :: (n :: ns).map some := if_pos h

theorem emission_cons_of_contained {n : Node} (h : g.isUncontained n = false) (ns : List Node) :
    emission g (n :: ns) = some n :: emission g ns :=
  if_neg (Bool.eq_false_iff.mp h)

/-- The nodes that are emitted are those that were to be. -/
theorem flatMap_emission {α : Type} (f : Node → List α) : ∀ ns : List Node,
    (emission g ns).flatMap (fun e => e.elim [] f) = ns.flatMap f
  | [] => rfl
  | n :: ns => by
      cases h : g.isUncontained n with
      | true =>
        rw [emission_cons_of_uncontained h, List.flatMap_cons, List.flatMap_map]
        rfl
      | false =>
        rw [emission_cons_of_contained h, List.flatMap_cons, flatMap_emission f ns,
          List.flatMap_cons]
        rfl

theorem mem_of_mem_emission {n : Node} : ∀ {ns : List Node}, some n ∈ emission g ns → n ∈ ns
  | m :: ns, h => by
      cases hm : g.isUncontained m with
      | true =>
        rw [emission_cons_of_uncontained hm] at h
        simpa using h
      | false =>
        rw [emission_cons_of_contained hm] at h
        rcases List.mem_cons.mp h with e | h
        · rw [Option.some.inj e]
          exact List.mem_cons_self
        · exact List.mem_cons_of_mem _ (mem_of_mem_emission h)

/-- The symbol of what is emitted. -/
def symbolOf (t : SymbolTable) (e : Option Node) : Option Symbol :=
  e.elim t.defaultNetwork fun n => t.get? n.id

/-- The call by which what is emitted gets its symbol. -/
def callOf (e : Option Node) : Call := e.elim (.network defaultNetworkName) .node

theorem key_callOf (e : Option Node) : (callOf e).key = e.map Node.id := by
  cases e <;> rfl

theorem known?_callOf (a : Allocator) (e : Option Node) :
    a.known? (callOf e).key = symbolOf a.table e := by
  cases e <;> rfl

theorem nodup_keys : ∀ {ns : List Node}, (ns.map Node.id).Nodup →
    ((emission g ns).map (Option.map Node.id)).Nodup
  | [], _ => List.nodup_nil
  | n :: ns, h => by
      cases hn : g.isUncontained n with
      | true =>
        rw [emission_cons_of_uncontained hn, List.map_cons, List.map_map]
        have ids : (n :: ns).map (Option.map Node.id ∘ some) =
            ((n :: ns).map Node.id).map some := by
          rw [List.map_map]
          rfl
        rw [ids]
        exact List.nodup_cons.mpr ⟨by simp, h.map (Option.some_injective _)⟩
      | false =>
        obtain ⟨hid, hns⟩ := List.nodup_cons.mp h
        rw [emission_cons_of_contained hn, List.map_cons]
        refine List.nodup_cons.mpr ⟨fun hm => ?_, nodup_keys hns⟩
        obtain ⟨e, he, hk⟩ := List.mem_map.mp hm
        obtain ⟨m, rfl, hm⟩ := Option.map_eq_some_iff.mp hk
        exact hid (List.mem_map.mpr ⟨m, mem_of_mem_emission he, hm⟩)

/-- **What is emitted, with its fragment.** -/
inductive Item (settings : Settings) (g : Graph) (name : String) (t : SymbolTable) :
    Option Node → Fragment → Prop where
  | node {n : Node} {f : Fragment} (emits : Emits settings g name t n f) :
      Item settings g name t (some n) f
  | network {symbol : Symbol} (hs : t.defaultNetwork = some symbol) :
      Item settings g name t none (Resource.defaultNetwork symbol settings)

/-- Once the default network is made, every node makes one call. -/
theorem declare_calls_of_settled : ∀ {ns : List Node} {a last : Allocator} {fs : List Fragment}
    {network : Symbol}, declare settings g name a ns = .ok (last, fs) →
    a.table.defaultNetwork = some network → last = (a.run ((ns.map some).map callOf)).2
  | [], _, _, _, _, h, _ => by
      cases h
      rfl
  | n :: ns, a, last, fs, network, h, hd => by
      obtain ⟨f, others, -, hr, -⟩ := declare_cons_eq_ok_iff.mp h
      have calls : stepCalls g a n = [.node n] := by simp [stepCalls, hd]
      rw [declare_calls_of_settled hr ((admitted_extends a n).network hd), admitted_eq_run, calls]
      rfl

/-- **A run emits what it should**: its calls and its fragments are those of the emission. -/
theorem declare_itemized : ∀ {ns : List Node} {a last : Allocator} {fs : List Fragment},
    declare settings g name a ns = .ok (last, fs) → a.table.defaultNetwork = none →
    last = (a.run ((emission g ns).map callOf)).2 ∧
      List.Forall₂ (Item settings g name last.table) (emission g ns) fs
  | [], _, _, _, h, _ => by
      cases h
      exact ⟨rfl, .nil⟩
  | n :: ns, a, last, fs, h, hd => by
      obtain ⟨f, others, hf, hr, rfl⟩ := declare_cons_eq_ok_iff.mp h
      have own : Item settings g name last.table (some n) f :=
        .node (Emits.extend hf (declare_extends hr))
      rcases defaultNetwork_admitted settings g a n with ⟨symbol, hu, -, hs, hfs⟩ | ⟨hu, e, hfs⟩
      · -- the default network is made here, so the rest of the run makes none
        have calls : stepCalls g a n = [.network defaultNetworkName, .node n] := by
          simp [stepCalls, hu, hd]
        rw [emission_cons_of_uncontained hu, hfs]
        refine ⟨?_, .cons (.network ((declare_extends hr).network hs)) (.cons own ?_)⟩
        · rw [declare_calls_of_settled hr hs, admitted_eq_run, calls]
          rfl
        · exact List.forall₂_map_left_iff.mpr ((declare_settled hr hs).imp fun _ _ => .node)
      · have hn : g.isUncontained n = false := by
          refine Bool.eq_false_iff.mpr fun hn => ?_
          obtain ⟨symbol, hs⟩ := hu hn
          rw [hd] at hs
          cases hs
        have calls : stepCalls g a n = [.node n] := by simp [stepCalls, hn]
        obtain ⟨rest, items⟩ := declare_itemized hr (e.trans hd)
        rw [emission_cons_of_contained hn, hfs]
        refine ⟨?_, .cons own items⟩
        rw [rest, admitted_eq_run, calls]
        rfl

/-! ## 3. Variables -/

/-- **What the variables of something emitted add to its number**, in the order of their
    definition. -/
def variableSuffixes (e : Option Node) : List String :=
  e.elim [""] fun n =>
    match n.kind with
    | .vpc => [""]
    | .bucket => [""]
    | .database => ["_sg", ""]
    | .server =>
      ["_sg", "_role", ""] ++ if n.says Property.appPath then ["_asset", "_filepath"] else []

/-- The variables of something that is emitted under a variable. -/
def variablesOf (var : String) (e : Option Node) : List String :=
  (variableSuffixes e).map (var ++ ·)

theorem suffixes_fixed (e : Option Node) :
    variableSuffixes e = [""] ∨ variableSuffixes e = ["_sg", ""] ∨
      variableSuffixes e = ["_sg", "_role", ""] ∨
      variableSuffixes e = ["_sg", "_role", "", "_asset", "_filepath"] := by
  cases e with
  | none => exact Or.inl rfl
  | some n =>
    simp only [variableSuffixes, Option.elim_some]
    cases n.kind with
    | vpc => exact Or.inl rfl
    | bucket => exact Or.inl rfl
    | database => exact Or.inr (Or.inl rfl)
    | server => cases n.says Property.appPath <;> simp

theorem nodup_variablesOf (var : String) (e : Option Node) : (variablesOf var e).Nodup := by
  have suffixes : (variableSuffixes e).Nodup := by
    rcases suffixes_fixed e with h | h | h | h <;> rw [h] <;> decide
  refine suffixes.map fun s t h => ?_
  have hlist := congrArg String.toList h
  rw [String.toList_append, String.toList_append] at hlist
  exact String.toList_inj.mp (List.append_cancel_left hlist)

/-- **A variable tells the number of what it belongs to.** -/
theorem number_eq {i j : Nat} {e e' : Option Node} {v : String}
    (h : v ∈ variablesOf (variableName i) e) (h' : v ∈ variablesOf (variableName j) e') :
    i = j := by
  have opens : ∀ e : Option Node, ∀ s ∈ variableSuffixes e, Text.beginsOpen (s ++ ".") = true := by
    intro e
    rcases suffixes_fixed e with h | h | h | h <;> rw [h] <;> decide
  obtain ⟨s, hs, rfl⟩ := List.mem_map.mp h
  obtain ⟨s', hs', e'⟩ := List.mem_map.mp h'
  -- a dot at the end stands in for what follows a variable without a suffix
  have dotted : variableName i ++ (s ++ ".") = variableName j ++ (s' ++ ".") := by
    rw [← String.append_assoc, ← String.append_assoc, ← e']
  exact (variableName_append_inj (opens _ s hs) (opens _ s' hs') dotted).1

/-- **All variables of a program**, if what it emits is numbered from `k` on. -/
def variablesFrom (k : Nat) (es : List (Option Node)) : List String :=
  (es.zipIdx k).flatMap fun x => variablesOf (variableName x.2) x.1

theorem nodup_variablesFrom (k : Nat) (es : List (Option Node)) : (variablesFrom k es).Nodup := by
  have numbers : (es.zipIdx k).Pairwise fun x y => x.2 ≠ y.2 := by
    refine List.pairwise_map.mp ?_
    rw [List.zipIdx_map_snd]
    exact List.nodup_range'
  refine List.nodup_flatMap.mpr ⟨fun x _ => nodup_variablesOf _ x.1, ?_⟩
  exact numbers.imp fun hne v hv hv' => hne (number_eq hv hv')

section Defines

variable {symbol net : Symbol}

theorem defines_server (s : Resource.Server) (nodeId : String) (isPublic : Bool) :
    (s.steps settings nodeId symbol net isPublic).filterMap Fragment.Step.define? =
      ["_sg", "_role", ""].map (symbol.var ++ ·) ++
        (if s.appPath.isSome then ["_asset", "_filepath"] else []).map (symbol.var ++ ·) := by
  rw [Resource.Server.steps_eq, List.map_cons, List.map_cons, List.map_cons, String.append_empty]
  cases s.appPath <;> cases s.userData <;> cases isPublic <;> rfl

theorem defines_database (d : Resource.Database) (stackName : String) (isPublic : Bool) :
    (d.steps settings stackName symbol net isPublic).filterMap Fragment.Step.define? =
      ["_sg", ""].map (symbol.var ++ ·) := by
  rw [List.map_cons, List.map_cons, String.append_empty]
  cases isPublic <;> rfl

theorem defines_bucket (b : Resource.Bucket) (nodeId : String) :
    (b.steps nodeId symbol).filterMap Fragment.Step.define? = [""].map (symbol.var ++ ·) := by
  rw [Resource.Bucket.steps_eq, Resource.Bucket.declaration, Resource.Bucket.visibility,
    List.map_cons, String.append_empty]
  cases b.appPath <;> cases b.index <;> rfl

theorem defines_network :
    (Resource.network symbol settings).filterMap Fragment.Step.define? =
      [""].map (symbol.var ++ ·) := by
  rw [List.map_cons, String.append_empty]
  rfl

/-- The declaration of a node defines the variables of its kind. -/
theorem defines_declares {s : Resource.Scope} {n : Node} {steps : List Fragment.Step}
    (h : Resource.Declares s n symbol steps) :
    steps.filterMap Fragment.Step.define? = variablesOf symbol.var (some n) := by
  simp only [variablesOf, variableSuffixes, Option.elim_some]
  cases h with
  | vpc kind => rw [kind, defines_network]
  | server kind read within =>
    rw [kind, defines_server, Resource.Server.isSome_appPath read, List.map_append]
  | database kind read within => rw [kind, defines_database]
  | bucket kind read => rw [kind, defines_bucket]

end Defines

/-- **A fragment defines the variables of what it declares.** -/
theorem Item.defines {t : SymbolTable} {e : Option Node} {f : Fragment}
    (h : Item settings g name t e f) :
    ∃ symbol, symbolOf t e = some symbol ∧ f.defines = variablesOf symbol.var e := by
  have built : ∀ {origin steps var}, steps.filterMap Fragment.Step.define? = variablesOf var e →
      (Fragment.build origin steps).defines = variablesOf var e := by
    intro origin steps var defined
    rw [Fragment.defines_build, defined]
    exact foldl_appendNew_of_nodup (nodup_variablesOf var e)
  cases h with
  | node emits =>
    obtain ⟨symbol, steps, hs, declares, rfl⟩ := Resource.emit_eq_ok_iff.mp emits
    exact ⟨symbol, hs, built (defines_declares declares)⟩
  | @network symbol hs => exact ⟨symbol, hs, built defines_network⟩

/-- The variables of fragments whose symbols are numbered. -/
theorem flatMap_defines {t : SymbolTable} {es : List (Option Node)} {fs : List Fragment}
    (items : List.Forall₂ (Item settings g name t) es fs) : ∀ k,
    es.map (fun e => (symbolOf t e).map Symbol.var) =
      (List.range' k es.length).map (fun i => some (variableName i)) →
    fs.flatMap Fragment.defines = variablesFrom k es := by
  induction items with
  | nil => exact fun _ _ => rfl
  | @cons e f es fs item _ ih =>
    intro k numbered
    rw [List.map_cons, List.length_cons, List.range'_succ, List.map_cons] at numbered
    obtain ⟨first, rest⟩ := List.cons.inj numbered
    obtain ⟨symbol, hs, defined⟩ := item.defines
    rw [hs, Option.map_some] at first
    rw [List.flatMap_cons, ih (k + 1) rest, defined, Option.some.inj first]
    rfl

/-! ## 4. Lines and outputs -/

/-- Whether a node has an output: a server always, a bucket if it is a website. -/
def hasOutput (n : Node) : Bool :=
  n.kind == .server || n.kind == .bucket && n.says Property.indexDocument

/-- **The output of a node**: the address of a server, or the URL of a bucket. -/
inductive Reports (t : SymbolTable) (n : Node) : Output → Prop where
  | server {symbol : Symbol} (kind : n.kind = .server) (hs : t.get? n.id = some symbol) :
      Reports t n ⟨n.id, symbol.resource ++ " IP Address", symbol.var ++ ".instance_public_ip"⟩
  | bucket {symbol : Symbol} (kind : n.kind = .bucket) (hs : t.get? n.id = some symbol) :
      Reports t n ⟨n.id, symbol.resource ++ " Website URL", symbol.var ++ ".bucket_website_url"⟩

/-- Matches of each node with what its fragment has are matches of all nodes with what the program
    has, as far as the default network has nothing. -/
theorem forall₂_of_items {β : Type} {t : SymbolTable} {ns : List Node} {fs : List Fragment}
    {q : Node → Bool} {S : Node → β → Prop} {G : Fragment → List β}
    (items : List.Forall₂ (Item settings g name t) (emission g ns) fs)
    (node : ∀ {n f}, Emits settings g name t n f → List.Forall₂ S ([n].filter q) (G f))
    (network : ∀ {symbol}, t.defaultNetwork = some symbol →
      G (Resource.defaultNetwork symbol settings) = []) :
    List.Forall₂ S (ns.filter q) (fs.flatMap G) := by
  have picked : ns.filter q = (emission g ns).flatMap fun e => e.elim [] fun n => [n].filter q := by
    rw [flatMap_emission, ← List.filter_flatMap, List.flatMap_singleton']
  rw [picked]
  refine List.rel_flatMap items fun e f item => ?_
  cases item with
  | node emits => exact node emits
  | network hs =>
    rw [network hs]
    exact .nil

/-- A fragment has an output for a node that has one. -/
theorem reports_of_emits {t : SymbolTable} {n : Node} {f : Fragment}
    (emits : Emits settings g name t n f) :
    List.Forall₂ (Reports t) ([n].filter hasOutput) f.outputs := by
  obtain ⟨symbol, steps, hs, declares, rfl⟩ := Resource.emit_eq_ok_iff.mp emits
  rw [Fragment.outputs_build]
  cases declares with
  | vpc kind =>
    have none : hasOutput n = false := by rw [hasOutput, kind]; rfl
    rw [List.filter_singleton, none]
    exact .nil
  | server kind read within =>
    have one : hasOutput n = true := by rw [hasOutput, kind]; rfl
    rw [List.filter_singleton, one, Resource.Server.outputs_steps]
    exact .cons (.server kind hs) .nil
  | database kind read within =>
    have none : hasOutput n = false := by rw [hasOutput, kind]; rfl
    rw [List.filter_singleton, none, Resource.Database.outputs_steps]
    exact .nil
  | @bucket kind bucket read =>
    have same : hasOutput n = bucket.index.isSome := by
      rw [hasOutput, kind, Resource.Bucket.isSome_index read]
      rfl
    rw [List.filter_singleton, same, Resource.Bucket.outputs_steps]
    cases bucket.index with
    | none => exact .nil
    | some index => exact .cons (.bucket kind hs) .nil

section Items

variable (h : parts settings g name = .ok p)
include h

theorem instantiates_of_emits {n : Node} {f : Fragment}
    (emits : Emits settings g name p.symbols n f) :
    ∃ symbol, p.symbols.get? n.id = some symbol ∧
      Resource.Instantiates (scopeIn settings g name p) n symbol f := by
  obtain ⟨symbol, steps, hs, declares, rfl⟩ := Resource.emit_eq_ok_iff.mp emits
  exact ⟨symbol, hs, declares.instantiates ((legible_of_parts h).1 hs) (legible_network h n) _⟩

/-- A fragment has one line for the group of a server or database, and none for another node's. -/
theorem groups_of_emits {n : Node} {f : Fragment} (emits : Emits settings g name p.symbols n f) :
    List.Forall₂ (fun n line => ∃ symbol net, p.symbols.get? n.id = some symbol ∧
      (scopeIn settings g name p).network? n = some net ∧
      line = Resource.groupLine symbol net.var)
      ([n].filter Node.isCompute) (instancesOf "ec2.SecurityGroup" f.texts) := by
  obtain ⟨symbol, hs, made⟩ := instantiates_of_emits h emits
  rw [List.filter_singleton]
  cases compute : n.isCompute with
  | true =>
    obtain ⟨net, within, lines⟩ := made.group compute
    rw [lines]
    exact .cons ⟨symbol, net, hs, within, rfl⟩ .nil
  | false =>
    rw [made.noGroup compute]
    exact .nil

/-- A fragment has one line for the role of a server, and none for another node's. -/
theorem roles_of_emits {n : Node} {f : Fragment} (emits : Emits settings g name p.symbols n f) :
    List.Forall₂ (fun n line => ∃ symbol, p.symbols.get? n.id = some symbol ∧
      line = Resource.roleLine symbol)
      ([n].filter (·.kind == .server)) (instancesOf "iam.Role" f.texts) := by
  obtain ⟨symbol, hs, made⟩ := instantiates_of_emits h emits
  rw [List.filter_singleton]
  cases server : n.kind == .server with
  | true =>
    rw [made.role (eq_of_beq server)]
    exact .cons ⟨symbol, hs, rfl⟩ .nil
  | false =>
    rw [made.noRole (beq_eq_false_iff_ne.mp server)]
    exact .nil

/-- Every fragment has one line for each of its outputs. -/
theorem outputLines_of_item {e : Option Node} {f : Fragment}
    (item : Item settings g name p.symbols e f) :
    instancesOf "cdk.CfnOutput" f.texts = f.outputs.map Fragment.outputLine := by
  cases item with
  | node emits =>
    obtain ⟨symbol, -, made⟩ := instantiates_of_emits h emits
    exact made.outputs
  | network hs =>
    rw [Resource.instancesOf_defaultNetwork ((legible_of_parts h).2 hs) (by decide),
      Resource.defaultNetwork, Fragment.outputs_build]
    rfl

theorem constructId?_of_reports {n : Node} {o : Output} (r : Reports p.symbols n o) :
    constructId? (Fragment.outputLine o) = some o.outputId := by
  rw [← Resource.outputLayout_written]
  refine Resource.id_outputLayout ?_
  cases r with
  | server kind hs => exact Resource.Server.address_sound ((legible_of_parts h).1 hs) n.id
  | bucket kind hs => exact Resource.Bucket.address_sound ((legible_of_parts h).1 hs) n.id

/-- Lines of outputs are told apart by their ids. -/
theorem nodup_outputLines {outputs : List Output}
    (reported : ∀ o ∈ outputs, ∃ n, Reports p.symbols n o)
    (distinct : (outputs.map Output.outputId).Nodup) :
    (outputs.map Fragment.outputLine).Nodup := by
  have ids : (outputs.map Fragment.outputLine).map constructId? =
      (outputs.map Output.outputId).map some := by
    rw [List.map_map, List.map_map]
    refine List.map_congr_left fun o ho => ?_
    obtain ⟨n, r⟩ := reported o ho
    exact constructId?_of_reports h r
  refine List.Nodup.of_map constructId? ?_
  rw [ids]
  exact distinct.map (Option.some_injective _)

/-- **The declarations of a diagram are those of the emission**, and its symbols are numbered in
    that order. -/
theorem items_of_parts :
    List.Forall₂ (Item settings g name p.symbols) (emission g p.order) p.declarations ∧
      (emission g p.order).map (fun e => (symbolOf p.symbols e).map Symbol.var) =
        (List.range' 1 (emission g p.order).length).map fun k => some (variableName k) := by
  have c := compiled_of_parts h
  obtain ⟨last, table, run, -⟩ := runs_of_parts h
  obtain ⟨calls, items⟩ := declare_itemized run rfl
  obtain ⟨log, ledger⟩ := Allocator.Ledger.run ((emission g p.order).map callOf)
    (Allocator.ledger_empty settings.naming)
  rw [← calls, List.nil_append] at ledger
  have keys : (((emission g p.order).map callOf).map Call.key).Nodup := by
    have ids : (p.order.map Node.id).Nodup :=
      (c.arranged.perm.map Node.id).nodup_iff.mpr c.admitted.wellFormed.nodesDistinct
    have same : Call.key ∘ callOf = Option.map Node.id := funext key_callOf
    rw [List.map_map, same]
    exact nodup_keys ids
  have vars := ledger.vars_of_nodup keys
  rw [List.map_map, List.length_map] at vars
  rw [← table]
  refine ⟨items, ?_⟩
  rw [← vars]
  refine List.map_congr_left fun e _ => ?_
  show _ = (last.known? (callOf e).key).map Symbol.var
  rw [known?_callOf]

end Items

/-! ## 5. The inventory -/

/-- **What the text of a program declares**, line by line. -/
structure Spelled (settings : Settings) (g : Graph) (name : String) (p : Parts) (stack : Stack) :
    Prop where
  /-- Every server or database has one security group, and every server one role. -/
  groups : List.Forall₂ (fun n line => ∃ symbol net, p.symbols.get? n.id = some symbol ∧
    (scopeIn settings g name p).network? n = some net ∧ line = Resource.groupLine symbol net.var)
    (p.order.filter Node.isCompute) (sourceInstances "ec2.SecurityGroup" stack.source)
  roles : List.Forall₂ (fun n line => ∃ symbol, p.symbols.get? n.id = some symbol ∧
    line = Resource.roleLine symbol) (p.order.filter (·.kind == .server))
    (sourceInstances "iam.Role" stack.source)
  /-- Every output has one line. -/
  outputLines : sourceInstances "cdk.CfnOutput" stack.source =
    stack.outputs.map Fragment.outputLine

/-- **The inventory of a program**, read off what a run emits. -/
structure Itemized (settings : Settings) (g : Graph) (name : String) (p : Parts) (stack : Stack) :
    Prop where
  /-- Every node is emitted once, in the order of declaration. -/
  order : Order.order g = .ok p.order
  complete : p.order.Perm g.nodes
  /-- What is emitted has the variables `a1`, `a2`, … in its order. -/
  numbered : (emission g p.order).map (fun e => (symbolOf p.symbols e).map Symbol.var) =
    (List.range' 1 (emission g p.order).length).map fun k => some (variableName k)
  /-- The variables of what is emitted are declared one after the other, and each once. -/
  declared : stack.declared = variablesFrom 1 (emission g p.order)
  distinct : stack.declared.Nodup
  /-- Every server has one output and so has every bucket that is a website. -/
  outputs : List.Forall₂ (Reports p.symbols) (p.order.filter hasOutput) stack.outputs
  /-- No two outputs have the same line. -/
  distinctLines : (stack.outputs.map Fragment.outputLine).Nodup
  /-- The text declares what it should, if the managed policy stays in its literal. -/
  spelled : PolicyStays settings g → Spelled settings g name p stack

theorem spelled_of_parts {stack : Stack} (h : parts settings g name = .ok p)
    (stays : PolicyStays settings g)
    (source : stack.source = program settings.stackClass name p.fragments)
    (outputs : stack.outputs = p.fragments.flatMap Fragment.outputs) :
    Spelled settings g name p stack := by
  obtain ⟨items, -⟩ := items_of_parts h
  have silent : ∀ {called symbol}, called ∈ Resource.counted →
      p.symbols.defaultNetwork = some symbol →
      instancesOf called (Resource.defaultNetwork symbol settings).texts = [] :=
    fun hc hs => Resource.instancesOf_defaultNetwork ((legible_of_parts h).2 hs) hc
  refine ⟨?_, ?_, ?_⟩
  · rw [source, sourceInstances_eq h stays]
    exact forall₂_of_items items (groups_of_emits h) (silent (by decide))
  · rw [source, sourceInstances_eq h stays]
    exact forall₂_of_items items (roles_of_emits h) (silent (by decide))
  · rw [source, sourceInstances_eq h stays, outputs, (compiled_of_parts h).outputs_eq,
      List.map_flatMap]
    refine List.flatMap_congr fun f hf => ?_
    obtain ⟨e, -, item⟩ := exists_match items.flip hf
    exact outputLines_of_item h item

theorem itemized_of_parts {stack : Stack} (h : parts settings g name = .ok p)
    (source : stack.source = program settings.stackClass name p.fragments)
    (declared : stack.declared = declaredBy p.fragments)
    (outputs : stack.outputs = p.fragments.flatMap Fragment.outputs) :
    Itemized settings g name p stack := by
  have c := compiled_of_parts h
  obtain ⟨items, numbered⟩ := items_of_parts h
  obtain ⟨last, inv⟩ := exists_inventory h
  have names : stack.declared = variablesFrom 1 (emission g p.order) := by
    rw [declared, c.declaredBy_eq, declaredBy, flatMap_defines items 1 numbered]
    exact foldl_appendNew_of_nodup (nodup_variablesFrom 1 _)
  have reports : List.Forall₂ (Reports p.symbols) (p.order.filter hasOutput) stack.outputs := by
    rw [outputs, c.outputs_eq]
    refine forall₂_of_items items reports_of_emits fun hs => ?_
    rw [Resource.defaultNetwork, Fragment.outputs_build]
    rfl
  refine ⟨c.ordered, c.arranged.perm, numbered, names, ?_, reports, ?_,
    fun stays => spelled_of_parts h stays source outputs⟩
  · rw [names]
    exact nodup_variablesFrom 1 _
  · refine nodup_outputLines h (fun o ho => ?_) ?_
    · obtain ⟨n, -, r⟩ := exists_match reports.flip ho
      exact ⟨n, r⟩
    · rw [outputs, c.outputs_eq]
      exact inv.nodup_outputIds

/-- **What a program declares is exactly what its diagram calls for.** Its variables and outputs
    are, and so are the groups, roles and outputs of its text, if the managed policy stays in its
    literal. -/
theorem exact_inventory {stack : Stack} (h : generateNamed settings g name = .ok stack) :
    ∃ p, parts settings g name = .ok p ∧
      stack.source = program settings.stackClass name p.fragments ∧
      stack.symbols = some p.symbols ∧ Itemized settings g name p stack := by
  obtain ⟨p, hp, rfl⟩ := generateNamed_eq_ok_iff.mp h
  exact ⟨p, hp, rfl, rfl, itemized_of_parts hp rfl rfl rfl⟩

/-- A shop with a website, an application on its server, and a job outside any network whose
    application is blank. -/
def stockedShop : Graph where
  name := "shop"
  nodes := [⟨"site", .bucket, "Site", [("index_document", .str "index.html")]⟩,
    ⟨"net", .vpc, "Net", []⟩, ⟨"web", .server, "Web", [("app_path", .str "./app")]⟩,
    ⟨"job", .server, "Job", [("app_path", .str " ")]⟩,
    ⟨"db", .database, "Orders", [("engine", .str "MySQL")]⟩]
  edges := [⟨"1", "net", "web", .contains⟩, ⟨"2", "net", "db", .contains⟩,
    ⟨"3", "web", "db", .access [] (some "Database")⟩, ⟨"4", internet, "web", .access [80] none⟩]

/-- The default network of the shop is the fourth thing that is emitted, between its servers. -/
theorem stockedShop_exact_inventory :
    PolicyStays {} stockedShop ∧
    ∃ stack p, generateNamed {} stockedShop "shop" = .ok stack ∧
      Itemized {} stockedShop "shop" p stack ∧
      stack.declared = ["a1", "a2", "a3_sg", "a3_role", "a3", "a3_asset", "a3_filepath", "a4",
        "a5_sg", "a5_role", "a5", "a6_sg", "a6"] ∧
      (sourceInstances "ec2.SecurityGroup" stack.source).length = 3 ∧
      (sourceInstances "iam.Role" stack.source).length = 2 ∧
      (sourceInstances "cdk.CfnOutput" stack.source).length = 3 := by
  have evaluated : (generateNamed {} stockedShop "shop").map Stack.declared =
      .ok ["a1", "a2", "a3_sg", "a3_role", "a3", "a3_asset", "a3_filepath", "a4", "a5_sg",
        "a5_role", "a5", "a6_sg", "a6"] := by decide
  have counted : (parts {} stockedShop "shop").map (fun p =>
      ((p.order.filter Node.isCompute).length, (p.order.filter (·.kind == .server)).length,
        (p.order.filter hasOutput).length)) = .ok (3, 2, 3) := by decide
  have stays : PolicyStays {} stockedShop := by decide
  obtain ⟨stack, h, declared⟩ := Outcome.map_eq_ok.mp evaluated
  obtain ⟨p, hp, -, -, items⟩ := exact_inventory h
  have text := items.spelled stays
  rw [hp] at counted
  obtain ⟨groups, rest⟩ := Prod.mk.inj (Except.ok.inj counted)
  obtain ⟨roles, outputs⟩ := Prod.mk.inj rest
  refine ⟨stays, stack, p, h, items, declared, text.groups.length_eq.symm.trans groups,
    text.roles.length_eq.symm.trans roles, ?_⟩
  rw [text.outputLines, List.length_map]
  exact items.outputs.length_eq.symm.trans outputs

/-- A managed policy that leaves its literal may declare a second role, for one server. -/
theorem injected_role_is_second :
    ∃ stack, generateNamed (injected "spare=iam.Role(self, 'Spare Role')") (scripted "x") "shop" =
        .ok stack ∧
      ((scripted "x").nodes.filter (·.kind == .server)).length = 1 ∧
      2 ≤ (sourceInstances "iam.Role" stack.source).length := by
  have written : (parts (injected "spare=iam.Role(self, 'Spare Role')") (scripted "x") "shop").map
      (fun p => (p.fragments.flatMap Fragment.texts).contains ("a2_role=iam.Role(self, 'web1 Role', "
        ++ "assumed_by=iam.ServicePrincipal('ec2.amazonaws.com'))")) = .ok true := by decide
  obtain ⟨p, hp, found⟩ := Outcome.map_eq_ok.mp written
  have own := mem_sourceLines_of_fragments hp (List.contains_iff_mem.mp found) (by decide)
  have spare := mem_sourceLines_injected hp List.mem_cons_self rfl (by decide)
  have both : ["a2_role=iam.Role(self, 'web1 Role', "
      ++ "assumed_by=iam.ServicePrincipal('ec2.amazonaws.com'))",
      "spare=iam.Role(self, 'Spare Role')"] ⊆ sourceInstances "iam.Role" (program
        (injected "spare=iam.Role(self, 'Spare Role')").stackClass "shop" p.fragments) := by
    refine List.cons_subset.mpr ⟨mem_sourceInstances.mpr ⟨own, ?_⟩, List.cons_subset.mpr
      ⟨mem_sourceInstances.mpr ⟨spare, ?_⟩, List.nil_subset _⟩⟩
    · exact ⟨("iam.Role", "web1 Role"), by decide +kernel, rfl⟩
    · exact ⟨("iam.Role", "Spare Role"), by decide +kernel, rfl⟩
  exact ⟨_, generateNamed_eq_ok_iff.mpr ⟨p, hp, rfl⟩, rfl,
    (List.subperm_of_subset (by decide) both).length_le⟩

end Stack

end InfraDiagram
