import InfraDiagram.Proofs.Registrations

/-!
# When construct ids are distinct

The names of resources and satellites never meet: a compilation gives them out in one run of an
allocator (`declare_run`), and the ledger of the run keeps families of names apart. The ids of
outputs are not among the names that are taken. So two ids can only be equal if one is that of an
output and the other the name of a resource (`Registration.clash`), and a program registers distinct
ids exactly if no resource has the id of an output for its name (`Inventory.nodup_iff`). If names are
counted, they end in a digit, and ids of outputs do not.

What is said of the ids that the steps of a program write (`programIds`) holds of the ids that are
read off its text, as long as the managed policy stays in its literal (`sourceIds_eq`). A policy
that leaves it may register an id once more (`injected_id_clash`).
-/

namespace InfraDiagram

open Literal

/-! ## 1. Names that are given out -/

namespace Allocator

theorem run_append : ∀ (cs ds : List Call) (a : Allocator),
    (a.run (cs ++ ds)).2 = ((a.run cs).2.run ds).2
  | [], _, _ => rfl
  | c :: cs, ds, a => run_append cs ds (a.serve c).2

/-- **What is given out to two keys never meets**: neither the names nor those of the satellites. -/
theorem Ledger.disjoint {calls : List Call} {answers : List Symbol}
    {log : List (Option String × Symbol)} {a : Allocator} (h : Ledger calls answers log a)
    {k k' : Option String} {s t : Symbol} (hs : a.known? k = some s) (ht : a.known? k' = some t)
    (hne : k ≠ k') : List.Disjoint (family s.resource) (family t.resource) := by
  have logged : ∀ {k s}, a.known? k = some s → (k, s) ∈ log := by
    intro k s hs
    rw [h.known, List.lookup_eq_some_iff] at hs
    obtain ⟨before, after, e, -⟩ := hs
    rw [e]
    exact List.mem_append_right _ List.mem_cons_self
  have symmetric : Std.Symm fun x y : Option String × Symbol =>
    List.Disjoint (family x.2.resource) (family y.2.resource) := ⟨fun _ _ => List.Disjoint.symm⟩
  exact h.apart.forall (logged hs) (logged ht) fun e => hne (congrArg Prod.fst e)

/-- Every name given out so far is one of the candidates for some base. -/
def Drawn (a : Allocator) : Prop :=
  ∀ key s, a.known? key = some s → ∃ base k, s.resource = candidate a.scheme base k

theorem drawn_empty (scheme : NamingScheme) : Drawn { scheme } := by
  intro key s h
  cases key <;> cases h

/-- What is given out to a new key is a candidate, and the scheme stays. -/
theorem serve_candidate (a : Allocator) (c : Call) :
    (a.serve c).2.scheme = a.scheme ∧ (a.known? c.key = none →
      ∃ base k, (a.serve c).1.resource = candidate a.scheme base k) := by
  have found := fun base => exists_search_eq a.scheme a.taken base (2 * a.taken.length)
    (a.counter base)
  cases c with
  | node n =>
    show (a.allocate n).2.scheme = a.scheme ∧ (a.table.get? n.id = none →
      ∃ base k, (a.allocate n).1.resource = candidate a.scheme base k)
    unfold allocate
    cases a.table.get? n.id with
    | some s => exact ⟨rfl, fun h => by cases h⟩
    | none =>
      obtain ⟨i, hi⟩ := found (sanitize n.name n.kind.label)
      exact ⟨rfl, fun _ => ⟨_, _, hi⟩⟩
  | network name =>
    show (a.allocateDefaultNetwork name).2.scheme = a.scheme ∧ (a.table.defaultNetwork = none →
      ∃ base k, (a.allocateDefaultNetwork name).1.resource = candidate a.scheme base k)
    unfold allocateDefaultNetwork
    cases a.table.defaultNetwork with
    | some s => exact ⟨rfl, fun h => by cases h⟩
    | none =>
      obtain ⟨i, hi⟩ := found (sanitize name NodeKind.vpc.label)
      exact ⟨rfl, fun _ => ⟨_, _, hi⟩⟩

theorem Drawn.serve {a : Allocator} (h : a.Drawn) (c : Call) : (a.serve c).2.Drawn := by
  obtain ⟨scheme, candidate⟩ := serve_candidate a c
  rcases serve_cases a c with ⟨s, -, e⟩ | ⟨s, b, e, issues⟩
  · rw [e]
    exact h
  · rw [e] at scheme candidate ⊢
    intro key t ht
    rw [issues.known] at ht
    rw [scheme]
    split at ht
    · cases ht
      exact candidate issues.fresh
    · exact h key t ht

theorem Drawn.run : ∀ (cs : List Call) {a : Allocator}, a.Drawn → (a.run cs).2.Drawn
  | [], _, h => h
  | c :: cs, _, h => Drawn.run cs (h.serve c)

theorem scheme_run : ∀ (cs : List Call) (a : Allocator), (a.run cs).2.scheme = a.scheme
  | [], _ => rfl
  | c :: cs, a => (scheme_run cs (a.serve c).2).trans (serve_candidate a c).1

end Allocator

/-- Rules declare no outputs. -/
theorem Access.outputs_stepsWith (services : Catalog) (e : Edge) (target : Symbol)
    (ps : List UInt16) (grants : Bool) (source? : Option Symbol) :
    (stepsWith services e target ps grants source?).filterMap Fragment.Step.output? = [] := by
  have absent : ∀ o, .output o ∉ stepsWith services e target ps grants source? := by
    intro o
    cases source? with
    | none => simp [stepsWith, openRule]
    | some source => cases grants <;> simp [stepsWith, groupRule, secretGrant]
  refine List.filterMap_eq_nil_iff.mpr fun step hstep => ?_
  cases step with
  | output o => exact absurd hstep (absent o)
  | _ => rfl

/-! ## 2. The run behind a compilation -/

namespace Stack

variable {settings : Settings} {g : Graph} {name : String} {p : Parts}

/-- What a step asks the allocator for: the symbol of the default network, if the node is the first
    that needs it, and that of the node. -/
def stepCalls (g : Graph) (a : Allocator) (n : Node) : List Allocator.Call :=
  if g.isUncontained n && a.table.defaultNetwork.isNone then
    [.network defaultNetworkName, .node n]
  else [.node n]

theorem admitted_eq_run (settings : Settings) (g : Graph) (a : Allocator) (n : Node) :
    admitted settings g a n = (a.run (stepCalls g a n)).2 := by
  unfold admitted placeDefaultNetwork stepCalls
  split <;> rfl

/-- **Declaring nodes is a run of the allocator.** -/
theorem declare_run : ∀ {ns : List Node} {a last : Allocator} {fs : List Fragment},
    declare settings g name a ns = .ok (last, fs) → ∃ calls, last = (a.run calls).2
  | [], _, _, _, h => by
      cases h
      exact ⟨[], rfl⟩
  | n :: ns, a, last, fs, h => by
      obtain ⟨f, others, -, hr, -⟩ := declare_cons_eq_ok_iff.mp h
      obtain ⟨rest, hrest⟩ := declare_run hr
      refine ⟨stepCalls g a n ++ rest, ?_⟩
      rw [hrest, admitted_eq_run, Allocator.run_append]

/-- A run gives symbols to the nodes it declares, and to no others. -/
theorem mem_of_declare_get? : ∀ {ns : List Node} {a last : Allocator} {fs : List Fragment},
    declare settings g name a ns = .ok (last, fs) → ∀ {id : String} {symbol : Symbol},
    last.table.get? id = some symbol → a.table.get? id = some symbol ∨ ∃ n ∈ ns, n.id = id
  | [], _, _, _, h, _, _, hs => by
      cases h
      exact Or.inl hs
  | n :: ns, a, last, fs, h, id, symbol, hs => by
      obtain ⟨f, others, -, hr, -⟩ := declare_cons_eq_ok_iff.mp h
      by_cases hid : id = n.id
      · exact Or.inr ⟨n, List.mem_cons_self, hid.symm⟩
      · rcases mem_of_declare_get? hr hs with hs | ⟨m, hm, e⟩
        · rw [get?_admitted_of_ne a hid] at hs
          exact Or.inl hs
        · exact Or.inr ⟨m, List.mem_cons_of_mem _ hm, e⟩

/-! ## 3. Declarations and what they register -/

/-- Whose symbol the fragment of an origin declares. -/
def originOf : Option String → Origin
  | some id => .node id
  | none => .defaultNetwork

theorem originOf_inj {k k' : Option String} (h : originOf k = originOf k') : k = k' := by
  cases k with
  | none =>
    cases k' with
    | none => rfl
    | some _ => cases h
  | some _ =>
    cases k' with
    | none => cases h
    | some _ => rw [Origin.node.inj h]

/-- A fragment declares the symbol of a key, and registers what belongs to it. -/
structure Registering (last : Allocator) (f : Fragment) (key : Option String) (symbol : Symbol)
    (rs : List Registration) : Prop where
  known : last.known? key = some symbol
  origin : f.origin = originOf key
  registers : f.Registers symbol.resource rs

/-- **What the compiled declarations register**, with the allocator that gave out the names. -/
structure Inventory (settings : Settings) (p : Parts) (last : Allocator) : Prop where
  table : last.table = p.symbols
  ledger : ∃ calls answers log, Allocator.Ledger calls answers log last
  drawn : last.Drawn
  scheme : last.scheme = settings.naming
  origins : (p.declarations.map Fragment.origin).Nodup
  declared : ∀ f ∈ p.declarations, ∃ key symbol rs, Registering last f key symbol rs
  registered : ∀ key symbol, last.known? key = some symbol →
    ∃ f ∈ p.declarations, ∃ rs, Registering last f key symbol rs
  rules : ∀ f ∈ p.rules, f.constructIds = [] ∧ f.outputs = []

/-- No two declarations have one origin. -/
theorem Compiled.nodup_origins (c : Compiled settings g name p) :
    (p.declarations.map Fragment.origin).Nodup := by
  obtain ⟨own, emits, laid⟩ := c.laid
  have nodup := c.nodup_origin_emits emits
  have origins := map_origin_emits emits
  rcases laid with ⟨-, -, e⟩ | ⟨symbol, before, n, after, fb, f, fa, -, -, -, -, e, -, e'⟩
  · rw [e]
    exact nodup
  · have other : Origin.defaultNetwork ∉ own.map Fragment.origin := by
      rw [origins]
      intro h
      obtain ⟨m, -, hm⟩ := List.mem_map.mp h
      cases hm
    rw [e', List.map_append, List.map_cons, origin_defaultNetwork, List.nodup_middle]
    rw [e, List.map_append] at nodup other
    exact List.nodup_cons.mpr ⟨other, nodup⟩

theorem Compiled.outputs_of_rule (c : Compiled settings g name p) {f : Fragment}
    (hf : f ∈ p.rules) : f.outputs = [] := by
  obtain ⟨e, -, r, grants, -, compiles⟩ := exists_match c.run.forall₂.flip hf
  obtain ⟨-, -, -, -⟩ := compiles
  rw [Fragment.outputs_build, Access.outputs_stepsWith]

section Inventory

variable (h : parts settings g name = .ok p) {last : Allocator} (table : last.table = p.symbols)
include h

/-- Rules register nothing and have no outputs. -/
theorem rule_registers_nothing {f : Fragment} (hf : f ∈ p.rules) :
    f.constructIds = [] ∧ f.outputs = [] := by
  obtain ⟨e, -, r, grants, -, compiles⟩ := exists_match (compiled_of_parts h).run.forall₂.flip hf
  obtain ⟨-, ht, hs, ports⟩ := compiles
  have target := (legible_of_parts h).1 ht
  have source := legible_source h hs
  refine ⟨?_, (compiled_of_parts h).outputs_of_rule hf⟩
  rw [(Access.stepsWith_lays _ e _ grants target source).constructIds,
    Access.registeredBy_rules _ e target source]

include table

theorem registering_node {n : Node} {symbol : Symbol} {steps : List Fragment.Step}
    (hs : p.symbols.get? n.id = some symbol)
    (declares : Resource.Declares (scopeIn settings g name p) n symbol steps) :
    ∃ rs, Registering last (Fragment.build (.node n.id) steps) (some n.id) symbol rs := by
  obtain ⟨rs, registers⟩ := declares.registers ((legible_of_parts h).1 hs) (legible_network h n)
    (.node n.id)
  refine ⟨rs, ?_, Fragment.origin_build _ _, registers⟩
  show last.table.get? n.id = some symbol
  rw [table, hs]

theorem registering_network {symbol : Symbol} (hs : p.symbols.defaultNetwork = some symbol) :
    Registering last (Resource.defaultNetwork symbol settings) none symbol [.own] := by
  have legible := (legible_of_parts h).2 hs
  refine ⟨?_, origin_defaultNetwork symbol, Resource.network_registers legible _⟩
  show last.table.defaultNetwork = some symbol
  rw [table, hs]

theorem declaration_registers {f : Fragment} (hf : f ∈ p.declarations) :
    ∃ key symbol rs, Registering last f key symbol rs := by
  rcases (compiled_of_parts h).declaration_cases hf with
    ⟨n, -, symbol, steps, hs, declares, rfl⟩ | ⟨symbol, hs, rfl⟩
  · obtain ⟨rs, hrs⟩ := registering_node h table hs declares
    exact ⟨_, _, rs, hrs⟩
  · exact ⟨_, _, _, registering_network h table hs⟩

/-- Whoever was given a symbol is declared. -/
theorem symbol_registered
    (run : declare settings g name { scheme := settings.naming } p.order =
      .ok (last, p.declarations))
    {key : Option String} {symbol : Symbol} (hs : last.known? key = some symbol) :
    ∃ f ∈ p.declarations, ∃ rs, Registering last f key symbol rs := by
  obtain ⟨own, emits, laid⟩ := (compiled_of_parts h).laid
  cases key with
  | some id =>
    rcases mem_of_declare_get? run hs with hs' | ⟨n, hn, rfl⟩
    · cases hs'
    · obtain ⟨f, hf, hemit⟩ := exists_match emits hn
      obtain ⟨symbol', steps, hs', declares, rfl⟩ := Resource.emit_eq_ok_iff.mp hemit
      obtain ⟨rs, hrs⟩ := registering_node h table hs' declares
      cases hs.symm.trans hrs.known
      exact ⟨_, laid.mem hf, rs, hrs⟩
  | none =>
    have hs : p.symbols.defaultNetwork = some symbol := table ▸ hs
    rcases laid with ⟨-, hno, -⟩ | ⟨symbol', before, n, after, fb, f, fa, hd, -, -, -, -, -, e⟩
    · rw [hs] at hno
      cases hno
    · cases hd.symm.trans hs
      refine ⟨_, ?_, _, registering_network h table hs⟩
      rw [e]
      exact List.mem_append_right _ List.mem_cons_self

end Inventory

/-- A compiled diagram has an inventory. -/
theorem exists_inventory (h : parts settings g name = .ok p) :
    ∃ last, Inventory settings p last := by
  obtain ⟨last, table, run, -⟩ := runs_of_parts h
  obtain ⟨calls, hcalls⟩ := declare_run run
  obtain ⟨log, ledger⟩ := Allocator.Ledger.run calls (Allocator.ledger_empty settings.naming)
  refine ⟨last, table, ⟨_, _, log, hcalls ▸ ledger⟩, ?_, ?_, (compiled_of_parts h).nodup_origins,
    fun f hf => declaration_registers h table hf,
    fun key symbol hs => symbol_registered h table run hs, fun f hf => rule_registers_nothing h hf⟩
  · rw [hcalls]
    exact (Allocator.drawn_empty _).run calls
  · rw [hcalls]
    exact Allocator.scheme_run calls _

/-! ## 4. When ids meet -/

section Ids

variable {last : Allocator} {f f' : Fragment} {key key' : Option String} {symbol symbol' : Symbol}
  {rs rs' : List Registration}

theorem Registering.mem_constructIds (h : Registering last f key symbol rs) {id : String} :
    id ∈ f.constructIds ↔ ∃ r ∈ rs, r.id symbol.resource = id := by
  rw [h.registers.ids, List.mem_map]

theorem Registering.exists_output (h : Registering last f key symbol rs) {r : Registration}
    (hr : r ∈ rs) (output : r.isOutput = true) :
    ∃ o ∈ f.outputs, o.outputId = r.id symbol.resource := by
  have : r.id symbol.resource ∈ f.outputs.map Output.outputId := by
    rw [h.registers.outputs]
    exact List.mem_map_of_mem (List.mem_filter.mpr ⟨hr, output⟩)
  exact List.mem_map.mp this

theorem Registering.of_output (h : Registering last f key symbol rs) {o : Output}
    (ho : o ∈ f.outputs) : ∃ r ∈ rs, r.isOutput = true ∧ r.id symbol.resource = o.outputId := by
  have : o.outputId ∈ f.outputs.map Output.outputId := List.mem_map_of_mem ho
  rw [h.registers.outputs] at this
  obtain ⟨r, hr, e⟩ := List.mem_map.mp this
  exact ⟨r, (List.mem_filter.mp hr).1, (List.mem_filter.mp hr).2, e⟩

theorem Registering.own_mem (h : Registering last f key symbol rs) :
    symbol.resource ∈ f.constructIds :=
  h.mem_constructIds.mpr ⟨.own, h.registers.own, Registration.id_own _⟩

theorem Registering.nodup (h : Registering last f key symbol rs) : f.constructIds.Nodup := by
  rw [h.registers.ids]
  exact h.registers.distinct.map fun _ _ => Registration.id_left_inj

/-- The symbols of a table are those that were given out. -/
theorem Inventory.mem_symbols {last : Allocator} (inv : Inventory settings p last) {s : Symbol} :
    s ∈ p.symbols.symbols ↔ ∃ key, last.known? key = some s := by
  obtain ⟨calls, answers, log, ledger⟩ := inv.ledger
  rw [← inv.table, SymbolTable.symbols, List.mem_append]
  constructor
  · rintro (hs | hs)
    · obtain ⟨e, he, rfl⟩ := List.mem_map.mp hs
      exact ⟨some e.1, ledger.get?_of_mem_entries he⟩
    · exact ⟨none, Option.mem_toList.mp hs⟩
  · rintro ⟨key, hs⟩
    cases key with
    | some id => exact List.mem_append.mp (SymbolTable.mem_symbols_of_get? hs)
    | none => exact Or.inr (Option.mem_toList.mpr hs)

/-- The outputs of a program are those of its declarations. -/
theorem Inventory.mem_outputs {last : Allocator} (inv : Inventory settings p last) {o : Output} :
    o ∈ p.fragments.flatMap Fragment.outputs ↔ ∃ f ∈ p.declarations, o ∈ f.outputs := by
  rw [List.mem_flatMap, Parts.fragments]
  constructor
  · rintro ⟨f, hf, ho⟩
    rcases List.mem_append.mp hf with hf | hf
    · exact ⟨f, hf, ho⟩
    · rw [(inv.rules f hf).2] at ho
      cases ho
  · rintro ⟨f, hf, ho⟩
    exact ⟨f, List.mem_append_left _ hf, ho⟩

/-- The ids of a program are those of its declarations. -/
theorem Inventory.flatMap_constructIds {last : Allocator} (inv : Inventory settings p last) :
    p.fragments.flatMap Fragment.constructIds =
      p.declarations.flatMap Fragment.constructIds := by
  have rules : p.rules.flatMap Fragment.constructIds = [] :=
    List.flatMap_eq_nil_iff.mpr fun f hf => (inv.rules f hf).1
  rw [Parts.fragments, List.flatMap_append, rules, List.append_nil]

/-- If no two declarations share an id, no resource has the id of an output for its name. -/
theorem Inventory.ne_of_disjoint {last : Allocator} (inv : Inventory settings p last)
    (apart : ∀ f ∈ p.declarations, ∀ f' ∈ p.declarations, f ≠ f' →
      List.Disjoint f.constructIds f'.constructIds) {o : Output}
    (ho : o ∈ p.fragments.flatMap Fragment.outputs) {s : Symbol} (hs : s ∈ p.symbols.symbols) :
    s.resource ≠ o.outputId := by
  intro e
  obtain ⟨f, hf, ho⟩ := inv.mem_outputs.mp ho
  obtain ⟨key, symbol, rs, reg⟩ := inv.declared f hf
  obtain ⟨r, hr, output, id⟩ := reg.of_output ho
  obtain ⟨key', hs⟩ := inv.mem_symbols.mp hs
  obtain ⟨f', hf', rs', reg'⟩ := inv.registered key' s hs
  by_cases same : f = f'
  · -- a resource is not named like its own output
    have keys : key = key' := originOf_inj (reg.origin.symm.trans (same ▸ reg'.origin))
    have symbols : symbol = s := Option.some.inj (reg.known.symm.trans (keys ▸ hs))
    have own : r = .own := by
      refine @Registration.id_left_inj r .own symbol.resource ?_
      rw [id, ← e, symbols, Registration.id_own]
    rw [own] at output
    cases output
  · refine apart f hf f' hf' same (reg.mem_constructIds.mpr ⟨r, hr, id⟩) ?_
    rw [← e]
    exact reg'.own_mem

/-- If no resource has the id of an output for its name, declarations of different origin share no
    id: the names given out never meet, so an id they shared would be such a one. -/
theorem Inventory.disjoint_of_ne {last : Allocator} (inv : Inventory settings p last)
    (other : ∀ o ∈ p.fragments.flatMap Fragment.outputs, ∀ s ∈ p.symbols.symbols,
      s.resource ≠ o.outputId) (hf : f ∈ p.declarations) (hf' : f' ∈ p.declarations)
    (hne : f.origin ≠ f'.origin) : List.Disjoint f.constructIds f'.constructIds := by
  intro id hid hid'
  obtain ⟨calls, answers, log, ledger⟩ := inv.ledger
  obtain ⟨key, symbol, rs, reg⟩ := inv.declared f hf
  obtain ⟨key', symbol', rs', reg'⟩ := inv.declared f' hf'
  obtain ⟨r, hr, e⟩ := reg.mem_constructIds.mp hid
  obtain ⟨r', hr', e'⟩ := reg'.mem_constructIds.mp hid'
  have keys : key ≠ key' := by
    rintro rfl
    exact hne (reg.origin.trans reg'.origin.symm)
  have named : ∀ {key symbol}, last.known? key = some symbol → symbol ∈ p.symbols.symbols :=
    fun hs => inv.mem_symbols.mpr ⟨_, hs⟩
  rcases Registration.clash (ledger.disjoint reg.known reg'.known keys) (e.trans e'.symm) with
    ⟨output, own⟩ | ⟨own, output⟩
  · obtain ⟨o, ho, hid⟩ := reg.exists_output hr output
    refine other o (inv.mem_outputs.mpr ⟨f, hf, ho⟩) symbol' (named reg'.known) ?_
    rw [hid, e, ← e', own, Registration.id_own]
  · obtain ⟨o, ho, hid⟩ := reg'.exists_output hr' output
    refine other o (inv.mem_outputs.mpr ⟨f', hf', ho⟩) symbol (named reg.known) ?_
    rw [hid, e', ← e, own, Registration.id_own]

/-- **Ids are distinct exactly if no resource has the id of an output for its name.** -/
theorem Inventory.nodup_iff {last : Allocator} (inv : Inventory settings p last) :
    (p.fragments.flatMap Fragment.constructIds).Nodup ↔
      ∀ o ∈ p.fragments.flatMap Fragment.outputs, ∀ s ∈ p.symbols.symbols,
        s.resource ≠ o.outputId := by
  rw [inv.flatMap_constructIds, List.nodup_flatMap]
  constructor
  · rintro ⟨-, apart⟩ o ho s hs
    have symmetric : Std.Symm (Function.onFun List.Disjoint Fragment.constructIds) :=
      ⟨fun _ _ => List.Disjoint.symm⟩
    exact inv.ne_of_disjoint (fun f hf f' hf' hne => apart.forall hf hf' hne) ho hs
  · intro other
    refine ⟨fun f hf => ?_, ?_⟩
    · obtain ⟨key, symbol, rs, reg⟩ := inv.declared f hf
      exact reg.nodup
    · exact (List.pairwise_map.mp inv.origins).imp_of_mem fun hf hf' hne =>
        inv.disjoint_of_ne other hf hf' hne

/-- **No two outputs have one id**, however names are told apart. -/
theorem Inventory.nodup_outputIds {last : Allocator} (inv : Inventory settings p last) :
    ((p.declarations.flatMap Fragment.outputs).map Output.outputId).Nodup := by
  have proper : ∀ {r : Registration}, r.isOutput = true → r ≠ .own := by
    rintro _ output rfl
    cases output
  rw [List.map_flatMap, List.nodup_flatMap]
  refine ⟨fun f hf => ?_, ?_⟩
  · obtain ⟨key, symbol, rs, reg⟩ := inv.declared f hf
    rw [reg.registers.outputs]
    exact (reg.registers.distinct.filter _).map fun _ _ => Registration.id_left_inj
  · refine (List.pairwise_map.mp inv.origins).imp_of_mem fun {f f'} hf hf' hne id hid hid' => ?_
    obtain ⟨calls, answers, log, ledger⟩ := inv.ledger
    obtain ⟨key, symbol, rs, reg⟩ := inv.declared f hf
    obtain ⟨key', symbol', rs', reg'⟩ := inv.declared f' hf'
    obtain ⟨o, ho, e⟩ := List.mem_map.mp hid
    obtain ⟨o', ho', e'⟩ := List.mem_map.mp hid'
    obtain ⟨r, -, output, hr⟩ := reg.of_output ho
    obtain ⟨r', -, output', hr'⟩ := reg'.of_output ho'
    have keys : key ≠ key' := by
      rintro rfl
      exact hne (reg.origin.trans reg'.origin.symm)
    have apart := ledger.disjoint reg.known reg'.known keys
    obtain ⟨-, same⟩ := Registration.eq_of_id_eq (proper output) (proper output')
      (hr.trans (e.trans (e'.symm.trans hr'.symm)))
    exact apart List.mem_cons_self (same ▸ List.mem_cons_self)

end Ids

/-! ## 5. The ids of a program -/

/-- **The ids that the steps of a program write**, in the order of its lines. -/
def programIds (settings : Settings) (name : String) (p : Parts) : List String :=
  (programLines settings.stackClass name p.fragments).filterMap fun l => constructId? l.text

section Around

variable (usable : Text.isIdentifier settings.stackClass = true)
include usable

/-- The lines before the fragments register nothing. -/
theorem constructId?_opening (modules : List Module) :
    ∀ l ∈ opening settings.stackClass modules, constructId? l.text = none := fun l hl =>
  constructId?_of_isCode (opening_isCode (isCode_of_isIdentifier usable) modules l hl)

/-- The lines after the fragments register nothing. -/
theorem constructId?_closing (name : String) :
    ∀ l ∈ closing settings.stackClass name, constructId? l.text = none := by
  have own : constructId? (settings.stackClass ++ "(app, '" ++ name ++ "')") = none := by
    rw [stack_written]
    exact constructId?_other
      (.after (isCode_of_isIdentifier usable) (.fixed (q := '\'') (by decide)))
      (not_precedesId_after (List.cons_ne_nil _ _) (by decide))
  simp only [closing, List.forall_mem_cons]
  exact ⟨constructId?_of_isCode (isCode_fixed (by decide)), own,
    constructId?_of_isCode (isCode_fixed (by decide)), List.forall_mem_nil _⟩

/-- The ids of a program are those of its fragments. -/
theorem programIds_eq (name : String) (p : Parts) :
    programIds settings name p = p.fragments.flatMap Fragment.constructIds := by
  have before : ∀ modules, (opening settings.stackClass modules).filterMap
      (fun l => constructId? l.text) = [] := fun modules =>
    List.filterMap_eq_nil_iff.mpr (constructId?_opening usable modules)
  have after :
      (closing settings.stackClass name).filterMap (fun l => constructId? l.text) = [] :=
    List.filterMap_eq_nil_iff.mpr (constructId?_closing usable name)
  have within : (body p.fragments).filterMap (fun l => constructId? l.text) =
      p.fragments.flatMap Fragment.constructIds := by
    have texts := congrArg (List.filterMap constructId?) (map_text_body p.fragments)
    rw [List.filterMap_map, List.filterMap_flatMap] at texts
    exact texts
  rw [programIds, programLines, List.filterMap_append, List.filterMap_append, before, after, within,
    List.nil_append, List.append_nil]

end Around

/-- What a program registers: every resource that has a name, and every output. -/
structure Covers (p : Parts) (stack : Stack) (ids : List String) : Prop where
  resources : ∀ s ∈ p.symbols.symbols, s.resource ∈ ids
  outputs : ∀ o ∈ stack.outputs, o.outputId ∈ ids

theorem Inventory.covers {last : Allocator} (inv : Inventory settings p last) {stack : Stack}
    (outputs : stack.outputs = p.fragments.flatMap Fragment.outputs) :
    Covers p stack (p.fragments.flatMap Fragment.constructIds) := by
  rw [inv.flatMap_constructIds]
  refine ⟨fun s hs => ?_, fun o ho => ?_⟩
  · obtain ⟨key, hs⟩ := inv.mem_symbols.mp hs
    obtain ⟨f, hf, rs, reg⟩ := inv.registered key s hs
    exact List.mem_flatMap.mpr ⟨f, hf, reg.own_mem⟩
  · rw [outputs] at ho
    obtain ⟨f, hf, ho⟩ := inv.mem_outputs.mp ho
    obtain ⟨key, symbol, rs, reg⟩ := inv.declared f hf
    obtain ⟨r, hr, -, id⟩ := reg.of_output ho
    exact List.mem_flatMap.mpr ⟨f, hf, reg.mem_constructIds.mpr ⟨r, hr, id⟩⟩

/-- **The ids of the text are those that its steps write**, if the managed policy stays in its
    literal. -/
theorem sourceIds_eq (h : parts settings g name = .ok p) (stays : PolicyStays settings g) :
    sourceIds (program settings.stackClass name p.fragments) = programIds settings name p := by
  rw [sourceIds_program h stays, programTexts, List.filterMap_map]
  rfl

/-- The ids of a compiled diagram, with its inventory. -/
theorem exists_programIds {stack : Stack} (h : generateNamed settings g name = .ok stack) :
    ∃ p last, parts settings g name = .ok p ∧
      stack = { assembled settings.stackClass name p.fragments with symbols := some p.symbols } ∧
      Inventory settings p last ∧
      programIds settings name p = p.fragments.flatMap Fragment.constructIds ∧
      (PolicyStays settings g → sourceIds stack.source = programIds settings name p) := by
  obtain ⟨p, hp, rfl⟩ := generateNamed_eq_ok_iff.mp h
  obtain ⟨last, inv⟩ := exists_inventory hp
  exact ⟨p, last, hp, rfl, inv,
    programIds_eq (validate_eq_ok (compiled_of_parts hp).admitted.usable).1 name p,
    sourceIds_eq hp⟩

/-! ## 6. Distinct ids -/

/-- A name with a number ends in a digit. -/
theorem getLast?_counted (base : String) (k : Nat) :
    ∃ d, (Allocator.candidate .counted base k).toList.getLast? = some d ∧ d.isDigit = true := by
  have digits : (toString (k + 1)).toList = Nat.toDigits 10 (k + 1) := by
    rw [Nat.toString_eq_repr, Nat.toList_repr]
  have nonempty : Nat.toDigits 10 (k + 1) ≠ [] := Nat.toDigits_ne_nil
  refine ⟨(Nat.toDigits 10 (k + 1)).getLast nonempty, ?_,
    isDigit_of_mem_toDigits _ (List.getLast_mem nonempty)⟩
  show (base ++ toString (k + 1)).toList.getLast? = _
  rw [String.toList_append, digits, List.getLast?_append_of_ne_nil _ nonempty,
    List.getLast?_eq_some_getLast nonempty]

/-- The id of an output does not. -/
theorem getLast?_output {r : Registration} (h : r.isOutput = true) (resource : String) :
    ∃ d, (r.id resource).toList.getLast? = some d ∧ d.isDigit = false := by
  rw [Registration.id, String.toList_append]
  cases r with
  | own => cases h
  | satellite k => cases h
  | ipAddress =>
    exact ⟨'s', by rw [List.getLast?_append_of_ne_nil _ (by decide)]; decide, rfl⟩
  | websiteUrl =>
    exact ⟨'L', by rw [List.getLast?_append_of_ne_nil _ (by decide)]; decide, rfl⟩

/-- Where names are counted, no resource has the id of an output for its name. -/
theorem Inventory.ne_of_counted {last : Allocator} (inv : Inventory settings p last)
    (counted : settings.naming = .counted) :
    ∀ o ∈ p.fragments.flatMap Fragment.outputs, ∀ s ∈ p.symbols.symbols,
      s.resource ≠ o.outputId := by
  intro o ho s hs e
  obtain ⟨f, hf, ho⟩ := inv.mem_outputs.mp ho
  obtain ⟨key, symbol, rs, reg⟩ := inv.declared f hf
  obtain ⟨r, -, output, id⟩ := reg.of_output ho
  obtain ⟨key', hs⟩ := inv.mem_symbols.mp hs
  obtain ⟨base, k, drawn⟩ := inv.drawn key' s hs
  rw [inv.scheme, counted] at drawn
  obtain ⟨d, hd, digit⟩ := getLast?_counted base k
  obtain ⟨d', hd', other⟩ := getLast?_output output symbol.resource
  rw [← drawn, e, ← id, hd'] at hd
  rw [Option.some.inj hd, digit] at other
  cases other

/-- A server and a bucket whose name may look like an id of the server. -/
def lookAlike (bucket : String) : Graph where
  name := "shop"
  nodes := [⟨"web", .server, "web", []⟩, ⟨"files", .bucket, bucket, []⟩]
  edges := []

/-- **Where names are counted, a program registers distinct ids**: every resource, satellite and
    output has an id of its own, whatever names the nodes of the diagram have. The ids that are read
    off the text are distinct too, if the managed policy stays in its literal. -/
theorem counted_ids_distinct {stack : Stack} (counted : settings.naming = .counted)
    (h : generateNamed settings g name = .ok stack) :
    ∃ p, parts settings g name = .ok p ∧
      stack.source = program settings.stackClass name p.fragments ∧
      Covers p stack (programIds settings name p) ∧ (programIds settings name p).Nodup ∧
      (PolicyStays settings g →
        Covers p stack (sourceIds stack.source) ∧ (sourceIds stack.source).Nodup) := by
  obtain ⟨p, last, hp, rfl, inv, ids, text⟩ := exists_programIds h
  have distinct := inv.nodup_iff.mpr (inv.ne_of_counted counted)
  refine ⟨p, hp, rfl, ?_, ?_, fun stays => ?_⟩
  · rw [ids]
    exact inv.covers rfl
  · rw [ids]
    exact distinct
  · rw [text stays, ids]
    exact ⟨inv.covers rfl, distinct⟩

/-- A bucket that is called like the output of a server gets a number. -/
theorem lookAlike_counted_distinct :
    ({} : Settings).naming = .counted ∧ PolicyStays {} (lookAlike "web1 IP Address") ∧
    ∃ stack, generateNamed {} (lookAlike "web1 IP Address") "shop" = .ok stack ∧
      "web1 IP Address1" ∈ sourceIds stack.source ∧ "web1 IP Address" ∈ sourceIds stack.source ∧
      (sourceIds stack.source).Nodup := by
  have names : (parts {} (lookAlike "web1 IP Address") "shop").map
      (fun p => p.symbols.symbols.map Symbol.resource) =
      .ok ["web1", "web1 IP Address1", "DefaultVpc1"] := by decide
  have outputs : (generateNamed {} (lookAlike "web1 IP Address") "shop").map
      (fun stack => stack.outputs.map Output.outputId) = .ok ["web1 IP Address"] := by
    decide
  have stays : PolicyStays {} (lookAlike "web1 IP Address") := by decide
  obtain ⟨stack, h, outputs⟩ := Outcome.map_eq_ok.mp outputs
  obtain ⟨p, hp, -, -, -, text⟩ := counted_ids_distinct rfl h
  obtain ⟨covers, distinct⟩ := text stays
  rw [hp] at names
  have names : p.symbols.symbols.map Symbol.resource = _ := Except.ok.inj names
  refine ⟨rfl, stays, stack, h, ?_, ?_, distinct⟩
  · obtain ⟨s, hs, e⟩ := List.mem_map.mp (names ▸ List.mem_cons_of_mem _ List.mem_cons_self)
    exact e ▸ covers.resources s hs
  · obtain ⟨o, ho, e⟩ := List.mem_map.mp (outputs ▸ List.mem_cons_self)
    exact e ▸ covers.outputs o ho

/-- A managed policy that leaves its literal may register a network under the id of the server. -/
theorem injected_id_clash :
    ∃ stack, generateNamed (injected "ec2.Vpc(self, 'web1')") (scripted "x") "shop" = .ok stack ∧
      ¬ (sourceIds stack.source).Nodup := by
  have written : (parts (injected "ec2.Vpc(self, 'web1')") (scripted "x") "shop").map (fun p =>
      (p.fragments.flatMap Fragment.texts).contains "a2 = ec2.Instance(self, 'web1',") =
      .ok true := by decide
  obtain ⟨p, hp, found⟩ := Outcome.map_eq_ok.mp written
  have server := mem_sourceLines_of_fragments hp (List.contains_iff_mem.mp found) (by decide)
  have network := mem_sourceLines_injected hp List.mem_cons_self rfl (by decide)
  refine ⟨_, generateNamed_eq_ok_iff.mpr ⟨p, hp, rfl⟩, fun nodup => ?_⟩
  have symmetric : Std.Symm (Function.onFun List.Disjoint fun line =>
    (registered line).map Prod.snd) := ⟨fun _ _ => List.Disjoint.symm⟩
  have nodup : (sourceIds (program (injected "ec2.Vpc(self, 'web1')").stackClass "shop"
    p.fragments)).Nodup := nodup
  rw [sourceIds, List.map_flatMap, List.nodup_flatMap] at nodup
  have apart := nodup.2.forall server network (by decide)
  exact @apart "web1" (by decide) (by decide)

/-- **A program registers distinct ids exactly if no resource has the id of an output for its
    name**, however names are told apart. The same holds of the ids that are read off the text, if
    the managed policy stays in its literal. -/
theorem ids_distinct_iff {stack : Stack} (h : generateNamed settings g name = .ok stack) :
    ∃ p, parts settings g name = .ok p ∧
      stack.source = program settings.stackClass name p.fragments ∧
      Covers p stack (programIds settings name p) ∧
      ((programIds settings name p).Nodup ↔
        ∀ o ∈ stack.outputs, ∀ s ∈ p.symbols.symbols, s.resource ≠ o.outputId) ∧
      (PolicyStays settings g → Covers p stack (sourceIds stack.source) ∧
        ((sourceIds stack.source).Nodup ↔
          ∀ o ∈ stack.outputs, ∀ s ∈ p.symbols.symbols, s.resource ≠ o.outputId)) := by
  obtain ⟨p, last, hp, rfl, inv, ids, text⟩ := exists_programIds h
  refine ⟨p, hp, rfl, ?_, ?_, fun stays => ?_⟩
  · rw [ids]
    exact inv.covers rfl
  · rw [ids]
    exact inv.nodup_iff
  · rw [text stays, ids]
    exact ⟨inv.covers rfl, inv.nodup_iff⟩

/-- With bare names, a server and a bucket that are not called alike have distinct ids. -/
theorem lookAlike_bare_distinct :
    ∃ p, parts { naming := .bare } (lookAlike "files") "shop" = .ok p ∧
      "web IP Address" ∈ programIds { naming := .bare } "shop" p ∧
      (programIds { naming := .bare } "shop" p).Nodup := by
  have names : (parts { naming := .bare } (lookAlike "files") "shop").map
      (fun p => p.symbols.symbols.map Symbol.resource) = .ok ["web", "files", "DefaultVpc"] := by
    decide
  have outputs : (generateNamed { naming := .bare } (lookAlike "files") "shop").map
      (fun stack => stack.outputs.map Output.outputId) = .ok ["web IP Address"] := by
    decide
  obtain ⟨stack, h, outputs⟩ := Outcome.map_eq_ok.mp outputs
  obtain ⟨p, hp, -, covers, nodup, -⟩ := ids_distinct_iff h
  rw [hp] at names
  have names : p.symbols.symbols.map Symbol.resource = _ := Except.ok.inj names
  refine ⟨p, hp, ?_, nodup.mpr fun o ho s hs e => ?_⟩
  · obtain ⟨o, ho, e⟩ := List.mem_map.mp (outputs ▸ List.mem_cons_self)
    exact e ▸ covers.outputs o ho
  · have left : s.resource ∈ ["web", "files", "DefaultVpc"] := names ▸ List.mem_map_of_mem hs
    have right : o.outputId ∈ ["web IP Address"] := outputs ▸ List.mem_map_of_mem ho
    rw [← e, List.mem_singleton] at right
    rw [right] at left
    revert left
    decide

/-- With bare names, a bucket that is called like the output of a server has the same id. -/
theorem lookAlike_bare_clash :
    ∃ p, parts { naming := .bare } (lookAlike "web IP Address") "shop" = .ok p ∧
      "web IP Address" ∈ p.symbols.symbols.map Symbol.resource ∧
      ¬ (programIds { naming := .bare } "shop" p).Nodup := by
  have evaluated : (parts { naming := .bare } (lookAlike "web IP Address") "shop").map
      (fun p => (p.symbols.symbols.map Symbol.resource,
        (p.fragments.flatMap Fragment.outputs).map Output.outputId)) =
      .ok (["web", "web IP Address", "DefaultVpc"], ["web IP Address"]) := by decide
  obtain ⟨p, hp, e⟩ := Outcome.map_eq_ok.mp evaluated
  obtain ⟨names, outputs⟩ := Prod.mk.inj e
  obtain ⟨last, inv⟩ := exists_inventory hp
  have named : "web IP Address" ∈ p.symbols.symbols.map Symbol.resource := by
    rw [names]
    decide
  refine ⟨p, hp, named, fun nodup => ?_⟩
  rw [programIds_eq (by decide), inv.nodup_iff] at nodup
  obtain ⟨s, hs, e⟩ := List.mem_map.mp named
  obtain ⟨o, ho, e'⟩ := List.mem_map.mp (outputs ▸ List.mem_cons_self)
  exact nodup o ho s hs (e.trans e'.symm)

end Stack

end InfraDiagram
