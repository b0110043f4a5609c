import InfraDiagram.Proofs.Declarations
import InfraDiagram.Proofs.Order
import InfraDiagram.Stack.Generate

/-!
# Declaring all nodes

`declare` goes through the nodes in their order. One step names a node, after the default network if
the node is the first to need it, and declares it (`declare_cons_eq_ok_iff`). From what a step does
follow by induction:

* `declare_outcome`: a run fails exactly at the first node with properties of a wrong type,
* `declare_laid`: the fragments are those of the nodes, with the default network just before the
  first node that is outside any network,
* `declare_scoped`: no fragment refers to what is not defined before it.
-/

namespace InfraDiagram.Stack

open Resource (emit Scope Declares)
open Outcome (FirstFailing)

variable {settings : Settings} {g : Graph} {name : String}

/-! ## 1. One step -/

/-- What is given out once a node is named. -/
def admitted (settings : Settings) (g : Graph) (a : Allocator) (n : Node) : Allocator :=
  ((placeDefaultNetwork settings g a n).1.allocate n).2

/-- The scope in which a node is declared with a table. -/
def scopeOf (settings : Settings) (g : Graph) (name : String) (t : SymbolTable) : Scope :=
  ⟨g, t, settings, name⟩

theorem declare_cons (a : Allocator) (n : Node) (rest : List Node) :
    declare settings g name a (n :: rest) = (do
      let f ← emit (scopeOf settings g name (admitted settings g a n).table) n
      let r ← declare settings g name (admitted settings g a n) rest
      .ok (r.1, (placeDefaultNetwork settings g a n).2 ++ f :: r.2)) := rfl

theorem declare_cons_eq_ok_iff {a last : Allocator} {n : Node} {rest : List Node}
    {fs : List Fragment} :
    declare settings g name a (n :: rest) = .ok (last, fs) ↔
      ∃ f others, emit (scopeOf settings g name (admitted settings g a n).table) n = .ok f ∧
        declare settings g name (admitted settings g a n) rest = .ok (last, others) ∧
        fs = (placeDefaultNetwork settings g a n).2 ++ f :: others := by
  rw [declare_cons, Outcome.bind_eq_ok]
  constructor
  · rintro ⟨f, hf, h⟩
    obtain ⟨⟨l, others⟩, hr, h⟩ := Outcome.bind_eq_ok.mp h
    cases h
    exact ⟨f, others, hf, hr, rfl⟩
  · rintro ⟨f, others, hf, hr, rfl⟩
    exact ⟨f, hf, Outcome.bind_eq_ok.mpr ⟨(last, others), hr, rfl⟩⟩

/-- The default network is made for the first node that needs it, and for no other. -/
theorem placeDefaultNetwork_cases (settings : Settings) (g : Graph) (a : Allocator) (n : Node) :
    (g.isUncontained n = true ∧ a.table.defaultNetwork = none ∧
      placeDefaultNetwork settings g a n =
        ((a.allocateDefaultNetwork defaultNetworkName).2,
          [Resource.defaultNetwork (a.allocateDefaultNetwork defaultNetworkName).1 settings])) ∨
    ((g.isUncontained n = true → ∃ symbol, a.table.defaultNetwork = some symbol) ∧
      placeDefaultNetwork settings g a n = (a, [])) := by
  unfold placeDefaultNetwork
  cases hu : g.isUncontained n with
  | false => exact Or.inr ⟨nofun, rfl⟩
  | true =>
    cases hd : a.table.defaultNetwork with
    | none => exact Or.inl ⟨rfl, rfl, rfl⟩
    | some symbol => exact Or.inr ⟨fun _ => ⟨symbol, rfl⟩, rfl⟩

theorem get?_admitted_self (settings : Settings) (g : Graph) (a : Allocator) (n : Node) :
    ∃ symbol, (admitted settings g a n).table.get? n.id = some symbol :=
  ⟨_, Allocator.get?_allocate_self _ n⟩

theorem get?_admitted_of_ne (a : Allocator) {n : Node} {id : String} (h : id ≠ n.id) :
    (admitted settings g a n).table.get? id = a.table.get? id := by
  rw [admitted, Allocator.get?_allocate_of_ne _ h]
  rcases placeDefaultNetwork_cases settings g a n with ⟨-, -, e⟩ | ⟨-, e⟩
  · rw [e, Allocator.get?_allocateDefaultNetwork]
  · rw [e]

theorem admitted_extends (a : Allocator) (n : Node) :
    a.table.Extends (admitted settings g a n).table := by
  refine SymbolTable.Extends.trans ?_ (Allocator.allocate_extends _ n)
  rcases placeDefaultNetwork_cases settings g a n with ⟨-, -, e⟩ | ⟨-, e⟩
  · rw [e]
    exact Allocator.allocateDefaultNetwork_extends a defaultNetworkName
  · rw [e]
    exact SymbolTable.Extends.refl _

theorem numbered_admitted {a : Allocator} (h : a.Numbered) (n : Node) :
    (admitted settings g a n).Numbered := by
  refine Allocator.Numbered.allocate ?_ n
  rcases placeDefaultNetwork_cases settings g a n with ⟨-, -, e⟩ | ⟨-, e⟩
  · rw [e]
    exact h.allocateDefaultNetwork defaultNetworkName
  · rw [e]
    exact h

/-- A step either makes the default network, for a node that needs it, or leaves it as it is. -/
theorem defaultNetwork_admitted (settings : Settings) (g : Graph) (a : Allocator) (n : Node) :
    (∃ symbol, g.isUncontained n = true ∧ a.table.defaultNetwork = none ∧
      (admitted settings g a n).table.defaultNetwork = some symbol ∧
      (placeDefaultNetwork settings g a n).2 = [Resource.defaultNetwork symbol settings]) ∨
    ((g.isUncontained n = true → ∃ symbol, a.table.defaultNetwork = some symbol) ∧
      (admitted settings g a n).table.defaultNetwork = a.table.defaultNetwork ∧
      (placeDefaultNetwork settings g a n).2 = []) := by
  rw [admitted, Allocator.defaultNetwork_allocate]
  rcases placeDefaultNetwork_cases settings g a n with ⟨hu, hd, e⟩ | ⟨hd, e⟩
  · rw [e]
    exact Or.inl ⟨_, hu, hd, Allocator.defaultNetwork_allocateDefaultNetwork a _, rfl⟩
  · rw [e]
    exact Or.inr ⟨hd, rfl, rfl⟩

/-! ## 2. What a run keeps -/

theorem declare_extends : ∀ {ns : List Node} {a last : Allocator} {fs : List Fragment},
    declare settings g name a ns = .ok (last, fs) → a.table.Extends last.table
  | [], _, _, _, h => by
      cases h
      exact SymbolTable.Extends.refl _
  | n :: ns, a, last, fs, h => by
      obtain ⟨f, others, -, hr, -⟩ := declare_cons_eq_ok_iff.mp h
      exact (admitted_extends a n).trans (declare_extends hr)

theorem declare_numbered : ∀ {ns : List Node} {a last : Allocator} {fs : List Fragment},
    declare settings g name a ns = .ok (last, fs) → a.Numbered → last.Numbered
  | [], _, _, _, h, ha => by
      cases h
      exact ha
  | n :: ns, a, last, fs, h, ha => by
      obtain ⟨f, others, -, hr, -⟩ := declare_cons_eq_ok_iff.mp h
      exact declare_numbered hr (numbered_admitted ha n)

/-! ## 3. Where a run fails -/

/-- The networks around some nodes stand before them; `done` are the nodes declared already. -/
def Ready (g : Graph) : (done : List Node) → List Node → Prop
  | _, [] => True
  | done, n :: ns => (∀ v, g.parent? n.id = some v → v ∈ done) ∧ Ready g (done ++ [n]) ns

theorem ready_of_precedes : ∀ {done ns : List Node},
    (∀ before n after v, ns = before ++ n :: after → g.parent? n.id = some v →
      v ∈ done ++ before) → Ready g done ns
  | _, [], _ => trivial
  | done, n :: ns, h => by
      refine ⟨fun v hv => by simpa using h [] n ns v rfl hv, ready_of_precedes ?_⟩
      intro before m after v e hv
      have := h (n :: before) m after v (by rw [e]; rfl) hv
      simpa [List.append_assoc] using this

theorem ready_of_arranged {order : List Node} (h : Order.Arranged g order) : Ready g [] order :=
  ready_of_precedes fun before n after v e hv =>
    h.precedes before n after v e (Graph.contains_of_parent? hv)

/-- **A node with well-typed properties is declared**, if the network around it has been. -/
theorem exists_emit_admitted (settings : Settings) (name : String) {done : List Node}
    {a : Allocator} {n : Node} (h : n.WellTyped)
    (ready : ∀ v, g.parent? n.id = some v → v ∈ done)
    (known : ∀ v ∈ done, ∃ symbol, a.table.get? v.id = some symbol) :
    ∃ f, emit (scopeOf settings g name (admitted settings g a n).table) n = .ok f := by
  obtain ⟨symbol, hs⟩ := get?_admitted_self settings g a n
  refine Resource.exists_emit h hs fun hc => ?_
  unfold Scope.network?
  cases hp : g.parent? n.id with
  | some v =>
    obtain ⟨net, hv⟩ := known v (ready v hp)
    exact ⟨net, by simpa [scopeOf, hp] using (admitted_extends a n).get? hv⟩
  | none =>
    have hu : g.isUncontained n = true := by rw [Graph.isUncontained, hc, hp]; rfl
    rcases defaultNetwork_admitted settings g a n with ⟨net, -, -, hd, -⟩ | ⟨hd, e, -⟩
    · exact ⟨net, by simpa [scopeOf, hp] using hd⟩
    · obtain ⟨net, hd⟩ := hd hu
      exact ⟨net, by simpa [scopeOf, hp] using e.trans hd⟩

/-- **A run succeeds, or it blames the first node with a property of a wrong type.** -/
theorem declare_outcome (settings : Settings) (name : String) : ∀ (a : Allocator)
    {ns done : List Node}, Ready g done ns →
    (∀ v ∈ done, ∃ symbol, a.table.get? v.id = some symbol) →
    ((∀ n ∈ ns, n.WellTyped) ∧ ∃ last fs, declare settings g name a ns = .ok (last, fs)) ∨
    ∃ n reason, FirstFailing Node.WellTyped ns n ∧
      declare settings g name a ns = .error (.unsupported n.id reason)
  | a, [], _, _, _ => Or.inl ⟨List.forall_mem_nil _, a, [], rfl⟩
  | a, n :: ns, done, ready, known => by
      by_cases hn : n.WellTyped
      · obtain ⟨f, hf⟩ := exists_emit_admitted settings name hn ready.1 known
        -- the induction is on the nodes left; `known` carries the symbols of those done
        have known' : ∀ v ∈ done ++ [n], ∃ symbol,
            (admitted settings g a n).table.get? v.id = some symbol := by
          intro v hv
          rcases List.mem_append.mp hv with hv | hv
          · obtain ⟨symbol, hs⟩ := known v hv
            exact ⟨symbol, (admitted_extends a n).get? hs⟩
          · rw [List.mem_singleton.mp hv]
            exact get?_admitted_self settings g a n
        rcases declare_outcome settings name (admitted settings g a n) ready.2 known' with
          ⟨hns, last, fs, hr⟩ | ⟨m, reason, hm, hr⟩
        · exact Or.inl ⟨List.forall_mem_cons.mpr ⟨hn, hns⟩, last, _,
            declare_cons_eq_ok_iff.mpr ⟨f, fs, hf, hr, rfl⟩⟩
        · refine Or.inr ⟨m, reason, hm.cons hn, ?_⟩
          rw [declare_cons, hf, Outcome.ok_bind, hr]
          rfl
      · obtain ⟨reason, hr⟩ := Resource.emit_of_not_wellTyped
          (scopeOf settings g name (admitted settings g a n).table) hn
        refine Or.inr ⟨n, reason, FirstFailing.head hn, ?_⟩
        rw [declare_cons, hr]
        rfl

/-! ## 4. Which fragments a run gives -/

/-- **Fragments of nodes with the default network among them**: just before the first node outside
    any network, if there is one. -/
def Laid (settings : Settings) (g : Graph) (network? : Option Symbol) (ns : List Node)
    (own all : List Fragment) : Prop :=
  ((∀ n ∈ ns, g.isUncontained n = false) ∧ network? = none ∧ all = own) ∨
  ∃ symbol before n after fb f fa,
    network? = some symbol ∧ ns = before ++ n :: after ∧ (∀ m ∈ before, g.isUncontained m = false) ∧
    g.isUncontained n = true ∧ own = fb ++ f :: fa ∧ fb.length = before.length ∧
    all = fb ++ Resource.defaultNetwork symbol settings :: f :: fa

theorem Laid.cons {network? : Option Symbol} {n : Node} {ns : List Node} {f : Fragment}
    {own all : List Fragment} (hn : g.isUncontained n = false)
    (h : Laid settings g network? ns own all) :
    Laid settings g network? (n :: ns) (f :: own) (f :: all) := by
  rcases h with ⟨hns, hd, rfl⟩ |
    ⟨symbol, before, m, after, fb, f', fa, hd, rfl, hb, hm, rfl, hl, rfl⟩
  · exact Or.inl ⟨List.forall_mem_cons.mpr ⟨hn, hns⟩, hd, rfl⟩
  · exact Or.inr ⟨symbol, n :: before, m, after, f :: fb, f', fa, hd, rfl,
      List.forall_mem_cons.mpr ⟨hn, hb⟩, hm, rfl, congrArg (· + 1) hl, rfl⟩

/-- A node is declared with a table. -/
def Emits (settings : Settings) (g : Graph) (name : String) (t : SymbolTable) (n : Node)
    (f : Fragment) : Prop := emit (scopeOf settings g name t) n = .ok f

theorem Emits.extend {t t' : SymbolTable} {n : Node} {f : Fragment}
    (h : Emits settings g name t n f) (ht : t.Extends t') : Emits settings g name t' n f :=
  Resource.emit_extends (s := scopeOf settings g name t) ht h

/-- Once the default network is made, a run adds the fragments of the nodes only. -/
theorem declare_settled : ∀ {ns : List Node} {a last : Allocator} {fs : List Fragment}
    {network : Symbol}, declare settings g name a ns = .ok (last, fs) →
    a.table.defaultNetwork = some network →
    List.Forall₂ (Emits settings g name last.table) ns fs
  | [], _, _, _, _, h, _ => by
      cases h
      exact .nil
  | n :: ns, a, last, fs, network, h, hd => by
      obtain ⟨f, others, hf, hr, rfl⟩ := declare_cons_eq_ok_iff.mp h
      rcases defaultNetwork_admitted settings g a n with ⟨-, -, hnone, -⟩ | ⟨-, e, hfs⟩
      · rw [hd] at hnone
        cases hnone
      · rw [hfs, List.nil_append]
        exact .cons (Emits.extend hf (declare_extends hr)) (declare_settled hr (e.trans hd))

/-- **The fragments of a run**: those of the nodes in their order, laid out with the default
    network. -/
theorem declare_laid : ∀ {ns : List Node} {a last : Allocator} {fs : List Fragment},
    declare settings g name a ns = .ok (last, fs) → a.table.defaultNetwork = none →
    ∃ own, List.Forall₂ (Emits settings g name last.table) ns own ∧
      Laid settings g last.table.defaultNetwork ns own fs
  | [], _, _, _, h, hd => by
      cases h
      exact ⟨[], .nil, Or.inl ⟨List.forall_mem_nil _, hd, rfl⟩⟩
  | n :: ns, a, last, fs, h, hd => by
      obtain ⟨f, others, hf, hr, rfl⟩ := declare_cons_eq_ok_iff.mp h
      have hf' : Emits settings g name last.table n f := Emits.extend hf (declare_extends hr)
      rcases defaultNetwork_admitted settings g a n with ⟨symbol, hu, -, e, hfs⟩ | ⟨hu, e, hfs⟩
      · -- the default network is made here, so the rest of the run makes none
        refine ⟨f :: others, .cons hf' (declare_settled hr e), Or.inr ?_⟩
        exact ⟨symbol, [], n, ns, [], f, others, (declare_extends hr).network e, rfl,
          List.forall_mem_nil _, hu, rfl, rfl, by rw [hfs]; rfl⟩
      · obtain ⟨own, hown, hlaid⟩ := declare_laid hr (e.trans hd)
        have hn : g.isUncontained n = false := by
          refine Bool.eq_false_iff.mpr fun hn => ?_
          obtain ⟨symbol, hs⟩ := hu hn
          rw [hd] at hs
          cases hs
        rw [hfs, List.nil_append]
        exact ⟨f :: own, .cons hf' hown, hlaid.cons hn⟩

/-! ## 5. References -/

/-- The variables of a table are defined. -/
structure Defined (t : SymbolTable) (defined : List String) : Prop where
  node : ∀ {id : String} {symbol : Symbol}, t.get? id = some symbol → symbol.var ∈ defined
  network : ∀ {symbol : Symbol}, t.defaultNetwork = some symbol → symbol.var ∈ defined

/-- The fragment of a default network refers to nothing and defines its variable. -/
theorem defaultNetwork_defines (symbol : Symbol) (settings : Settings) :
    (∀ v, v ∉ (Resource.defaultNetwork symbol settings).references) ∧
      symbol.var ∈ (Resource.defaultNetwork symbol settings).defines := by
  refine ⟨fun v hv => ?_, Fragment.mem_defines_build.mpr (by simp [Resource.network])⟩
  have := Fragment.mem_references_build hv
  simp [Resource.network] at this

/-- What is defined once the default network has been placed: everything but the node itself. -/
theorem defined_placed (settings : Settings) (g : Graph) {a : Allocator} {defined : List String}
    (hd : Defined a.table defined) (n : Node) :
    Scoped defined (placeDefaultNetwork settings g a n).2 ∧
    (∀ {id symbol}, id ≠ n.id → (admitted settings g a n).table.get? id = some symbol →
      symbol.var ∈ defined ++ (placeDefaultNetwork settings g a n).2.flatMap Fragment.defines) ∧
    (∀ {symbol}, (admitted settings g a n).table.defaultNetwork = some symbol →
      symbol.var ∈ defined ++ (placeDefaultNetwork settings g a n).2.flatMap Fragment.defines) := by
  refine ⟨?_, fun hne hs => ?_, fun {symbol} hs => ?_⟩
  · rcases defaultNetwork_admitted settings g a n with ⟨symbol, -, -, -, e⟩ | ⟨-, -, e⟩
    · rw [e]
      exact ⟨fun v hv => absurd hv ((defaultNetwork_defines symbol settings).1 v), trivial⟩
    · rw [e]
      exact trivial
  · rw [get?_admitted_of_ne a hne] at hs
    exact List.mem_append_left _ (hd.node hs)
  · rcases defaultNetwork_admitted settings g a n with ⟨symbol', -, -, e, hf⟩ | ⟨-, e, -⟩
    · cases e.symm.trans hs
      rw [hf]
      exact List.mem_append_right _
        (List.mem_flatMap.mpr ⟨_, List.mem_singleton_self _, (defaultNetwork_defines _ _).2⟩)
    · exact List.mem_append_left _ (hd.network (e.symm.trans hs))

/-- **A run refers only to what it has defined**, and it defines every variable it gives out. -/
theorem declare_scoped : ∀ {ns : List Node} {a last : Allocator} {fs : List Fragment}
    {defined : List String}, declare settings g name a ns = .ok (last, fs) →
    (∀ n ∈ ns, ∀ v, g.parent? n.id = some v → v.id ≠ n.id) → Defined a.table defined →
    Scoped defined fs ∧ Defined last.table (defined ++ fs.flatMap Fragment.defines)
  | [], _, _, _, _, h, _, hd => by
      cases h
      exact ⟨trivial, by simpa using hd⟩
  | n :: ns, a, last, fs, defined, h, hne, hd => by
      obtain ⟨f, others, hf, hr, rfl⟩ := declare_cons_eq_ok_iff.mp h
      obtain ⟨symbol, steps, hs, hsteps, rfl⟩ := Resource.emit_eq_ok_iff.mp hf
      obtain ⟨hplaced, hnode, hnetwork⟩ := defined_placed settings g hd n
      -- the network of `n` has been defined: it is another node's, or the default one
      have hown : ∀ v ∈ (Fragment.build (.node n.id) steps).references,
          v ∈ defined ++ (placeDefaultNetwork settings g a n).2.flatMap Fragment.defines := by
        intro v hv
        obtain ⟨-, net, within, rfl⟩ := hsteps.reference (Fragment.mem_references_build hv)
        unfold Scope.network? at within
        split at within
        · rename_i parent hp
          exact hnode (hne n List.mem_cons_self parent hp) within
        · exact hnetwork within
      have hdef : Defined (admitted settings g a n).table
          (defined ++ (placeDefaultNetwork settings g a n).2.flatMap Fragment.defines
            ++ (Fragment.build (.node n.id) steps).defines) := by
        refine ⟨fun {id symbol'} hs' => ?_, fun hs' => List.mem_append_left _ (hnetwork hs')⟩
        by_cases hid : id = n.id
        · cases hs.symm.trans (hid ▸ hs')
          exact List.mem_append_right _ (Fragment.mem_defines_build.mpr hsteps.define_var)
        · exact List.mem_append_left _ (hnode hid hs')
      obtain ⟨hothers, hlast⟩ :=
        declare_scoped hr (fun m hm => hne m (List.mem_cons_of_mem _ hm)) hdef
      refine ⟨scoped_append.mpr ⟨hplaced, hown, hothers⟩, ?_⟩
      simpa [List.flatMap_append, List.append_assoc] using hlast

end InfraDiagram.Stack
