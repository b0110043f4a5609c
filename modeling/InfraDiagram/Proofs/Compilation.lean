import InfraDiagram.Proofs.DeclarationRun
import InfraDiagram.Proofs.Rules

/-!
# When a diagram compiles

A compilation checks its input, orders and declares the nodes, makes the rules and puts everything
together. `Admitted` says what the check asks for. On an admitted input only two things can go
wrong: a property of a wrong type, and an edge for which no port is known (`parts_outcome`). Putting
the fragments together never fails then (`Compiled.wellScoped`).

`Compiled` collects what holds of the parts of every diagram that compiles; later results about
compiled diagrams start from it.
-/

namespace InfraDiagram.Stack

open Outcome (FirstFailing)
open Access (Resolvable)

variable {settings : Settings} {g : Graph} {name : String}

/-! ## 1. What is checked first -/

/-- **An input that passes the check**: usable settings, a proper name, a diagram without structural
    problems, and a network around every server and database unless one may be made for them. -/
structure Admitted (settings : Settings) (g : Graph) (name : String) : Prop where
  usable : settings.validate = .ok ()
  named : name ≠ "" ∧ ∀ c ∈ name.toList, c.isAlphanum = true ∨ c = '_' ∨ c = '-'
  structured : g.checkStructure.problems = []
  placed : settings.implicitVpc = true ∨
    ∀ n ∈ g.nodes, n.isCompute = true → ∃ v, g.Contains v n

theorem Admitted.wellFormed (h : Admitted settings g name) : g.WellFormed :=
  Graph.wellFormed_of_structureProblems h.structured

theorem validate_eq_ok (h : settings.validate = .ok ()) :
    Text.isIdentifier settings.stackClass = true ∧
      ∀ s ∈ settings.services.services, s.port ≠ 0 := by
  unfold Settings.validate at h
  split at h
  · cases h
  · rename_i hc
    split at h
    · cases h
    · rename_i hp
      refine ⟨by simpa using hc, fun s hs e => ?_⟩
      have := List.find?_eq_none.mp hp s hs
      simp [e] at this

theorem stackNameProblems_eq_nil_iff :
    Graph.stackNameProblems name = [] ↔
      name ≠ "" ∧ ∀ c ∈ name.toList, c.isAlphanum = true ∨ c = '_' ∨ c = '-' := by
  unfold Graph.stackNameProblems Graph.isStackName Text.isNameChar
  split
  · rename_i h
    simp only [Bool.and_eq_true, Bool.not_eq_true', List.all_eq_true, Bool.or_eq_true, beq_iff_eq,
      or_assoc] at h
    exact iff_of_true rfl ⟨fun e => by rw [e] at h; simp at h, h.2⟩
  · rename_i h
    refine iff_of_false nofun fun ⟨hne, hall⟩ => h ?_
    simp only [Bool.and_eq_true, Bool.not_eq_true', List.all_eq_true, Bool.or_eq_true, beq_iff_eq,
      or_assoc]
    exact ⟨by simpa using hne, hall⟩

theorem toExcept_eq_ok_iff {r : Report} : r.toExcept = .ok () ↔ r.problems = [] := by
  unfold Report.toExcept
  split
  · rename_i h
    exact iff_of_true rfl h
  · rename_i h
    exact iff_of_false nofun (by rw [h]; exact nofun)

/-- A server or database that no network contains. -/
def Uncontained (g : Graph) (n : Node) : Prop := n.isCompute = true ∧ ∀ v, ¬ g.Contains v n

theorem isUncontained_iff (wf : g.WellFormed) {n : Node} :
    g.isUncontained n = true ↔ Uncontained g n := by
  rw [Graph.isUncontained, Bool.and_eq_true, Option.isNone_iff_eq_none]
  refine and_congr_right fun _ => ⟨fun h v hv => ?_, fun h => ?_⟩
  · rw [Graph.parent?_of_contains wf.nodesDistinct wf.single hv] at h
    cases h
  · cases hp : g.parent? n.id with
    | none => rfl
    | some v => exact absurd (Graph.contains_of_parent? hp) (h v)

theorem checkPlacement_eq_ok_iff (wf : g.WellFormed) :
    checkPlacement settings g = .ok () ↔
      settings.implicitVpc = true ∨ ∀ n ∈ g.nodes, n.isCompute = true → ∃ v, g.Contains v n := by
  unfold checkPlacement
  split
  · rename_i h
    exact iff_of_true rfl (Or.inl h)
  · rename_i hvpc
    split
    · rename_i n hn
      refine iff_of_false nofun ?_
      obtain ⟨hc, hno⟩ := (isUncontained_iff wf).mp (List.find?_some hn)
      rintro (h | h)
      · exact hvpc h
      · obtain ⟨v, hv⟩ := h n (List.mem_of_find?_eq_some hn) hc
        exact hno v hv
    · rename_i hn
      refine iff_of_true rfl (Or.inr fun n hm hc => ?_)
      by_contra hno
      exact List.find?_eq_none.mp hn n hm
        ((isUncontained_iff wf).mpr ⟨hc, fun v hv => hno ⟨v, hv⟩⟩)

/-- **The check passes exactly on admitted inputs.** -/
theorem checkInput_eq_ok_iff : checkInput settings g name = .ok () ↔ Admitted settings g name := by
  have problems : (g.checkNamed name).problems =
      Graph.stackNameProblems name ++ g.checkStructure.problems := rfl
  unfold checkInput
  rw [Outcome.bind_eq_ok]
  constructor
  · rintro ⟨⟨⟩, hsettings, h⟩
    obtain ⟨⟨⟩, hnamed, hplaced⟩ := Outcome.bind_eq_ok.mp h
    have hnil := toExcept_eq_ok_iff.mp (Outcome.mapError_eq_ok.mp hnamed)
    rw [problems, List.append_eq_nil_iff] at hnil
    have wf := Graph.wellFormed_of_structureProblems hnil.2
    exact ⟨Outcome.mapError_eq_ok.mp hsettings, stackNameProblems_eq_nil_iff.mp hnil.1, hnil.2,
      (checkPlacement_eq_ok_iff wf).mp hplaced⟩
  · intro h
    refine ⟨(), Outcome.mapError_eq_ok.mpr h.usable, Outcome.bind_eq_ok.mpr ⟨(), ?_, ?_⟩⟩
    · refine Outcome.mapError_eq_ok.mpr (toExcept_eq_ok_iff.mpr ?_)
      rw [problems, stackNameProblems_eq_nil_iff.mpr h.named, h.structured]
      rfl
    · exact (checkPlacement_eq_ok_iff h.wellFormed).mpr h.placed

/-! ## 2. What a compiled diagram is made of -/

/-- **What holds of the parts of every diagram that compiles.** -/
structure Compiled (settings : Settings) (g : Graph) (name : String) (p : Parts) : Prop where
  admitted : Admitted settings g name
  ordered : Order.order g = .ok p.order
  arranged : Order.Arranged g p.order
  typed : ∀ n ∈ g.nodes, n.WellTyped
  resolvable : ∀ e ∈ g.accessEdges, Resolvable settings.services g e
  numbered : ∃ a : Allocator, a.table = p.symbols ∧ a.Numbered
  laid : ∃ own, List.Forall₂ (Emits settings g name p.symbols) p.order own ∧
    Laid settings g p.symbols.defaultNetwork p.order own p.declarations
  run : Access.Run settings.services g p.symbols [] g.accessEdges p.rules
  wellScoped : Scoped [] p.fragments

/-- The network around a node is another node. -/
theorem parent_ne_self (wf : g.WellFormed) {n v : Node} (hn : n ∈ g.nodes)
    (h : g.parent? n.id = some v) : v.id ≠ n.id := by
  intro e
  have within := Graph.contains_of_parent? h
  have compute : n.isCompute = true := by
    obtain ⟨-, c, hc, -, ht⟩ := within
    obtain ⟨-, -, m, hm, -, htm, -, cm⟩ := wf.nests c hc
    rwa [Graph.eq_of_id_eq wf.nodesDistinct hn hm (ht.symm.trans htm)]
  rw [Access.outside_network wf within n hn e.symm] at compute
  cases compute

/-- Every fragment of a node is among those laid out. -/
theorem Laid.mem {network? : Option Symbol} {ns : List Node} {own all : List Fragment}
    (h : Laid settings g network? ns own all) {f : Fragment} (hf : f ∈ own) : f ∈ all := by
  rcases h with ⟨-, -, rfl⟩ | ⟨symbol, before, n, after, fb, f', fa, -, -, -, -, rfl, -, rfl⟩
  · exact hf
  · rcases List.mem_append.mp hf with hf | hf
    · exact List.mem_append_left _ hf
    · exact List.mem_append_right _ (List.mem_cons_of_mem _ hf)

/-- In lists that match member by member, each member has its match. -/
theorem exists_match {α β : Type} {R : α → β → Prop} : ∀ {xs : List α} {ys : List β},
    List.Forall₂ R xs ys → ∀ {x}, x ∈ xs → ∃ y ∈ ys, R x y
  | _, _, .cons h rest, x, hx => by
      rcases List.mem_cons.mp hx with rfl | hx
      · exact ⟨_, List.mem_cons_self, h⟩
      · obtain ⟨y, hy, hR⟩ := exists_match rest hx
        exact ⟨y, List.mem_cons_of_mem _ hy, hR⟩

/-- The declarations define what the rules refer to. -/
theorem provides_of_laid {t : SymbolTable} {order : List Node} {own all : List Fragment}
    (emits : List.Forall₂ (Emits settings g name t) order own)
    (laid : Laid settings g t.defaultNetwork order own all) (mem : ∀ n ∈ g.nodes, n ∈ order) :
    Access.Provides g t (all.flatMap Fragment.defines) := by
  have found : ∀ {n symbol v}, n ∈ g.nodes → t.get? n.id = some symbol →
      (∀ steps, Resource.Declares (scopeOf settings g name t) n symbol steps →
        Fragment.Step.define v ∈ steps) → v ∈ all.flatMap Fragment.defines := by
    intro n symbol v hn hs hv
    obtain ⟨f, hf, hemit⟩ := exists_match emits (mem n hn)
    obtain ⟨symbol', steps, hs', hd, rfl⟩ := Resource.emit_eq_ok_iff.mp hemit
    cases hs.symm.trans hs'
    exact List.mem_flatMap.mpr ⟨_, laid.mem hf, Fragment.mem_defines_build.mpr (hv steps hd)⟩
  exact ⟨fun hn hs => found hn hs fun _ hd => hd.define_var,
    fun hn hc hs => found hn hs fun _ hd => hd.define_group hc,
    fun hn hk hs => found hn hs fun _ hd => hd.define_role hk⟩

theorem parts_of_admitted (h : Admitted settings g name) {order : List Node}
    (horder : Order.order g = .ok order) :
    parts settings g name = (do
      let r ← declare settings g name { scheme := settings.naming } order
      let rules ← Access.fragments settings.services g r.1.table
      .ok ⟨order, r.1.table, r.2, rules⟩) := by
  unfold parts
  rw [checkInput_eq_ok_iff.mpr h, Outcome.ok_bind, horder, Outcome.ok_bind]

/-- What is known of the symbols once all nodes are declared. -/
theorem known_of_declared (wf : g.WellFormed) {t : SymbolTable} {order : List Node}
    {own : List Fragment} (emits : List.Forall₂ (Emits settings g name t) order own)
    (mem : ∀ n ∈ g.nodes, n ∈ order) (typed : ∀ n ∈ g.nodes, n.WellTyped) :
    Access.Known g t := by
  refine ⟨wf, fun n hn => ?_, fun n hn kind => ?_⟩
  · obtain ⟨f, -, hemit⟩ := exists_match emits (mem n hn)
    obtain ⟨symbol, steps, hs, -, -⟩ := Resource.emit_eq_ok_iff.mp hemit
    exact ⟨symbol, hs⟩
  · rcases Resource.Database.engineOf_cases n with ⟨-, engine, -, he⟩ | ⟨hno, -⟩
    · exact ⟨engine, he⟩
    · exact absurd ((typed n hn).engine kind) hno

/-- **On an admitted input two things can go wrong**: a property of a wrong type, which is blamed on
    the first node in the order of declaration that has one, and otherwise an edge for which no port
    is known, which is blamed on the first such edge. -/
theorem parts_outcome (h : Admitted settings g name) :
    ∃ order, Order.order g = .ok order ∧ Order.Arranged g order ∧
      ((∃ p, parts settings g name = .ok p ∧ Compiled settings g name p) ∨
        (∃ n reason, FirstFailing Node.WellTyped order n ∧
          parts settings g name = .error (.unsupported n.id reason)) ∨
        (∀ n ∈ g.nodes, n.WellTyped) ∧ ∃ e reason,
          FirstFailing (Resolvable settings.services g) g.accessEdges e ∧
          parts settings g name = .error (.unresolvable e.id reason)) := by
  have wf := h.wellFormed
  obtain ⟨order, horder, arranged⟩ := Order.exists_order wf
  refine ⟨order, horder, arranged, ?_⟩
  rw [parts_of_admitted h horder]
  have mem : ∀ n, n ∈ order ↔ n ∈ g.nodes := fun n => arranged.perm.mem_iff
  rcases declare_outcome settings name { scheme := settings.naming } (ready_of_arranged arranged)
    (List.forall_mem_nil _) with ⟨typed, last, fs, hrun⟩ | ⟨n, reason, first, hrun⟩
  · have typed : ∀ n ∈ g.nodes, n.WellTyped := fun n hn => typed n ((mem n).mpr hn)
    obtain ⟨own, emits, laid⟩ := declare_laid hrun rfl
    have known := known_of_declared wf emits (fun n hn => (mem n).mpr hn) typed
    rw [hrun, Outcome.ok_bind]
    rcases Access.fragmentsOf_outcome settings.services known [] fun _ he => he with
      ⟨resolvable, rules, hrules, run⟩ | ⟨e, reason, first, hrules⟩
    · have numbered := declare_numbered hrun (Allocator.numbered_empty _)
      refine Or.inl ⟨⟨order, last.table, fs, rules⟩, ?_, h, horder, arranged, typed, resolvable,
        ⟨last, rfl, numbered⟩, ⟨own, emits, laid⟩, run, ?_⟩
      · rw [Access.fragments, hrules]
        rfl
      · -- declarations refer to networks declared before them, rules to what declarations define
        have apart : ∀ n ∈ order, ∀ v, g.parent? n.id = some v → v.id ≠ n.id :=
          fun n hn v hv => parent_ne_self wf ((mem n).mp hn) hv
        refine scoped_append.mpr ⟨(declare_scoped hrun apart ⟨nofun, nofun⟩).1, ?_⟩
        exact scoped_of_forall (run.references
          (provides_of_laid emits laid fun n hn => (mem n).mpr hn))
    · refine Or.inr (Or.inr ⟨typed, e, reason, first, ?_⟩)
      rw [Access.fragments, hrules]
      rfl
  · refine Or.inr (Or.inl ⟨n, reason, first, ?_⟩)
    rw [hrun]
    rfl

theorem compiled_of_parts {p : Parts} (h : parts settings g name = .ok p) :
    Compiled settings g name p := by
  have admitted : Admitted settings g name := by
    obtain ⟨⟨⟩, hc, -⟩ := Outcome.bind_eq_ok.mp h
    exact checkInput_eq_ok_iff.mp hc
  obtain ⟨order, -, -, outcome⟩ := parts_outcome admitted
  rw [h] at outcome
  rcases outcome with ⟨p', e, compiled⟩ | ⟨_, _, -, e⟩ | ⟨-, _, _, -, e⟩
  · cases e
    exact compiled
  · cases e
  · cases e

/-- The runs behind the parts of a diagram. -/
theorem runs_of_parts {p : Parts} (h : parts settings g name = .ok p) :
    ∃ last : Allocator, last.table = p.symbols ∧
      declare settings g name { scheme := settings.naming } p.order = .ok (last, p.declarations) ∧
      Access.fragments settings.services g p.symbols = .ok p.rules := by
  unfold parts at h
  obtain ⟨⟨⟩, -, h⟩ := Outcome.bind_eq_ok.mp h
  obtain ⟨order, -, h⟩ := Outcome.bind_eq_ok.mp h
  obtain ⟨⟨last, declarations⟩, hrun, h⟩ := Outcome.bind_eq_ok.mp h
  obtain ⟨rules, hrules, h⟩ := Outcome.bind_eq_ok.mp h
  cases h
  exact ⟨last, rfl, hrun, hrules⟩

/-- **A stack is what the parts of a diagram make**: putting them together never fails. -/
theorem generateNamed_eq_ok_iff {stack : Stack} :
    generateNamed settings g name = .ok stack ↔ ∃ p, parts settings g name = .ok p ∧
      stack = { assembled settings.stackClass name p.fragments with
        symbols := some p.symbols } := by
  unfold generateNamed
  rw [Outcome.bind_eq_ok]
  constructor
  · rintro ⟨p, hp, h⟩
    obtain ⟨stack', hs, h⟩ := Outcome.bind_eq_ok.mp h
    rw [(assemble_eq_ok_iff.mp hs).2] at h
    exact ⟨p, hp, (Except.ok.inj h).symm⟩
  · rintro ⟨p, hp, rfl⟩
    exact ⟨p, hp, Outcome.bind_eq_ok.mpr
      ⟨_, assemble_eq_ok_iff.mpr ⟨(compiled_of_parts hp).wellScoped, rfl⟩, rfl⟩⟩

theorem generateNamed_error_of_parts {error : CompileError}
    (h : parts settings g name = .error error) : generateNamed settings g name = .error error := by
  unfold generateNamed
  rw [h]
  rfl

/-! ## 3. When a diagram compiles, and what is blamed -/

/-- **A diagram compiles exactly if** its input is admitted, all properties are well typed and a
    port is known for every edge that lets traffic through. If an admitted input does not compile,
    the error names the first node in the order of declaration that is not well typed, or, if there
    is none, the first edge for which no port is known. -/
theorem compiles_iff_and_blames_first (settings : Settings) (g : Graph) (name : String) :
    ((∃ stack, generateNamed settings g name = .ok stack) ↔
      Admitted settings g name ∧ (∀ n ∈ g.nodes, n.WellTyped) ∧
        ∀ e ∈ g.accessEdges, Resolvable settings.services g e) ∧
    (Admitted settings g name → ∀ error, generateNamed settings g name = .error error →
      ∃ order, Order.order g = .ok order ∧ Order.Arranged g order ∧
        ((∃ n reason, FirstFailing Node.WellTyped order n ∧ error = .unsupported n.id reason) ∨
          (∀ n ∈ order, n.WellTyped) ∧ ∃ e reason,
            FirstFailing (Resolvable settings.services g) g.accessEdges e ∧
            error = .unresolvable e.id reason)) := by
  refine ⟨⟨?_, ?_⟩, ?_⟩
  · rintro ⟨stack, h⟩
    obtain ⟨p, hp, -⟩ := generateNamed_eq_ok_iff.mp h
    have compiled := compiled_of_parts hp
    exact ⟨compiled.admitted, compiled.typed, compiled.resolvable⟩
  · rintro ⟨admitted, typed, resolvable⟩
    obtain ⟨order, -, arranged, outcome⟩ := parts_outcome admitted
    rcases outcome with ⟨p, hp, -⟩ | ⟨n, _, first, -⟩ | ⟨-, e, _, first, -⟩
    · exact ⟨_, generateNamed_eq_ok_iff.mpr ⟨p, hp, rfl⟩⟩
    · exact absurd (typed n (arranged.perm.mem_iff.mp first.mem)) first.fails
    · exact absurd (resolvable e first.mem) first.fails
  · intro admitted error h
    obtain ⟨order, horder, arranged, outcome⟩ := parts_outcome admitted
    refine ⟨order, horder, arranged, ?_⟩
    rcases outcome with ⟨p, hp, -⟩ | ⟨n, reason, first, hp⟩ | ⟨typed, e, reason, first, hp⟩
    · rw [generateNamed_eq_ok_iff.mpr ⟨p, hp, rfl⟩] at h
      cases h
    · rw [generateNamed_error_of_parts hp] at h
      exact Or.inl ⟨n, reason, first, (Except.error.inj h).symm⟩
    · rw [generateNamed_error_of_parts hp] at h
      exact Or.inr ⟨fun n hn => typed n (arranged.perm.mem_iff.mp hn), e, reason, first,
        (Except.error.inj h).symm⟩

/-- A shop: a server that anyone may reach and its database, in one network, and a server outside
    any network. -/
def webShop (engine : String) : Graph where
  name := "shop"
  nodes := [⟨"net", .vpc, "Net", []⟩, ⟨"web", .server, "Web", []⟩,
    ⟨"db", .database, "Orders", [("engine", .str engine)]⟩, ⟨"job", .server, "Job", []⟩]
  edges := [⟨"1", "net", "web", .contains⟩, ⟨"2", "net", "db", .contains⟩,
    ⟨"3", "web", "db", .access [] (some "Database")⟩, ⟨"4", "web", "db", .access [3307] none⟩,
    ⟨"5", internet, "web", .access [80, 80] none⟩]

theorem exists_webShop : ∃ stack, generateNamed {} (webShop "MySQL") "shop" = .ok stack :=
  Outcome.exists_of_isOk (by decide)

/-- The shop compiles with a known engine; with an unknown one its database is blamed. -/
theorem webShop_compiles_or_blames_database :
    Admitted {} (webShop "MySQL") "shop" ∧
    generateNamed {} (webShop "oracle") "shop" =
      .error (.unsupported "db" (.engineUnknown "oracle")) ∧
    ∃ order n, Order.order (webShop "oracle") = .ok order ∧ FirstFailing Node.WellTyped order n ∧
      n.id = "db" := by
  have fails : generateNamed {} (webShop "oracle") "shop" =
    .error (.unsupported "db" (.engineUnknown "oracle")) := by decide
  have admitted : Admitted {} (webShop "oracle") "shop" :=
    checkInput_eq_ok_iff.mp (by decide)
  refine ⟨((compiles_iff_and_blames_first {} _ _).1.mp exists_webShop).1, fails, ?_⟩
  obtain ⟨order, ho, -, blamed⟩ :=
    (compiles_iff_and_blames_first {} (webShop "oracle") "shop").2 admitted _ fails
  rcases blamed with ⟨n, reason, first, e⟩ | ⟨-, e, reason, -, e'⟩
  · exact ⟨order, n, ho, first, (CompileError.unsupported.inj e).1.symm⟩
  · cases e'

end InfraDiagram.Stack
