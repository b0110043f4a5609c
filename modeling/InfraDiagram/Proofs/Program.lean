import InfraDiagram.Proofs.Compilation
import InfraDiagram.Proofs.DeclarationLines
import InfraDiagram.Proofs.RuleLines

/-!
# What a compiled program contains

The declarations of a compiled diagram are those of its nodes and perhaps that of a default network
(`Compiled.declaration_cases`). Every node has exactly one fragment (`Compiled.fragmentsOf_node`),
and the fragments of edges are those of the rules (`Compiled.edgeFragments_eq`). The lines around
the fragments do not call anything on a variable (`count_programLines`).
-/

namespace InfraDiagram.Stack

open Resource (Declares)
open Text

variable {settings : Settings} {g : Graph} {name : String} {p : Parts}

/-! ## 1. Fragments by origin -/

/-- Whether a fragment was written for an edge. -/
def isEdge : Origin → Bool
  | .edge _ => true
  | _ => false

/-- The fragments of a node. -/
def Parts.fragmentsOf (p : Parts) (n : Node) : List Fragment :=
  p.fragments.filter fun f => f.origin == .node n.id

/-- The fragments of edges, in the order of the program. -/
def Parts.edgeFragments (p : Parts) : List Fragment :=
  p.fragments.filter fun f => isEdge f.origin

/-- The scope in which the nodes of a compiled diagram are declared. -/
abbrev scopeIn (settings : Settings) (g : Graph) (name : String) (p : Parts) : Resource.Scope :=
  scopeOf settings g name p.symbols

theorem origin_emits {t : SymbolTable} {n : Node} {f : Fragment}
    (h : Emits settings g name t n f) : f.origin = .node n.id := by
  obtain ⟨symbol, steps, -, -, rfl⟩ := Resource.emit_eq_ok_iff.mp h
  exact Fragment.origin_build _ _

theorem origin_defaultNetwork (symbol : Symbol) :
    (Resource.defaultNetwork symbol settings).origin = .defaultNetwork :=
  Fragment.origin_build _ _

theorem origin_compiles {services : Catalog} {symbols : SymbolTable} {e : Edge} {r : Access.Rule}
    {grants : Bool} {f : Fragment} (h : Access.Compiles services g symbols e r grants f) :
    f.origin = .edge e.id := by
  obtain ⟨-, -, -, -⟩ := h
  exact Fragment.origin_build _ _

theorem map_origin_emits {t : SymbolTable} {ns : List Node} {own : List Fragment}
    (h : List.Forall₂ (Emits settings g name t) ns own) :
    own.map Fragment.origin = ns.map fun n => .node n.id := by
  induction h with
  | nil => rfl
  | cons hf _ ih => rw [List.map_cons, List.map_cons, origin_emits hf, ih]

/-- Of members with distinct keys one has a given key. -/
theorem filter_key_eq {α κ : Type} [DecidableEq κ] (key : α → κ) : ∀ {xs : List α},
    (xs.map key).Nodup → ∀ {x}, x ∈ xs → xs.filter (fun y => key y == key x) = [x]
  | y :: ys, nodup, x, hx => by
      rw [List.map_cons, List.nodup_cons] at nodup
      rcases List.mem_cons.mp hx with rfl | hx
      · have none : ys.filter (fun z => key z == key x) = [] := by
          refine List.filter_eq_nil_iff.mpr fun z hz hk => nodup.1 ?_
          rw [← beq_iff_eq.mp hk]
          exact List.mem_map_of_mem hz
        rw [List.filter_cons_of_pos (by simp), none]
      · have hne : ¬ (key y == key x) = true := fun hk =>
          nodup.1 (beq_iff_eq.mp hk ▸ List.mem_map_of_mem hx)
        rw [List.filter_cons_of_neg (p := fun z => key z == key x) hne]
        exact filter_key_eq key nodup.2 hx

/-- Fragments laid out with a default network are those of the nodes, when they are looked for. -/
theorem Laid.filter {network? : Option Symbol} {ns : List Node} {own all : List Fragment}
    (h : Laid settings g network? ns own all) {keep : Fragment → Bool}
    (hk : ∀ f : Fragment, f.origin = .defaultNetwork → keep f = false) :
    all.filter keep = own.filter keep := by
  rcases h with ⟨-, -, rfl⟩ | ⟨symbol, before, n, after, fb, f, fa, -, -, -, -, rfl, -, rfl⟩
  · rfl
  · have hd : ¬ keep (Resource.defaultNetwork symbol settings) = true := by
      rw [hk _ (origin_defaultNetwork symbol)]
      exact nofun
    rw [List.filter_append, List.filter_cons_of_neg hd, ← List.filter_append]

/-! ## 2. The fragments of a compiled diagram -/

theorem Compiled.mem_order (c : Compiled settings g name p) {n : Node} :
    n ∈ p.order ↔ n ∈ g.nodes := c.arranged.perm.mem_iff

theorem Compiled.rule_origin (c : Compiled settings g name p) {f : Fragment} (hf : f ∈ p.rules) :
    ∃ e ∈ g.accessEdges, f.origin = .edge e.id := by
  obtain ⟨e, he, r, grants, -, hcomp⟩ := exists_match c.run.forall₂.flip hf
  exact ⟨e, he, origin_compiles hcomp⟩

/-- No two nodes have fragments of one origin. -/
theorem Compiled.nodup_origin_emits (c : Compiled settings g name p) {own : List Fragment}
    (emits : List.Forall₂ (Emits settings g name p.symbols) p.order own) :
    (own.map Fragment.origin).Nodup := by
  rw [map_origin_emits emits]
  have ids : (p.order.map Node.id).Nodup :=
    (c.arranged.perm.map Node.id).nodup_iff.mpr c.admitted.wellFormed.nodesDistinct
  have := ids.map (f := Origin.node) fun _ _ e => Origin.node.inj e
  rwa [List.map_map] at this

/-- **Every node has one fragment**: the one that declares it. -/
theorem Compiled.fragmentsOf_node (c : Compiled settings g name p) {n : Node} (hn : n ∈ g.nodes) :
    ∃ symbol steps, p.symbols.get? n.id = some symbol ∧
      Declares (scopeIn settings g name p) n symbol steps ∧
      p.fragmentsOf n = [Fragment.build (.node n.id) steps] := by
  obtain ⟨own, emits, laid⟩ := c.laid
  obtain ⟨f, hf, hemit⟩ := exists_match emits (c.mem_order.mpr hn)
  obtain ⟨symbol, steps, hs, hd, rfl⟩ := Resource.emit_eq_ok_iff.mp hemit
  refine ⟨symbol, steps, hs, hd, ?_⟩
  have rules : p.rules.filter (fun f => f.origin == .node n.id) = [] := by
    refine List.filter_eq_nil_iff.mpr fun f hf hk => ?_
    obtain ⟨e, -, ho⟩ := c.rule_origin hf
    cases ho.symm.trans (beq_iff_eq.mp hk)
  have key := filter_key_eq Fragment.origin (c.nodup_origin_emits emits) hf
  rw [origin_emits hemit] at key
  rw [Parts.fragmentsOf, Parts.fragments, List.filter_append, rules, List.append_nil,
    laid.filter (by intro f hf; rw [hf]; rfl), key]

/-- A declaration is that of a node or of the default network. -/
theorem Compiled.declaration_cases (c : Compiled settings g name p) {f : Fragment}
    (hf : f ∈ p.declarations) :
    (∃ n ∈ g.nodes, ∃ symbol steps, p.symbols.get? n.id = some symbol ∧
      Declares (scopeIn settings g name p) n symbol steps ∧
      f = Fragment.build (.node n.id) steps) ∨
    ∃ symbol, p.symbols.defaultNetwork = some symbol ∧
      f = Resource.defaultNetwork symbol settings := by
  obtain ⟨own, emits, laid⟩ := c.laid
  have ofOwn : ∀ {f}, f ∈ own → ∃ n ∈ g.nodes, ∃ symbol steps,
      p.symbols.get? n.id = some symbol ∧ Declares (scopeIn settings g name p) n symbol steps ∧
      f = Fragment.build (.node n.id) steps := by
    intro f hf
    obtain ⟨n, hn, hemit⟩ := exists_match emits.flip hf
    exact ⟨n, c.mem_order.mp hn, Resource.emit_eq_ok_iff.mp hemit⟩
  rcases laid with ⟨-, -, e⟩ | ⟨symbol, before, n, after, fb, f', fa, hd, -, -, -, e, -, e'⟩
  · exact Or.inl (ofOwn (e ▸ hf))
  · rw [e', List.mem_append, List.mem_cons] at hf
    rw [e] at ofOwn
    rcases hf with hf | hf | hf
    · exact Or.inl (ofOwn (List.mem_append_left _ hf))
    · exact Or.inr ⟨symbol, hd, hf⟩
    · exact Or.inl (ofOwn (List.mem_append_right _ hf))

/-- **The fragments of edges are those of the rules.** -/
theorem Compiled.edgeFragments_eq (c : Compiled settings g name p) :
    p.edgeFragments = p.rules := by
  have declarations : p.declarations.filter (fun f => isEdge f.origin) = [] := by
    refine List.filter_eq_nil_iff.mpr fun f hf hk => ?_
    rcases c.declaration_cases hf with ⟨n, -, symbol, steps, -, -, rfl⟩ | ⟨symbol, -, rfl⟩
    · rw [Fragment.origin_build] at hk
      cases hk
    · rw [origin_defaultNetwork] at hk
      cases hk
  have rules : p.rules.filter (fun f => isEdge f.origin) = p.rules := by
    refine List.filter_eq_self.mpr fun f hf => ?_
    obtain ⟨e, -, ho⟩ := c.rule_origin hf
    rw [ho]
    rfl
  rw [Parts.edgeFragments, Parts.fragments, List.filter_append, declarations, rules,
    List.nil_append]

theorem Compiled.var (c : Compiled settings g name p) {id : String} {symbol : Symbol}
    (h : p.symbols.get? id = some symbol) : ∃ k, symbol.var = variableName k := by
  obtain ⟨a, ha, numbered⟩ := c.numbered
  exact numbered.var_of_get? (ha ▸ h)

/-- **No line of a declaration is a rule.** -/
theorem Compiled.not_rule (c : Compiled settings g name p) {f : Fragment}
    (hf : f ∈ p.declarations) {t q : String} {j : Nat} (ht : t ∈ f.texts)
    (hq : q ∈ Resource.ruleTails) : ¬ Begins (variableName j ++ q) t := by
  rcases c.declaration_cases hf with ⟨n, -, symbol, steps, hs, hd, rfl⟩ | ⟨symbol, hs, rfl⟩
  · obtain ⟨i, hi⟩ := c.var hs
    exact hd.not_rule hi ht hq
  · obtain ⟨a, ha, numbered⟩ := c.numbered
    obtain ⟨i, hi⟩ := numbered.var_of_network (ha ▸ hs)
    obtain ⟨step, hstep, e⟩ := Fragment.mem_texts_build.mp ht
    exact (Resource.network_plain settings step hstep t e).not_rule hi hq

/-! ## 3. The lines around the fragments -/

/-- What the lines of the program of a compiled diagram say, as they are written. -/
def programTexts (settings : Settings) (name : String) (p : Parts) : List String :=
  (programLines settings.stackClass name p.fragments).map Line.text

theorem map_text_body (fs : List Fragment) :
    (body fs).map Line.text = fs.flatMap Fragment.texts := by
  induction fs with
  | nil => rfl
  | cons f fs ih =>
    have e : (body (f :: fs)).map Line.text = f.texts ++ (body fs).map Line.text := by
      simp [body, Fragment.texts, Function.comp_def]
    rw [e, ih, List.flatMap_cons]

theorem programTexts_eq (settings : Settings) (name : String) (p : Parts) :
    programTexts settings name p =
      (opening settings.stackClass (modulesOf p.fragments)).map Line.text
        ++ p.fragments.flatMap Fragment.texts
        ++ (closing settings.stackClass name).map Line.text := by
  rw [programTexts, programLines, List.map_append, List.map_append, map_text_body]

/-- The lines before the fragments begin with none of the variables. -/
theorem opening_not_begins {className : String} {modules : List Module} {j : Nat} :
    ∀ t ∈ (opening className modules).map Line.text, ¬ Begins (variableName j) t := by
  have alone : ∀ {w : String}, isForeign w = true → ¬ Begins (variableName j) w :=
    fun hw => not_begins_variable hw ⟨"", String.append_empty.symm⟩ j
  have statement : ∀ m : Module, isForeign m.statement = true := by
    intro m
    cases m <;> decide
  simp only [opening, List.map_append, List.map_map, List.map_cons, List.map_nil,
    List.forall_mem_append, List.forall_mem_cons, List.forall_mem_map, Function.comp_apply]
  refine ⟨⟨⟨alone (by decide), alone (by decide), alone (by decide), List.forall_mem_nil _⟩,
    fun m _ => alone (statement m)⟩, ?_, alone (by decide), alone (by decide),
    List.forall_mem_nil _⟩
  exact not_begins_variable (w := "class ") (by decide)
    ((Begins.append _ _).trans (Begins.append _ _)) j

/-- A call of a class is no call on a variable, whatever the class is called. -/
theorem call_not_begins {className rest v : String} (hc : isIdentifier className = true)
    (hv : ∀ c ∈ v.toList, (c.isAlphanum || c == '_') = true) :
    ¬ Begins (v ++ ".") (className ++ ("(" ++ rest)) := by
  rintro ⟨rest', h⟩
  have word := isAlphanum_of_isIdentifier hc
  -- both lines begin with a word; after it stands a dot in the one and a bracket in the other
  have hlist := congrArg (fun t => t.toList.dropWhile fun c => c.isAlphanum || c == '_') h
  simp only [String.toList_append, List.append_assoc] at hlist
  rw [List.dropWhile_append_of_pos word, List.dropWhile_append_of_pos hv] at hlist
  simp at hlist

/-- The lines after the fragments call nothing on the variables of a resource. -/
theorem closing_not_begins {className stackName : String} (hc : isIdentifier className = true)
    (j : Nat) (suffix : String) (hs : ∀ c ∈ suffix.toList, (c.isAlphanum || c == '_') = true) :
    ∀ t ∈ (closing className stackName).map Line.text,
      ¬ Begins (variableName j ++ suffix ++ ".") t := by
  have alone : ∀ {w : String}, isForeign w = true → ¬ Begins (variableName j ++ suffix ++ ".") w :=
    fun hw hb => not_begins_variable hw ⟨"", String.append_empty.symm⟩ j
      (((Begins.append _ _).trans (Begins.append _ _)).trans hb)
  have variable_ : ∀ c ∈ (variableName j ++ suffix).toList, (c.isAlphanum || c == '_') = true := by
    rw [String.toList_append, toList_variableName]
    refine List.forall_mem_append.mpr ⟨List.forall_mem_cons.mpr ⟨by decide, fun c hc => ?_⟩, hs⟩
    simp [Char.isAlphanum, isDigit_of_mem_toDigits c hc]
  have e : "(app, '" = "(" ++ "app, '" := rfl
  simp only [closing, List.map_cons, List.map_nil, List.forall_mem_cons, e, String.append_assoc]
  rw [← String.append_assoc]
  exact ⟨alone (by decide), call_not_begins hc variable_, alone (by decide), List.forall_mem_nil _⟩

/-- **A call on a variable occurs in a program as often as in its fragments.** -/
theorem count_programLines {className stackName : String} (hc : isIdentifier className = true)
    (fs : List Fragment) {t : String} {j : Nat} (ht : Begins (variableName j ++ ".") t) :
    ((programLines className stackName fs).map Line.text).count t =
      (fs.flatMap Fragment.texts).count t := by
  have hj : Begins (variableName j) t := (Begins.append _ _).trans ht
  have before : ((opening className (modulesOf fs)).map Line.text).count t = 0 :=
    List.count_eq_zero.mpr fun hm => opening_not_begins t hm hj
  have after : ((closing className stackName).map Line.text).count t = 0 := by
    refine List.count_eq_zero.mpr fun hm => ?_
    refine closing_not_begins hc j "" (List.forall_mem_nil _) t hm ?_
    rw [String.append_empty]
    exact ht
  rw [programLines, List.map_append, List.map_append, List.count_append, List.count_append, before,
    after, map_text_body, Nat.zero_add, Nat.add_zero]

/-- No line after the fragments is a rule. -/
theorem closing_not_rule {className stackName : String} (hc : isIdentifier className = true)
    {t q : String} {j : Nat} (hq : q ∈ Resource.ruleTails)
    (ht : t ∈ (closing className stackName).map Line.text) : ¬ Begins (variableName j ++ q) t := by
  have call : ∃ suffix rest, q = suffix ++ ("." ++ rest) ∧
      ∀ c ∈ suffix.toList, (c.isAlphanum || c == '_') = true := by
    simp only [Resource.ruleTails, List.mem_cons, List.not_mem_nil, or_false] at hq
    rcases hq with rfl | rfl | rfl
    · exact ⟨"_sg", "add_ingress_rule(", rfl, List.all_eq_true.mp (by decide)⟩
    · exact ⟨"_sg", "connections.allow_from(", rfl, List.all_eq_true.mp (by decide)⟩
    · exact ⟨"", "secret.grant_read(", rfl, List.forall_mem_nil _⟩
  obtain ⟨suffix, rest, rfl, word⟩ := call
  intro hb
  refine closing_not_begins hc j suffix word t ht (Begins.trans ⟨rest, ?_⟩ hb)
  simp only [String.append_assoc]

end InfraDiagram.Stack
