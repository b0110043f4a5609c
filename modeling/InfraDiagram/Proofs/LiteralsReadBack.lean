import InfraDiagram.Proofs.ProgramScope
import InfraDiagram.Proofs.QuotedLines

/-!
# Texts stay in their literals

`Stack.Embeds` lists, for each fragment of a compiled diagram, the lines that have literals, with
the texts of the diagram and of the settings that stand in them. A line reads back if taking it
apart gives the code and the texts it was made of (`Literal.Layout.ReadsBack`): then no text leaves
its literal, and the line is a single one. All lines read back, but for one: the managed policy is
written as it is, so the line of a policy reads back only if nothing in the policy has a meaning in
a literal (`Quoting.readsBack_iff`).
-/

namespace InfraDiagram

open Literal Reading

/-! ## 1. Lines that read back -/

namespace Literal

/-- **A line that is taken apart into what it was made of**: it ends its literals where their quotes
    stand, and they mean the texts that were put into them, without carriage returns. -/
def Layout.ReadsBack (l : Layout) : Prop := scan? l.written = some l.scan

/-- **Lines with their literals.** The lines that have literals are those of the layouts, in their
    order; all other lines are code. -/
inductive LaysOut : List String → List Layout → Prop where
  | nil : LaysOut [] []
  | code {text : String} {texts : List String} {ls : List Layout} (code : isCode text = true)
      (rest : LaysOut texts ls) : LaysOut (text :: texts) ls
  | literal {l : Layout} {texts : List String} {ls : List Layout} (rest : LaysOut texts ls) :
      LaysOut (l.written :: texts) (l :: ls)

theorem LaysOut.append {xs ys : List String} {ls ms : List Layout} (h : LaysOut xs ls)
    (h' : LaysOut ys ms) : LaysOut (xs ++ ys) (ls ++ ms) := by
  induction h with
  | nil => exact h'
  | code code _ ih => exact .code code ih
  | literal _ ih => exact .literal ih

theorem LaysOut.of_isCode {texts : List String} (h : ∀ t ∈ texts, isCode t = true) :
    LaysOut texts [] := by
  induction texts with
  | nil => exact .nil
  | cons t texts ih =>
    obtain ⟨code, rest⟩ := List.forall_mem_cons.mp h
    exact .code code (ih rest)

theorem LaysOut.flatMap {layouts : Fragment → List Layout} : ∀ {fs : List Fragment},
    (∀ f ∈ fs, LaysOut f.texts (layouts f)) →
    LaysOut (fs.flatMap Fragment.texts) (fs.flatMap layouts)
  | [], _ => .nil
  | f :: fs, h => by
      obtain ⟨first, rest⟩ := List.forall_mem_cons.mp h
      exact first.append (LaysOut.flatMap rest)

theorem LaysOut.mem {texts : List String} {ls : List Layout} (h : LaysOut texts ls) {l : Layout}
    (hl : l ∈ ls) : l.written ∈ texts := by
  induction h with
  | nil => cases hl
  | code _ _ ih => exact List.mem_cons_of_mem _ (ih hl)
  | literal _ ih =>
    rcases List.mem_cons.mp hl with rfl | hl
    · exact List.mem_cons_self
    · exact List.mem_cons_of_mem _ (ih hl)

/-- Lines that read back are single lines. -/
theorem LaysOut.single {texts : List String} {ls : List Layout} (h : LaysOut texts ls)
    (back : ∀ l ∈ ls, l.ReadsBack) : ∀ t ∈ texts, ∀ c ∈ t.toList, isBreak c = false := by
  induction h with
  | nil => exact List.forall_mem_nil _
  | code code _ ih =>
    exact List.forall_mem_cons.mpr ⟨isBreak_of_scan? (scan?_of_isCode code), ih back⟩
  | literal _ ih =>
    obtain ⟨first, rest⟩ := List.forall_mem_cons.mp back
    exact List.forall_mem_cons.mpr ⟨isBreak_of_scan? first, ih rest⟩

end Literal

theorem Fragment.Lays.laysOut {steps : List Step} {ls : List Layout} (h : Lays steps ls)
    (origin : Origin) : LaysOut (build origin steps).texts ls := by
  rw [texts_build]
  induction h with
  | nil => exact .nil
  | line laid _ ih =>
    rw [List.filterMap_cons_some (f := Step.text?) rfl, laid]
    exact .literal ih
  | output laid _ ih =>
    rw [List.filterMap_cons_some (f := Step.text?) rfl, laid]
    exact .literal ih
  | code code _ ih =>
    rw [List.filterMap_cons_some (f := Step.text?) rfl]
    exact .code code ih
  | silent quiet _ ih =>
    rw [List.filterMap_cons_none quiet]
    exact ih

/-! ## 2. What fragments embed -/

theorem Resource.Quotes.mem_policy {s : Scope} {n : Node} {symbol : Symbol} {ls : List Layout}
    (h : Quotes s n symbol ls) (kind : n.kind = .server) : policyLayout symbol s.settings ∈ ls := by
  cases h with
  | server _ read within => simp [Server.layouts]
  | vpc kind' => rw [kind] at kind'; cases kind'
  | database kind' _ _ => rw [kind] at kind'; cases kind'
  | bucket kind' _ => rw [kind] at kind'; cases kind'

namespace Stack

open Resource (Quotes networkLayout policyLayout)
open Access (Source Stands SourceSymbol PortsOf NamesEngine ruleLayout)

variable {settings : Settings} {g : Graph} {name : String} {p : Parts}

/-- **The lines of a fragment that embed texts**, with the texts. -/
inductive Embeds (settings : Settings) (g : Graph) (name : String) (p : Parts) (f : Fragment) :
    List Layout → Prop where
  | node {n : Node} {symbol : Symbol} {ls : List Layout} (mem : n ∈ g.nodes)
      (origin : f.origin = .node n.id) (named : p.symbols.get? n.id = some symbol)
      (quotes : Quotes (scopeIn settings g name p) n symbol ls) : Embeds settings g name p f ls
  | network {symbol : Symbol} (origin : f.origin = .defaultNetwork)
      (named : p.symbols.defaultNetwork = some symbol) :
      Embeds settings g name p f [networkLayout symbol settings]
  | edge {e : Edge} {n : Node} {source : Source} {target : Symbol} {source? : Option Symbol}
      {ps : List UInt16} (mem : e ∈ g.accessEdges) (origin : f.origin = .edge e.id)
      (stands : Stands g e n source) (named : p.symbols.get? n.id = some target)
      (from? : SourceSymbol p.symbols source source?)
      (ports : PortsOf settings.services e n (NamesEngine n) ps) :
      Embeds settings g name p f (ps.map (ruleLayout settings.services e target source?))

/-- The fragment of a server embeds the managed policy. -/
theorem Embeds.mem_policy {f : Fragment} {ls : List Layout} (h : Embeds settings g name p f ls)
    (wf : g.WellFormed) {n : Node} (hn : n ∈ g.nodes) (kind : n.kind = .server)
    (mine : f.origin = .node n.id) :
    ∃ symbol, p.symbols.get? n.id = some symbol ∧ policyLayout symbol settings ∈ ls := by
  cases h with
  | @node m symbol ls hm origin named quotes =>
    have same : m = n := Graph.eq_of_id_eq wf.nodesDistinct hm hn
      (Origin.node.inj (origin.symm.trans mine))
    rw [same] at named quotes
    exact ⟨symbol, named, quotes.mem_policy kind⟩
  | network origin named => cases origin.symm.trans mine
  | edge mem origin stands named from? ports => cases origin.symm.trans mine

/-- The line of the managed policy of a server. -/
def IsPolicy (settings : Settings) (g : Graph) (p : Parts) (l : Layout) : Prop :=
  ∃ n ∈ g.nodes, n.kind = .server ∧ ∃ symbol, p.symbols.get? n.id = some symbol ∧
    l = policyLayout symbol settings

/-- Every fragment embeds texts on the lines where it should, and they read back, but for a managed
    policy. -/
theorem exists_embeds (h : parts settings g name = .ok p) {f : Fragment} (hf : f ∈ p.fragments) :
    ∃ ls, Embeds settings g name p f ls ∧ LaysOut f.texts ls ∧
      ∀ l ∈ ls, l.Sound ∨ IsPolicy settings g p l := by
  have c := compiled_of_parts h
  obtain ⟨ofNode, ofNetwork⟩ := legible_of_parts h
  rcases List.mem_append.mp hf with hf | hf
  · rcases c.declaration_cases hf with ⟨n, hn, symbol, steps, hs, declares, rfl⟩ | ⟨symbol, hs, rfl⟩
    · obtain ⟨ls, quotes, lays⟩ := declares.lays (ofNode hs) (legible_network h n)
      refine ⟨ls, .node hn (Fragment.origin_build _ _) hs quotes, lays.laysOut _, fun l hl => ?_⟩
      refine (quotes.sound (ofNode hs) (legible_network h n) l hl).imp_right ?_
      rintro ⟨kind, e⟩
      exact ⟨n, hn, kind, symbol, hs, e⟩
    · refine ⟨_, .network (origin_defaultNetwork symbol) hs,
        (Resource.network_lays symbol settings).laysOut _, List.forall_mem_singleton.mpr ?_⟩
      exact Or.inl (Resource.networkLayout_sound (ofNetwork hs))
  · obtain ⟨e, he, r, grants, -, compiles⟩ := exists_match c.run.forall₂.flip hf
    obtain ⟨stands, ht, hs, ports⟩ := compiles
    have source := legible_source h hs
    refine ⟨_, .edge he (Fragment.origin_build _ _) stands ht hs ports,
      (Access.stepsWith_lays _ e _ grants (ofNode ht) source).laysOut _, ?_⟩
    refine List.forall_mem_map.mpr fun port _ => Or.inl ?_
    exact Access.ruleLayout_sound _ e port (ofNode ht) source

/-! ## 3. The literals of a program -/

/-- **The lines of a program that have literals**: those of its fragments, each with the texts it
    embeds, and the one that makes the stack. -/
structure Quoting (settings : Settings) (g : Graph) (name : String) (p : Parts) (ls : List Layout) :
    Prop where
  embeds : ∃ layouts, (∀ f ∈ p.fragments, Embeds settings g name p f (layouts f)) ∧
    ls = p.fragments.flatMap layouts ++ [stackLayout settings.stackClass name]
  lines : LaysOut ((programLines settings.stackClass name p.fragments).map Line.text) ls

theorem laysOut_closing (className stackName : String) :
    LaysOut ((closing className stackName).map Line.text) [stackLayout className stackName] := by
  refine .code (isCode_fixed (by decide)) ?_
  show LaysOut ((className ++ "(app, '" ++ stackName ++ "')") :: _) _
  rw [stack_written]
  exact .literal (.code (isCode_fixed (by decide)) .nil)

theorem Admitted.plain_name (h : Admitted settings g name) : isPlainText '\'' name = true := by
  refine List.all_eq_true.mpr fun c hc => isPlain_of_isResourceChar ?_
  rcases h.named.2 c hc with h | rfl | rfl
  · simp [isResourceChar, Text.isNameChar, h]
  · rfl
  · rfl

/-- The literals of a compiled program, all sound but for those of managed policies. -/
theorem exists_quoting (h : parts settings g name = .ok p) :
    ∃ ls, Quoting settings g name p ls ∧ ∀ l ∈ ls, l.Sound ∨ IsPolicy settings g p l := by
  have admitted := (compiled_of_parts h).admitted
  have code := isCode_of_isIdentifier (validate_eq_ok admitted.usable).1
  have all : ∀ f ∈ p.fragments, ∃ ls, Embeds settings g name p f ls ∧ LaysOut f.texts ls ∧
      ∀ l ∈ ls, l.Sound ∨ IsPolicy settings g p l := fun f hf => exists_embeds h hf
  choose! layouts embeds lines sound using all
  refine ⟨p.fragments.flatMap layouts ++ [stackLayout settings.stackClass name],
    ⟨⟨layouts, embeds, rfl⟩, ?_⟩, List.forall_mem_append.mpr ⟨fun l hl => ?_, ?_⟩⟩
  · have before :
        LaysOut ((opening settings.stackClass (modulesOf p.fragments)).map Line.text) [] :=
      LaysOut.of_isCode (List.forall_mem_map.mpr (opening_isCode code _))
    have within : LaysOut ((body p.fragments).map Line.text) (p.fragments.flatMap layouts) := by
      rw [map_text_body]
      exact LaysOut.flatMap lines
    rw [programLines, List.map_append, List.map_append]
    exact (before.append within).append (laysOut_closing _ _)
  · obtain ⟨f, hf, hl⟩ := List.mem_flatMap.mp hl
    exact sound f hf l hl
  · exact List.forall_mem_singleton.mpr (Or.inl (stackLayout_sound code admitted.plain_name))

/-- The policy of a server is among the texts of a program. -/
theorem Quoting.exists_policy (h : parts settings g name = .ok p) {ls : List Layout}
    (quoting : Quoting settings g name p ls) {n : Node} (hn : n ∈ g.nodes)
    (kind : n.kind = .server) :
    ∃ symbol, p.symbols.get? n.id = some symbol ∧ policyLayout symbol settings ∈ ls := by
  have c := compiled_of_parts h
  obtain ⟨own, emits, laid⟩ := c.laid
  obtain ⟨f, hf, hemit⟩ := exists_match emits (c.mem_order.mpr hn)
  have mem : f ∈ p.fragments := List.mem_append_left _ (laid.mem hf)
  obtain ⟨layouts, embeds, rfl⟩ := quoting.embeds
  obtain ⟨symbol, hs, hl⟩ := (embeds f mem).mem_policy c.admitted.wellFormed hn kind
    (origin_emits hemit)
  exact ⟨symbol, hs, List.mem_append_left _ (List.mem_flatMap.mpr ⟨f, mem, hl⟩)⟩

/-- **All literals read back exactly if the managed policy is plain text**, or there are no
    servers. -/
theorem Quoting.readsBack_iff (h : parts settings g name = .ok p) {ls : List Layout}
    (quoting : Quoting settings g name p ls)
    (sound : ∀ l ∈ ls, l.Sound ∨ IsPolicy settings g p l) :
    (∀ l ∈ ls, l.ReadsBack) ↔
      (∀ n ∈ g.nodes, n.kind ≠ .server) ∨ isPlainText '\'' settings.managedPolicy = true := by
  obtain ⟨ofNode, -⟩ := legible_of_parts h
  constructor
  · intro back
    by_cases servers : ∀ n ∈ g.nodes, n.kind ≠ .server
    · exact Or.inl servers
    · push Not at servers
      obtain ⟨n, hn, kind⟩ := servers
      obtain ⟨symbol, hs, mem⟩ := quoting.exists_policy h hn kind
      exact Or.inr (isPlainText_of_scan? (Resource.opens_policyLead (ofNode hs))
        (.fixed (by decide)) (back _ mem))
  · rintro cond l hl
    rcases sound l hl with sound | ⟨n, hn, kind, symbol, hs, rfl⟩
    · exact scan?_written sound
    · rcases cond with none | plain
      · exact absurd kind (none n hn)
      · exact scan?_written (Resource.policyLayout_sound (ofNode hs) plain)

/-- A server with a script. -/
def scripted (text : String) : Graph where
  name := "shop"
  nodes := [⟨"web", .server, "web", [("user_data", .str text)]⟩]
  edges := []

/-- **No text leaves its literal, but for a managed policy.** The lines of a program that have
    literals are those that embed texts, and each of them is taken apart into its code and its
    texts, unless it is that of a managed policy. All of them are, exactly if the policy means itself
    in a literal or there is no server; then every line of the program is a single one. -/
theorem literals_read_back_iff {stack : Stack} (h : generateNamed settings g name = .ok stack) :
    ∃ p ls, parts settings g name = .ok p ∧
      stack.source = program settings.stackClass name p.fragments ∧
      Quoting settings g name p ls ∧ (∀ l ∈ ls, l.ReadsBack ∨ IsPolicy settings g p l) ∧
      ((∀ l ∈ ls, l.ReadsBack) ↔ (∀ n ∈ g.nodes, n.kind ≠ .server) ∨
        isPlainText '\'' settings.managedPolicy = true) ∧
      ((∀ l ∈ ls, l.ReadsBack) → ∀ line ∈ programLines settings.stackClass name p.fragments,
        ∀ c ∈ line.text.toList, isBreak c = false) := by
  obtain ⟨p, hp, rfl⟩ := generateNamed_eq_ok_iff.mp h
  obtain ⟨ls, quoting, sound⟩ := exists_quoting hp
  refine ⟨p, ls, hp, rfl, quoting, fun l hl => (sound l hl).imp_left scan?_written,
    quoting.readsBack_iff hp sound, fun back line hline => ?_⟩
  exact quoting.lines.single back line.text (List.mem_map_of_mem hline)

/-- The literals of a server read back, whatever its script says. -/
theorem scripted_reads_back :
    ∃ p ls, parts {} (scripted "echo 'a'\r\n\\ \"') # b") "shop" = .ok p ∧
      Quoting {} (scripted "echo 'a'\r\n\\ \"') # b") "shop" p ls ∧ (∀ l ∈ ls, l.ReadsBack) ∧
      ∀ line ∈ programLines "CdkWorkshopStack" "shop" p.fragments, ∀ c ∈ line.text.toList,
        isBreak c = false := by
  have plain : isPlainText '\'' ({} : Settings).managedPolicy = true := by decide
  obtain ⟨stack, h⟩ : ∃ stack, generateNamed {} (scripted "echo 'a'\r\n\\ \"') # b") "shop" =
    .ok stack := Outcome.exists_of_isOk (by decide)
  obtain ⟨p, ls, hp, -, quoting, -, iff, single⟩ := literals_read_back_iff h
  have back := iff.mpr (Or.inr plain)
  exact ⟨p, ls, hp, quoting, back, single back⟩

/-- A managed policy with a quote ends its literal early, and the rest of its line is lost. -/
theorem quoted_policy_is_lost :
    ∃ p, parts { managedPolicy := "Read'Only" } (scripted "x") "shop" = .ok p ∧
      ∃ f ∈ p.fragments, ∃ t ∈ f.texts, scan? t = none := by
  have written : (parts { managedPolicy := "Read'Only" } (scripted "x") "shop").map (fun p =>
      p.fragments.any fun f => f.texts.contains ("a2_role.add_managed_policy("
        ++ "iam.ManagedPolicy.from_aws_managed_policy_name('Read'Only'))")) = .ok true := by
    decide
  have lost : scan? ("a2_role.add_managed_policy("
      ++ "iam.ManagedPolicy.from_aws_managed_policy_name('Read'Only'))") = none := by decide +kernel
  obtain ⟨p, hp, found⟩ := Outcome.map_eq_ok.mp written
  obtain ⟨f, hf, ht⟩ := List.any_eq_true.mp found
  exact ⟨p, hp, f, hf, _, List.contains_iff_mem.mp ht, lost⟩

end Stack

end InfraDiagram
