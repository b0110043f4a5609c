import InfraDiagram.Proofs.Lines
import InfraDiagram.Proofs.Rules

/-!
# Reading rules off a program

Every line of an edge's fragment is a rule for traffic from anywhere, a rule for traffic from a
group, or the grant of a secret (`EdgeLine`). Which of them it is, and on whose behalf it stands,
can be read off how it begins, because no two nodes have the same variable.

So the secret of a database is granted to a server once if some edge leads from the server to the
database, and never otherwise (`Run.count_grantLine`).
-/

namespace InfraDiagram.Access

open Text

/-! ## 1. How the lines begin -/

/-- How a rule on the group of a target begins, for traffic from anywhere. -/
def openingFor (target : Symbol) : String :=
  (target.satellite .securityGroup).var ++ ".add_ingress_rule(ec2.Peer.any_ipv4(), "

/-- How a rule on the group of a target begins, for traffic from the group of a source. -/
def joining (target source : Symbol) : String :=
  (target.satellite .securityGroup).var
    ++ ".connections.allow_from(ec2.Connections(security_groups=["
    ++ (source.satellite .securityGroup).var ++ "]), "

theorem openingFor_begins {target : Symbol} {i : Nat} (hi : target.var = variableName i) :
    Begins (variableName i ++ "_sg.add_ingress_rule(ec2.Peer.any_ipv4(), ")
      (openingFor target) := by
  refine ⟨"", ?_⟩
  have e : "_sg.add_ingress_rule(ec2.Peer.any_ipv4(), " =
    "_sg" ++ ".add_ingress_rule(ec2.Peer.any_ipv4(), " := rfl
  rw [String.append_empty, openingFor, Symbol.satellite, hi, e, ← String.append_assoc]
  rfl

theorem joining_begins {target : Symbol} {i : Nat} (hi : target.var = variableName i)
    (source : Symbol) :
    Begins (variableName i ++ "_sg.connections.allow_from(") (joining target source) := by
  refine ⟨"ec2.Connections(security_groups=["
    ++ ((source.satellite .securityGroup).var ++ "]), "), ?_⟩
  have e : "_sg.connections.allow_from(" = "_sg" ++ ".connections.allow_from(" := rfl
  have e' : ".connections.allow_from(ec2.Connections(security_groups=[" =
    ".connections.allow_from(" ++ "ec2.Connections(security_groups=[" := rfl
  simp only [joining, Symbol.satellite, Satellite.variableSuffix, hi, e, e', String.append_assoc]

theorem grantLine_begins {database : Symbol} {i : Nat} (hi : database.var = variableName i)
    (server : Symbol) :
    Begins (variableName i ++ ".secret.grant_read(") (grantLine database server) := by
  refine ⟨(server.satellite .role).var ++ ")", ?_⟩
  simp only [grantLine, hi, String.append_assoc]

theorem ruleLine_none_begins {services : Catalog} {e : Edge} {target : Symbol} {port : UInt16}
    {i : Nat} (hi : target.var = variableName i) :
    Begins (variableName i ++ "_sg.add_ingress_rule(ec2.Peer.any_ipv4(), ")
      (ruleLine services e target none port) :=
  (openingFor_begins hi).trans ⟨_, rfl⟩

theorem ruleLine_some_begins {services : Catalog} {e : Edge} {target source : Symbol}
    {port : UInt16} {i : Nat} (hi : target.var = variableName i) :
    Begins (variableName i ++ "_sg.connections.allow_from(")
      (ruleLine services e target (some source) port) :=
  (joining_begins hi source).trans ⟨_, rfl⟩

/-- A grant tells the database and the server it is for. -/
theorem grantLine_inj {d d' s s' : Symbol} {i i' j j' : Nat} (hd : d.var = variableName i)
    (hd' : d'.var = variableName i') (hs : s.var = variableName j) (hs' : s'.var = variableName j')
    (h : grantLine d s = grantLine d' s') : d.var = d'.var ∧ s.var = s'.var := by
  have rest : ∀ k,
      beginsOpen (".secret.grant_read(" ++ (variableName k ++ ("_role" ++ ")"))) = true :=
    fun k => beginsOpen_append (by decide) _
  have tail : beginsOpen ("_role" ++ ")") = true := by decide
  simp only [grantLine, Symbol.satellite, Satellite.variableSuffix, hd, hd', hs, hs',
    String.append_assoc] at h
  obtain ⟨hi, h⟩ := variableName_append_inj (rest j) (rest j') h
  have h := (String.append_right_inj _).mp h
  obtain ⟨hj, -⟩ := variableName_append_inj tail tail h
  rw [hd, hd', hs, hs', hi, hj]
  exact ⟨rfl, rfl⟩

/-- A rule is not the grant of a secret. -/
theorem ruleLine_ne_grantLine {services : Catalog} {e : Edge} {target d s : Symbol} {i j : Nat}
    (hi : target.var = variableName i) (hj : d.var = variableName j)
    (source? : Option Symbol) (port : UInt16) :
    ruleLine services e target source? port ≠ grantLine d s := by
  intro h
  have hb := grantLine_begins hj s
  rw [← h] at hb
  cases source? with
  | none =>
    exact absurd (ruleLine_none_begins hi)
      (not_begins_of_apart (by decide) (by decide) (by decide) hb)
  | some source =>
    exact absurd (ruleLine_some_begins hi)
      (not_begins_of_apart (by decide) (by decide) (by decide) hb)

/-! ## 2. What a line is for -/

/-- **The lines of an edge's fragment.** -/
inductive EdgeLine (services : Catalog) (symbols : SymbolTable) (e : Edge) (r : Rule) :
    String → Prop where
  | opened {target : Symbol} {port : UInt16} (ht : symbols.get? r.target.id = some target)
      (hs : r.source = .anywhere) :
      EdgeLine services symbols e r (ruleLine services e target none port)
  | joined {target source : Symbol} {m : Node} {port : UInt16}
      (ht : symbols.get? r.target.id = some target) (hs : r.source = .group m)
      (hm : symbols.get? m.id = some source) :
      EdgeLine services symbols e r (ruleLine services e target (some source) port)
  | granted {target source : Symbol} {m : Node} (ht : symbols.get? r.target.id = some target)
      (hs : r.source = .group m) (hm : symbols.get? m.id = some source) :
      EdgeLine services symbols e r (grantLine target source)

theorem Compiles.edgeLine {services : Catalog} {g : Graph} {symbols : SymbolTable} {e : Edge}
    {r : Rule} {grants : Bool} {f : Fragment} (h : Compiles services g symbols e r grants f)
    {t : String} (ht : t ∈ f.texts) : EdgeLine services symbols e r t := by
  obtain ⟨stands, htarget, hs, ports⟩ := h
  rw [texts_stepsWith, List.mem_append, List.mem_map] at ht
  generalize hr : r.source = source at hs
  cases hs with
  | anywhere =>
    rcases ht with ⟨port, -, rfl⟩ | ht
    · exact .opened htarget hr
    · cases ht
  | group hm =>
    rcases ht with ⟨port, -, rfl⟩ | ht
    · exact .joined htarget hr hm
    · cases grants with
      | false => cases ht
      | true =>
        rw [List.mem_singleton.mp ht]
        exact .granted htarget hr hm

section Numbered

variable {services : Catalog} {a : Allocator} (ha : a.Numbered) {e : Edge} {r : Rule}
include ha

/-- A line that opens the group of a node is a rule on that node, for traffic from anywhere. -/
theorem EdgeLine.of_opening {t : String} (h : EdgeLine services a.table e r t) {n : Node}
    {symbol : Symbol} (hn : a.table.get? n.id = some symbol) (hb : Begins (openingFor symbol) t) :
    r.source = .anywhere ∧ r.target.id = n.id := by
  obtain ⟨i, hi⟩ := ha.var_of_get? hn
  have hb := (openingFor_begins hi).trans hb
  cases h with
  | opened ht hs =>
    obtain ⟨j, hj⟩ := ha.var_of_get? ht
    have hij := (begins_variable_unique (by decide) (by decide) hb (ruleLine_none_begins hj)).1
    exact ⟨hs, (ha.id_of_var_eq hn ht (by rw [hi, hj, hij])).symm⟩
  | joined ht hs hm =>
    obtain ⟨j, hj⟩ := ha.var_of_get? ht
    exact absurd (ruleLine_some_begins hj)
      (not_begins_of_apart (by decide) (by decide) (by decide) hb)
  | granted ht hs hm =>
    obtain ⟨j, hj⟩ := ha.var_of_get? ht
    exact absurd (grantLine_begins hj _)
      (not_begins_of_apart (by decide) (by decide) (by decide) hb)

/-- A line that joins groups is a rule for traffic from the group of its source. -/
theorem EdgeLine.of_joining {t : String} (h : EdgeLine services a.table e r t) {k : Nat}
    (hb : Begins (variableName k ++ "_sg.connections.allow_from(") t) :
    ∃ m target source port, r.source = .group m ∧ a.table.get? r.target.id = some target ∧
      a.table.get? m.id = some source ∧ t = ruleLine services e target (some source) port := by
  cases h with
  | opened ht hs =>
    obtain ⟨j, hj⟩ := ha.var_of_get? ht
    exact absurd (ruleLine_none_begins hj)
      (not_begins_of_apart (by decide) (by decide) (by decide) hb)
  | joined ht hs hm => exact ⟨_, _, _, _, hs, ht, hm, rfl⟩
  | granted ht hs hm =>
    obtain ⟨j, hj⟩ := ha.var_of_get? ht
    exact absurd (grantLine_begins hj _)
      (not_begins_of_apart (by decide) (by decide) (by decide) hb)

end Numbered

/-! ## 3. How often a secret is granted -/

theorem newGrants_cases (granted : List (String × String)) (r : Rule) :
    newGrants granted r = [] ∨ ∃ pair, r.grantPair? = some pair ∧ newGrants granted r = [pair] := by
  unfold newGrants
  cases hp : r.grantPair? with
  | none => exact Or.inl rfl
  | some pair =>
    by_cases h : pair ∈ granted
    · exact Or.inl (by simp [h])
    · exact Or.inr ⟨pair, rfl, by simp [h]⟩

theorem count_newGrants_of_mem {granted : List (String × String)} {r : Rule}
    {pair : String × String} (h : pair ∈ newGrants granted r) :
    (newGrants granted r).count pair = 1 := by
  rcases newGrants_cases granted r with hnew | ⟨pair', -, hnew⟩
  · rw [hnew] at h
    cases h
  · rw [hnew] at h ⊢
    rw [List.mem_singleton.mp h, List.count_singleton_self]

section Counting

variable {services : Catalog} {g : Graph} {a : Allocator} (ha : a.Numbered)
  {server database : Node} {s d : Symbol} (hs : a.table.get? server.id = some s)
  (hd : a.table.get? database.id = some d)
include ha hs hd

/-- Grants are equal exactly if they are for the same server and database. -/
theorem grantLine_eq_iff {m n : Node} {source target : Symbol}
    (hm : a.table.get? m.id = some source) (hn : a.table.get? n.id = some target) :
    grantLine target source = grantLine d s ↔ (m.id, n.id) = (server.id, database.id) := by
  obtain ⟨i, hi⟩ := ha.var_of_get? hn
  obtain ⟨i', hi'⟩ := ha.var_of_get? hd
  obtain ⟨j, hj⟩ := ha.var_of_get? hm
  obtain ⟨j', hj'⟩ := ha.var_of_get? hs
  constructor
  · intro h
    obtain ⟨ht, hsource⟩ := grantLine_inj hi hi' hj hj' h
    rw [ha.id_of_var_eq hm hs hsource, ha.id_of_var_eq hn hd ht]
  · intro h
    obtain ⟨e, e'⟩ := Prod.mk.inj h
    rw [e, hs] at hm
    rw [e', hd] at hn
    cases hm
    cases hn
    rfl

/-- **One edge** grants the secret of a pair if the pair is newly granted with it. -/
theorem Compiles.count_grantLine {granted : List (String × String)} {e : Edge} {r : Rule}
    {f : Fragment} (h : Compiles services g a.table e r (!(newGrants granted r).isEmpty) f) :
    f.texts.count (grantLine d s) = (newGrants granted r).count (server.id, database.id) := by
  obtain @⟨target, source?, ps, stands, ht, hsource, ports⟩ := h
  have noRule : (ps.map (ruleLine services e target source?)).count (grantLine d s) = 0 := by
    obtain ⟨i, hi⟩ := ha.var_of_get? ht
    obtain ⟨j, hj⟩ := ha.var_of_get? hd
    refine List.count_eq_zero.mpr fun hm => ?_
    obtain ⟨port, -, e'⟩ := List.mem_map.mp hm
    exact ruleLine_ne_grantLine hi hj _ port e'
  rw [texts_stepsWith, List.count_append, noRule, Nat.zero_add]
  rcases newGrants_cases granted r with hnew | ⟨pair, hpair, hnew⟩
  · rw [hnew]
    cases source? <;> rfl
  · obtain ⟨m, hm, -, -, rfl⟩ := grantPair?_eq_some hpair
    rw [hm] at hsource
    cases hsource with
    | @group _ symbol hsource =>
      have same : (grantLine target symbol == grantLine d s) =
          ((m.id, r.target.id) == (server.id, database.id)) := by
        rw [Bool.eq_iff_iff, beq_iff_eq, beq_iff_eq]
        exact grantLine_eq_iff ha hs hd hsource ht
      rw [hnew, List.count_singleton, ← same, ← List.count_singleton]
      rfl

/-- A secret that is granted already is not granted again. -/
theorem Run.count_grantLine_of_granted {granted : List (String × String)} {es : List Edge}
    {fs : List Fragment} (run : Run services g a.table granted es fs)
    (h : (server.id, database.id) ∈ granted) :
    (fs.flatMap Fragment.texts).count (grantLine d s) = 0 := by
  induction run with
  | nil => rfl
  | @cons granted e r f es fs hr hf rest ih =>
    have hnew : (server.id, database.id) ∉ newGrants granted r :=
      fun hm => (mem_newGrants.mp hm).2 h
    rw [List.flatMap_cons, List.count_append, hf.count_grantLine ha hs hd,
      List.count_eq_zero.mpr hnew, ih (List.mem_append_right _ h)]

/-- **A run grants a secret once** if some edge asks for it, and otherwise never. -/
theorem Run.count_grantLine {granted : List (String × String)} {es : List Edge}
    {fs : List Fragment} (run : Run services g a.table granted es fs)
    (h : (server.id, database.id) ∉ granted) :
    ((∃ e ∈ es, ∃ r, rule g e = .ok r ∧ r.grantPair? = some (server.id, database.id)) →
      (fs.flatMap Fragment.texts).count (grantLine d s) = 1) ∧
    ((∀ e ∈ es, ∀ r, rule g e = .ok r → r.grantPair? ≠ some (server.id, database.id)) →
      (fs.flatMap Fragment.texts).count (grantLine d s) = 0) := by
  induction run with
  | nil => exact ⟨fun ⟨e, he, _⟩ => absurd he List.not_mem_nil, fun _ => rfl⟩
  | @cons granted e r f es fs hr hf rest ih =>
    rw [List.flatMap_cons, List.count_append, hf.count_grantLine ha hs hd]
    by_cases hnew : (server.id, database.id) ∈ newGrants granted r
    · -- the secret is granted here, and never again
      have hpair := (mem_newGrants.mp hnew).1
      have hrest := rest.count_grantLine_of_granted ha hs hd (List.mem_append_left _ hnew)
      rw [hrest, count_newGrants_of_mem hnew]
      exact ⟨fun _ => rfl, fun hall => absurd hpair (hall e List.mem_cons_self r hr)⟩
    · -- it is not granted here, and this edge does not ask for it
      have hno : r.grantPair? ≠ some (server.id, database.id) :=
        fun hp => hnew (mem_newGrants.mpr ⟨hp, h⟩)
      obtain ⟨one, zero⟩ := ih (by rw [List.mem_append]; exact fun hm => hm.elim hnew h)
      rw [List.count_eq_zero.mpr hnew, Nat.zero_add]
      refine ⟨?_, fun hall => zero fun e' he' => hall e' (List.mem_cons_of_mem _ he')⟩
      rintro ⟨e', he', r', hr', hp⟩
      rcases List.mem_cons.mp he' with rfl | he'
      · cases hr.symm.trans hr'
        exact absurd hp hno
      · exact one ⟨e', he', r', hr', hp⟩

end Counting

/-! ## 4. Which edges ask for a secret -/

/-- **An edge asks for a secret exactly if it leads from the server to the database.** -/
theorem asks_iff {g : Graph} (wf : g.WellFormed) {e : Edge} (he : e ∈ g.accessEdges)
    {server database : Node} (ms : server ∈ g.nodes) (md : database ∈ g.nodes)
    (ks : server.kind = .server) (kd : database.kind = .database) :
    (∃ r, rule g e = .ok r ∧ r.grantPair? = some (server.id, database.id)) ↔
      e.source = server.id ∧ e.target = database.id := by
  constructor
  · rintro ⟨r, hr, hp⟩
    obtain ⟨m, hm, -, -, hpair⟩ := grantPair?_eq_some hp
    obtain ⟨hsid, hdid⟩ := Prod.mk.inj hpair
    obtain ⟨r', hr', stands⟩ := exists_rule wf he
    cases hr.symm.trans hr'
    rw [hm] at stands
    cases stands with
    | between _ _ _ _ hs ht => exact ⟨hs.trans hsid.symm, ht.trans hdid.symm⟩
  · rintro ⟨hs, ht⟩
    have cs : server.isCompute = true := by rw [Node.isCompute, ks]; rfl
    have cd : database.isCompute = true := by rw [Node.isCompute, kd]; rfl
    refine ⟨_, rule_between wf ms md cs cd hs ht, ?_⟩
    simp [Rule.grantPair?, ks, kd]

end InfraDiagram.Access
