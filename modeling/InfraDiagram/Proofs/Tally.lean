import InfraDiagram.Proofs.WellFormed

/-!
# How often a check says what

A check lists every problem, and for most kinds of problems it can be told without the check how
often it will: `Tallied`. The list is made by passes that each remember what they have met, so a
third node of an id is reported once more, while a third network around a node is not.

Problems are sorted by what they are about (`Problem.topic`), and each pass keeps to a few topics,
so what a whole report says about a topic is said by one or two passes (`about_structureProblems`).
The two passes over ids are one (`repeats`), with and without a reserved id.
-/

namespace InfraDiagram

/-! ## 1. Topics -/

/-- What a problem is about. -/
inductive Topic where
  | emptyId
  | nodeId
  | edgeId
  | ends
  | cycle
  | nesting
  | parents
  /-- An edge that may not let traffic through between its ends. -/
  | connection
  | elsewhere
  deriving DecidableEq, Repr

def Problem.topic : Problem → Topic
  | .emptyId => .emptyId
  | .duplicateNode _ => .nodeId
  | .duplicateEdge _ => .edgeId
  | .danglingEdge _ _ => .ends
  | .containsCycle _ => .cycle
  | .invalidContainment _ _ _ => .nesting
  | .multipleParents _ => .parents
  | .selfConnection _ => .connection
  | .invalidPort _ _ => .connection
  | .notSecurable _ _ => .connection
  | .crossNetwork _ => .connection
  | .uncontained _ => .elsewhere
  | .invalidStackName _ => .elsewhere

/-- What a list of problems says about a topic. -/
def about (t : Topic) (ps : List Problem) : List Problem := ps.filter fun p => p.topic == t

theorem about_append (t : Topic) (ps qs : List Problem) :
    about t (ps ++ qs) = about t ps ++ about t qs := List.filter_append ps qs

theorem count_about (p : Problem) (ps : List Problem) : (about p.topic ps).count p = ps.count p :=
  List.count_filter (beq_self_eq_true p.topic)

/-- How often a problem is listed depends on what is said about its topic. -/
theorem count_of_about {p : Problem} {ps qs : List Problem}
    (h : about p.topic ps = about p.topic qs) : ps.count p = qs.count p := by
  rw [← count_about p ps, h, count_about]

/-- All problems of a list are about some topics. -/
def KeepsTo (ts : List Topic) (ps : List Problem) : Prop := ∀ p ∈ ps, p.topic ∈ ts

theorem KeepsTo.about_eq_nil {ts : List Topic} {ps : List Problem} (h : KeepsTo ts ps) {t : Topic}
    (ht : t ∉ ts) : about t ps = [] := by
  refine List.filter_eq_nil_iff.mpr fun p hp e => ht ?_
  rw [← beq_iff_eq.mp e]
  exact h p hp

theorem KeepsTo.about_eq {ts : List Topic} {ps : List Problem} (h : KeepsTo ts ps) (t : Topic) :
    about t ps = if t ∈ ts then about t ps else [] := by
  split
  · rfl
  · exact h.about_eq_nil ‹_›

theorem KeepsTo.append {ts : List Topic} {ps qs : List Problem} (h : KeepsTo ts ps)
    (h' : KeepsTo ts qs) : KeepsTo ts (ps ++ qs) := List.forall_mem_append.mpr ⟨h, h'⟩

namespace Graph

/-! ## 2. Ids -/

/-- Empty ids, and ids that are reserved or have been met; `dup` reports these. -/
def repeats (dup : String → Problem) (reserved : String → Bool) :
    (seen : List String) → List String → List Problem
  | _, [] => []
  | seen, id :: ids =>
    if id == "" then .emptyId :: repeats dup reserved seen ids
    else if reserved id || seen.contains id then dup id :: repeats dup reserved seen ids
    else repeats dup reserved (id :: seen) ids

theorem nodeIdProblems_eq_repeats : ∀ (seen : List String) (ns : List Node),
    nodeIdProblems seen ns = repeats .duplicateNode (fun id => id == internet) seen (ns.map Node.id)
  | _, [] => rfl
  | seen, n :: ns => by
      rw [nodeIdProblems, List.map_cons, repeats, nodeIdProblems_eq_repeats seen ns,
        nodeIdProblems_eq_repeats (n.id :: seen) ns]

theorem edgeIdProblems_eq_repeats : ∀ (seen : List String) (es : List Edge),
    edgeIdProblems seen es = repeats .duplicateEdge (fun _ => false) seen (es.map Edge.id)
  | _, [] => rfl
  | seen, e :: es => by
      rw [edgeIdProblems, List.map_cons, repeats, edgeIdProblems_eq_repeats seen es,
        edgeIdProblems_eq_repeats (e.id :: seen) es, Bool.false_or]

section Repeats

variable {dup : String → Problem} {reserved : String → Bool}

theorem mem_repeats {p : Problem} : ∀ {seen ids : List String},
    p ∈ repeats dup reserved seen ids → p = .emptyId ∨ ∃ id, p = dup id
  | _, [], h => absurd h List.not_mem_nil
  | seen, id :: ids, h => by
      rw [repeats] at h
      split at h
      · rcases List.mem_cons.mp h with rfl | h
        · exact Or.inl rfl
        · exact mem_repeats h
      · split at h
        · rcases List.mem_cons.mp h with rfl | h
          · exact Or.inr ⟨id, rfl⟩
          · exact mem_repeats h
        · exact mem_repeats h

/-- Every empty id is reported. -/
theorem count_emptyId_repeats (named : ∀ id, dup id ≠ .emptyId) : ∀ (seen ids : List String),
    (repeats dup reserved seen ids).count .emptyId = ids.count ""
  | _, [] => rfl
  | seen, id :: ids => by
      rw [repeats]
      split
      · rename_i blank
        rw [beq_iff_eq.mp blank, List.count_cons_self, List.count_cons_self,
          count_emptyId_repeats named seen ids]
      · rename_i proper
        rw [List.count_cons_of_ne (by simpa using proper)]
        split
        · rw [List.count_cons_of_ne (named id), count_emptyId_repeats named seen ids]
        · exact count_emptyId_repeats named (id :: seen) ids

/-- A reserved id is reported each time, and so is an id that has been met; any other id is reported
    each time but the first. -/
theorem count_repeats (reserved : String → Bool) (named : ∀ id, dup id ≠ .emptyId)
    (inj : ∀ {i j}, dup i = dup j → i = j) {id : String} (proper : id ≠ "")
    (seen ids : List String) :
    (repeats dup reserved seen ids).count (dup id) =
      if reserved id = true ∨ id ∈ seen then ids.count id else ids.count id - 1 := by
  induction ids generalizing seen with
  | nil => simp [repeats]
  | cons x ids ih =>
    rw [repeats]
    split
    · rename_i blank
      have other : x ≠ id := by
        rintro rfl
        exact proper (beq_iff_eq.mp blank)
      rw [List.count_cons_of_ne (fun e => named id e.symm), ih, List.count_cons_of_ne other]
    · by_cases same : x = id
      · -- if it is new it is not reported now, but each time from now on
        rw [same, List.count_cons_self]
        by_cases known : reserved id = true ∨ id ∈ seen
        · have test : (reserved id || seen.contains id) = true := by simpa using known
          rw [if_pos test, List.count_cons_self, ih, if_pos known, if_pos known]
        · have test : ¬ (reserved id || seen.contains id) = true := by simpa using known
          rw [if_neg test, ih, if_neg known, if_pos (Or.inr List.mem_cons_self),
            Nat.add_sub_cancel]
      · rw [List.count_cons_of_ne same]
        split
        · rw [List.count_cons_of_ne (fun e => same (inj e)), ih]
        · have unchanged : id ∈ x :: seen ↔ id ∈ seen := by
            rw [List.mem_cons, or_iff_right (fun e => same e.symm)]
          rw [ih]
          simp only [unchanged]

end Repeats

/-! ## 3. Containment -/

/-- The problem of a containing edge between two nodes of which one may not contain the other. -/
def misnesting? (g : Graph) (e : Edge) : Option Problem :=
  (g.node? e.source).bind fun v => (g.node? e.target).bind fun n =>
    if v.kind.canContain n.kind then none else some (.invalidContainment e.id v.kind n.kind)

/-- Whether an edge leads from a node to a node of an id. -/
def leadsTo (g : Graph) (id : String) (e : Edge) : Bool :=
  g.nodeIds.contains e.source && g.nodeIds.contains e.target && e.target == id

variable {g : Graph}

theorem node?_eq_none {id : String} (h : id ∉ g.nodeIds) : g.node? id = none :=
  List.find?_eq_none.mpr fun n hn e => h (List.mem_map.mpr ⟨n, hn, beq_iff_eq.mp e⟩)

/-- An edge with an end that is no node is passed over; any other may nest wrongly, and may be the
    second one that leads where it leads. -/
theorem nestingProblems_cons (g : Graph) (contained : List String) (e : Edge) (es : List Edge) :
    (e.source ∈ g.nodeIds ∧ e.target ∈ g.nodeIds ∧
      nestingProblems g contained (e :: es) = (misnesting? g e).toList
        ++ (if contained.count e.target = 1 then [.multipleParents e.target] else [])
        ++ nestingProblems g (e.target :: contained) es) ∨
    ((e.source ∉ g.nodeIds ∨ e.target ∉ g.nodeIds) ∧ misnesting? g e = none ∧
      nestingProblems g contained (e :: es) = nestingProblems g contained es) := by
  rw [nestingProblems]
  unfold misnesting?
  by_cases hs : e.source ∈ g.nodeIds
  · obtain ⟨v, hv⟩ := exists_node?_of_mem hs
    by_cases ht : e.target ∈ g.nodeIds
    · obtain ⟨n, hn⟩ := exists_node?_of_mem ht
      refine Or.inl ⟨hs, ht, ?_⟩
      rw [hv, hn]
      simp only [Option.bind_some, (mem_of_node? hn).2, beq_iff_eq]
      split <;> rfl
    · refine Or.inr ⟨Or.inr ht, ?_⟩
      rw [hv, node?_eq_none ht]
      exact ⟨rfl, rfl⟩
  · refine Or.inr ⟨Or.inl hs, ?_⟩
    rw [node?_eq_none hs]
    exact ⟨rfl, rfl⟩

theorem topic_of_misnesting? {e : Edge} {p : Problem} (h : misnesting? g e = some p) :
    p.topic = .nesting := by
  obtain ⟨v, -, h⟩ := Option.bind_eq_some_iff.mp h
  obtain ⟨n, -, h⟩ := Option.bind_eq_some_iff.mp h
  split at h
  · cases h
  · cases h
    rfl

theorem keepsTo_nestingProblems : ∀ (contained : List String) (es : List Edge),
    KeepsTo [.nesting, .parents] (nestingProblems g contained es)
  | _, [] => List.forall_mem_nil _
  | contained, e :: es => by
      rcases nestingProblems_cons g contained e es with ⟨-, -, eq⟩ | ⟨-, -, eq⟩
      · rw [eq]
        refine .append (.append (fun p hp => ?_) (fun p hp => ?_))
          (keepsTo_nestingProblems (e.target :: contained) es)
        · rw [topic_of_misnesting? (Option.mem_toList.mp hp)]
          exact List.mem_cons_self
        · split at hp
          · rw [List.mem_singleton.mp hp]
            exact List.mem_cons_of_mem _ List.mem_cons_self
          · cases hp
      · rw [eq]
        exact keepsTo_nestingProblems contained es

/-- Every edge that nests wrongly is reported, once. -/
theorem about_nesting_nestingProblems : ∀ (contained : List String) (es : List Edge),
    about .nesting (nestingProblems g contained es) = es.filterMap (misnesting? g)
  | _, [] => rfl
  | contained, e :: es => by
      rcases nestingProblems_cons g contained e es with ⟨-, -, eq⟩ | ⟨-, none_wrong, eq⟩
      · have own : about .nesting (misnesting? g e).toList = (misnesting? g e).toList := by
          refine List.filter_eq_self.mpr fun p hp => beq_iff_eq.mpr ?_
          exact topic_of_misnesting? (Option.mem_toList.mp hp)
        have second : about .nesting
            (if contained.count e.target = 1 then [.multipleParents e.target] else []) = [] := by
          split <;> rfl
        rw [eq, about_append, about_append, own, second, List.append_nil,
          about_nesting_nestingProblems (e.target :: contained) es]
        cases h : misnesting? g e with
        | none => rw [List.filterMap_cons_none h]; rfl
        | some p => rw [List.filterMap_cons_some h]; rfl
      · rw [eq, List.filterMap_cons_none none_wrong]
        exact about_nesting_nestingProblems contained es

/-- A node is reported when the second edge that leads to it turns up, and at no other. So far as
    many lead to it as it is in `contained`. -/
theorem count_multipleParents (id : String) : ∀ (contained : List String) (es : List Edge),
    (nestingProblems g contained es).count (.multipleParents id) =
      if contained.count id < 2 ∧ 2 ≤ contained.count id + es.countP (leadsTo g id) then 1 else 0
  | contained, [] => by
      rw [List.countP_nil, if_neg (by omega)]
      rfl
  | contained, e :: es => by
      rcases nestingProblems_cons g contained e es with ⟨hs, ht, eq⟩ | ⟨missing, -, eq⟩
      · have own : (misnesting? g e).toList.count (.multipleParents id) = 0 := by
          refine List.count_eq_zero.mpr fun hm => ?_
          cases topic_of_misnesting? (Option.mem_toList.mp hm)
        have second : List.count (Problem.multipleParents id)
            (if contained.count e.target = 1 then [.multipleParents e.target] else []) =
              if e.target = id ∧ contained.count id = 1 then 1 else 0 := by
          by_cases same : e.target = id
          · rw [same]
            split <;> simp [*]
          · split <;> simp [same]
        have leads : leadsTo g id e = (e.target == id) := by simp [leadsTo, hs, ht]
        rw [eq, List.count_append, List.count_append, own, second,
          count_multipleParents id (e.target :: contained) es, List.countP_cons, leads,
          List.count_cons]
        by_cases same : e.target = id
        · -- the count goes up by one, and the report is made at the step from one to two
          simp only [same, beq_self_eq_true, if_true, true_and]
          split_ifs <;> omega
        · simp only [same, beq_eq_false_iff_ne.mpr same, Bool.false_eq_true, if_false, false_and,
            Nat.zero_add, Nat.add_zero]
      · have apart : leadsTo g id e = false := by
          rcases missing with h | h <;> simp [leadsTo, h]
        rw [eq, count_multipleParents id contained es, List.countP_cons, apart]
        simp only [Bool.false_eq_true, if_false, Nat.add_zero]

theorem keepsTo_containmentProblems (g : Graph) :
    KeepsTo [.cycle, .nesting, .parents] (containmentProblems g) := by
  unfold containmentProblems
  split
  · exact List.forall_mem_singleton.mpr List.mem_cons_self
  · exact fun p hp => List.mem_cons_of_mem _ (keepsTo_nestingProblems [] g.containsEdges p hp)

/-! ## 4. Access -/

theorem endRole_error {e : Edge} {x : String} {p : Problem} (h : endRole g e x = .error p) :
    (p.topic = .ends ∨ p.topic = .connection) ∧ p.element? = some e.id := by
  unfold endRole at h
  split at h
  · cases h
  · split at h
    · cases h
      exact ⟨Or.inl rfl, rfl⟩
    · split at h
      · cases h
      · cases h
      · cases h
      · cases h
        exact ⟨Or.inr rfl, rfl⟩

/-- The problem of an edge that lets traffic through names the edge. -/
theorem checkAccess_error {e : Edge} {p : Problem} (h : checkAccess g e = .error p) :
    (p.topic = .ends ∨ p.topic = .connection) ∧ p.element? = some e.id := by
  unfold checkAccess at h
  split at h
  · cases h
    exact ⟨Or.inr rfl, rfl⟩
  · split at h
    · cases h
      exact ⟨Or.inr rfl, rfl⟩
    · rcases Outcome.bind_eq_error.mp h with h | ⟨a, -, h⟩
      · exact endRole_error h
      · rcases Outcome.bind_eq_error.mp h with h | ⟨b, -, h⟩
        · exact endRole_error h
        · split at h
          · cases h
          · cases h
            exact ⟨Or.inr rfl, rfl⟩

/-- The problem of an edge that lets traffic through, if it has one. -/
def fault? (g : Graph) (e : Edge) : Option Problem :=
  match checkAccess g e with
  | .ok _ => none
  | .error p => some p

theorem accessProblems_eq (g : Graph) (es : List Edge) :
    accessProblems g es = es.filterMap (fault? g) := rfl

theorem of_fault? {e : Edge} {p : Problem} (h : fault? g e = some p) :
    (p.topic = .ends ∨ p.topic = .connection) ∧ p.element? = some e.id := by
  refine checkAccess_error (g := g) ?_
  unfold fault? at h
  split at h
  · cases h
  · rename_i q hq
    rw [hq, Option.some.inj h]

/-- Where each edge has one problem of its own at most, no id is named more often than edges have
    it. -/
theorem countP_filterMap_le {own : Edge → Option Problem}
    (named : ∀ e p, own e = some p → p.element? = some e.id) (id : String) : ∀ es : List Edge,
    (es.filterMap own).countP (fun p => p.element? == some id) ≤ (es.map Edge.id).count id
  | [] => Nat.le_refl 0
  | e :: es => by
      have ih := countP_filterMap_le named id es
      rw [List.map_cons, List.count_cons]
      cases h : own e with
      | none =>
        rw [List.filterMap_cons_none h]
        omega
      | some p =>
        have same : (some e.id == some id) = (e.id == id) := rfl
        rw [List.filterMap_cons_some h, List.countP_cons, named e p h, same]
        omega

/-! ## 5. The whole check -/

theorem keepsTo_nodeIdProblems (g : Graph) :
    KeepsTo [.emptyId, .nodeId] (nodeIdProblems [] g.nodes) := by
  intro p hp
  rw [nodeIdProblems_eq_repeats] at hp
  rcases mem_repeats hp with rfl | ⟨id, rfl⟩
  · decide
  · show Topic.nodeId ∈ _
    decide

theorem keepsTo_edgeIdProblems (g : Graph) :
    KeepsTo [.emptyId, .edgeId] (edgeIdProblems [] g.edges) := by
  intro p hp
  rw [edgeIdProblems_eq_repeats] at hp
  rcases mem_repeats hp with rfl | ⟨id, rfl⟩
  · decide
  · show Topic.edgeId ∈ _
    decide

theorem keepsTo_danglingProblems (g : Graph) :
    KeepsTo [.ends] (g.edges.flatMap (danglingProblems g)) := by
  intro p hp
  obtain ⟨e, -, hp⟩ := List.mem_flatMap.mp hp
  obtain ⟨x, -, rfl⟩ := List.mem_map.mp hp
  exact List.mem_cons_self

theorem keepsTo_accessProblems (g : Graph) :
    KeepsTo [.ends, .connection] (accessProblems g g.accessEdges) := by
  intro p hp
  rw [accessProblems_eq] at hp
  obtain ⟨e, -, h⟩ := List.mem_filterMap.mp hp
  simpa using (of_fault? h).1

/-- **What each pass has to say about a topic.** -/
theorem about_structureProblems (t : Topic) (g : Graph) : about t g.structureProblems =
    (if t ∈ [Topic.emptyId, .nodeId] then about t (nodeIdProblems [] g.nodes) else [])
      ++ (if t ∈ [Topic.emptyId, .edgeId] then about t (edgeIdProblems [] g.edges) else [])
      ++ (if t ∈ [Topic.ends] then about t (g.edges.flatMap (danglingProblems g)) else [])
      ++ (if t ∈ [Topic.cycle, .nesting, .parents] then about t (containmentProblems g) else [])
      ++ (if t ∈ [Topic.ends, .connection] then about t (accessProblems g g.accessEdges)
        else []) := by
  rw [← (keepsTo_nodeIdProblems g).about_eq, ← (keepsTo_edgeIdProblems g).about_eq,
    ← (keepsTo_danglingProblems g).about_eq, ← (keepsTo_containmentProblems g).about_eq,
    ← (keepsTo_accessProblems g).about_eq, ← about_append, ← about_append, ← about_append,
    ← about_append]
  rfl

theorem about_emptyId (g : Graph) : about .emptyId g.structureProblems =
    about .emptyId (nodeIdProblems [] g.nodes ++ edgeIdProblems [] g.edges) := by
  simp [about_structureProblems, about_append]

theorem about_nodeId (g : Graph) :
    about .nodeId g.structureProblems = about .nodeId (nodeIdProblems [] g.nodes) := by
  simp [about_structureProblems]

theorem about_edgeId (g : Graph) :
    about .edgeId g.structureProblems = about .edgeId (edgeIdProblems [] g.edges) := by
  simp [about_structureProblems]

theorem about_containment (g : Graph) {t : Topic} (ht : t ∈ [Topic.cycle, .nesting, .parents]) :
    about t g.structureProblems = about t (containmentProblems g) := by
  revert ht
  cases t <;> simp [about_structureProblems]

theorem about_connection (g : Graph) : about .connection g.structureProblems =
    g.accessEdges.filterMap fun e => (fault? g e).filter fun p => p.topic == .connection := by
  have pass : about .connection g.structureProblems =
      about .connection (accessProblems g g.accessEdges) := by
    simp [about_structureProblems]
  rw [pass, accessProblems_eq]
  exact List.filter_filterMap

/-- **How often problems of a diagram are listed.** -/
structure Tallied (g : Graph) (ps : List Problem) : Prop where
  /-- Every node and every edge without an id is. -/
  empty : ps.count .emptyId = g.nodeIds.count "" + (g.edges.map Edge.id).count ""
  /-- Every node is whose id an earlier one has. -/
  nodes : ∀ id, id ≠ "" → id ≠ internet →
    ps.count (.duplicateNode id) = g.nodeIds.count id - 1
  /-- Every node is that has the reserved id. -/
  reserved : ps.count (.duplicateNode internet) = g.nodeIds.count internet
  /-- Every edge is whose id an earlier one has. -/
  edges : ∀ id, id ≠ "" → ps.count (.duplicateEdge id) = (g.edges.map Edge.id).count id - 1
  /-- Every edge that lets traffic through has one problem of its own at most. -/
  connections : ∃ own : Edge → Option Problem, about .connection ps = g.accessEdges.filterMap own ∧
    ∀ e p, own e = some p → p.element? = some e.id
  named : ∀ id, (about .connection ps).countP (fun p => p.element? == some id) ≤
    (g.accessEdges.map Edge.id).count id
  /-- Without a cycle, every containing edge between nodes that may not be nested is listed, and
      every node once that two or more containing edges between nodes lead to. -/
  nested : g.containsCycle? = none → about .cycle ps = [] ∧
    about .nesting ps = g.containsEdges.filterMap (misnesting? g) ∧
    ∀ id, ps.count (.multipleParents id) =
      if 2 ≤ g.containsEdges.countP (leadsTo g id) then 1 else 0
  /-- A cycle is all that is said of containment. -/
  cyclic : ∀ id, g.containsCycle? = some id → about .cycle ps = [.containsCycle id] ∧
    about .nesting ps = [] ∧ about .parents ps = []

theorem count_duplicateNode (g : Graph) {id : String} (proper : id ≠ "") :
    g.structureProblems.count (.duplicateNode id) =
      if id = internet then g.nodeIds.count id else g.nodeIds.count id - 1 := by
  have pass : g.structureProblems.count (.duplicateNode id) =
      (nodeIdProblems [] g.nodes).count (.duplicateNode id) := count_of_about (about_nodeId g)
  rw [pass, nodeIdProblems_eq_repeats,
    count_repeats _ (fun _ e => by cases e) (fun e => Problem.duplicateNode.inj e) proper]
  simp only [beq_iff_eq, List.not_mem_nil, or_false]
  rfl

theorem count_duplicateEdge (g : Graph) {id : String} (proper : id ≠ "") :
    g.structureProblems.count (.duplicateEdge id) = (g.edges.map Edge.id).count id - 1 := by
  have pass : g.structureProblems.count (.duplicateEdge id) =
      (edgeIdProblems [] g.edges).count (.duplicateEdge id) := count_of_about (about_edgeId g)
  rw [pass, edgeIdProblems_eq_repeats,
    count_repeats _ (fun _ e => by cases e) (fun e => Problem.duplicateEdge.inj e) proper]
  simp

theorem count_emptyId (g : Graph) : g.structureProblems.count .emptyId =
    g.nodeIds.count "" + (g.edges.map Edge.id).count "" := by
  have passes : g.structureProblems.count .emptyId =
      (nodeIdProblems [] g.nodes ++ edgeIdProblems [] g.edges).count .emptyId :=
    count_of_about (about_emptyId g)
  rw [passes, List.count_append, nodeIdProblems_eq_repeats, edgeIdProblems_eq_repeats,
    count_emptyId_repeats (fun _ e => by cases e), count_emptyId_repeats (fun _ e => by cases e)]
  rfl

/-- **A check lists the problems of a diagram as often as they are there.** -/
theorem checkStructure_tallied (g : Graph) : Tallied g g.checkStructure.problems := by
  have own : ∀ e p, ((fault? g e).filter fun p => p.topic == .connection) = some p →
      p.element? = some e.id := fun e p h => (of_fault? (Option.filter_eq_some_iff.mp h).1).2
  show Tallied g g.structureProblems
  refine ⟨count_emptyId g, fun id proper other => ?_, ?_,
    fun id proper => count_duplicateEdge g proper, ⟨_, about_connection g, own⟩, fun id => ?_,
    fun none_found => ?_, fun id found => ?_⟩
  · rw [count_duplicateNode g proper, if_neg other]
  · rw [count_duplicateNode g (by decide), if_pos rfl]
  · rw [about_connection]
    exact countP_filterMap_le own id g.accessEdges
  · have pass : containmentProblems g = nestingProblems g [] g.containsEdges := by
      unfold containmentProblems
      rw [none_found]
    refine ⟨?_, ?_, fun id => ?_⟩
    · rw [about_containment g (by decide), pass]
      exact (keepsTo_nestingProblems [] g.containsEdges).about_eq_nil (by decide)
    · rw [about_containment g (by decide), pass]
      exact about_nesting_nestingProblems [] g.containsEdges
    · have passed : g.structureProblems.count (.multipleParents id) =
          (nestingProblems g [] g.containsEdges).count (.multipleParents id) :=
        count_of_about (pass ▸ about_containment g (t := .parents) (by decide))
      rw [passed, count_multipleParents]
      simp
  · have pass : containmentProblems g = [.containsCycle id] := by
      unfold containmentProblems
      rw [found]
    rw [about_containment g (by decide), about_containment g (by decide),
      about_containment g (by decide), pass]
    exact ⟨rfl, rfl, rfl⟩

end Graph

end InfraDiagram
