import InfraDiagram.Proofs.CycleSearch
import InfraDiagram.Proofs.Order
import Mathlib.Data.Fintype.Pigeonhole
import Mathlib.Order.WellFounded

/-!
# The order of declaration of any diagram

Nothing is assumed of a diagram here but that containing edges end at nodes; ids may be repeated,
and an edge then means the last node of an id (`Denotes`).

A position is taken exactly if every way back along containment ends (`taken_iff_acc`): what is
taken waited only for what was taken before it, and what is left waits for something that is left.
There are only so many positions, so a way back that never ends runs into a cycle (`exists_cycle`).
Since always the first position is taken that could come next, no order that respects containment is
lexicographically smaller (`Greedy.lex`).
-/

namespace InfraDiagram.Order

open Outcome (FirstFailing)
open Relation (ReflTransGen TransGen)

/-! ## 1. Positions and containment -/

/-- **The position that an id means**: that of the last node of the id. -/
def Denotes (g : Graph) (id : String) (i : Nat) : Prop :=
  (∃ n, g.nodes[i]? = some n ∧ n.id = id) ∧ ∀ j n, g.nodes[j]? = some n → n.id = id → j ≤ i

theorem lastPosition?_eq_none {id : String} : ∀ {ns : List Node},
    id ∉ ns.map Node.id → lastPosition? id ns = none
  | [], _ => rfl
  | n :: ns, h => by
      rw [List.map_cons, List.mem_cons, not_or] at h
      unfold lastPosition?
      rw [lastPosition?_eq_none h.2]
      exact if_neg (by simpa using Ne.symm h.1)

theorem le_of_lastPosition? {id : String} : ∀ {ns : List Node} {i j : Nat} {n : Node},
    lastPosition? id ns = some i → ns[j]? = some n → n.id = id → j ≤ i
  | [], _, _, _, h, _, _ => by cases h
  | m :: ns, i, 0, n, _, _, _ => Nat.zero_le i
  | m :: ns, i, j + 1, n, h, hj, hid => by
      rw [List.getElem?_cons_succ] at hj
      unfold lastPosition? at h
      split at h
      · rename_i k hk
        cases h
        exact Nat.succ_le_succ (le_of_lastPosition? hk hj hid)
      · rename_i hnone
        obtain ⟨k, hk⟩ := exists_lastPosition?
          (List.mem_map.mpr ⟨n, List.mem_of_getElem? hj, hid⟩)
        rw [hk] at hnone
        cases hnone

theorem lastPosition?_eq_some_iff {g : Graph} {id : String} {i : Nat} :
    lastPosition? id g.nodes = some i ↔ Denotes g id i := by
  constructor
  · intro h
    exact ⟨getElem?_of_lastPosition? h, fun j n hj hid => le_of_lastPosition? h hj hid⟩
  · rintro ⟨⟨n, hn, hid⟩, last⟩
    obtain ⟨k, hk⟩ := exists_lastPosition?
      (List.mem_map.mpr ⟨n, List.mem_of_getElem? hn, hid⟩)
    obtain ⟨m, hm, hmid⟩ := getElem?_of_lastPosition? hk
    have := le_of_lastPosition? hk hn hid
    have := last k m hm hmid
    rw [hk, Nat.le_antisymm ‹k ≤ i› ‹i ≤ k›]

/-- A containing edge leads from one position to another. -/
def Leads (g : Graph) (i j : Nat) : Prop :=
  ∃ e ∈ g.containsEdges, Denotes g e.source i ∧ Denotes g e.target j

/-- **An order of all positions in which every parent precedes its children.** -/
structure Linear (g : Graph) (ps : List Nat) : Prop where
  perm : ps.Perm (List.range g.nodes.length)
  precedes : ∀ before i after p, ps = before ++ i :: after → Leads g p i → p ∈ before

/-- A position lies on a cycle of containment, or is reached from one. -/
def Caught (g : Graph) (i : Nat) : Prop :=
  ∃ c, TransGen (Leads g) c c ∧ ReflTransGen (Leads g) c i

/-! ## 2. Ways back -/

section Constraints

variable {pairs : List (Nat × Nat)} {size : Nat}

theorem Greedy.acc {taken : List Nat} (greedy : Greedy pairs size taken) :
    ∀ {i}, i ∈ taken → Acc (fun p i => (p, i) ∈ pairs) i := by
  have all : ∀ before after, taken = before ++ after →
      ∀ i ∈ before, Acc (fun p i => (p, i) ∈ pairs) i := by
    intro before
    induction before using List.reverseRecOn with
    | nil => exact fun _ _ => List.forall_mem_nil _
    | append_singleton before k ih =>
      intro after split i hi
      have split' : taken = before ++ k :: after := by simpa using split
      rcases List.mem_append.mp hi with hi | hi
      · exact ih (k :: after) split' i hi
      · rw [List.mem_singleton.mp hi]
        refine Acc.intro k fun p hp => ?_
        exact ih (k :: after) split' p ((greedy before k after split').1.preceded p hp)
  intro i hi
  exact all taken [] (List.append_nil taken).symm i hi

/-- **A position is taken exactly if every way back from it ends.** -/
theorem taken_iff_acc (within : Within size pairs) {i : Nat} (hi : i < size) :
    i ∈ (settle pairs size).taken ↔ Acc (fun p i => (p, i) ∈ pairs) i := by
  refine ⟨(sound_settle within).greedy.acc, fun acc => ?_⟩
  induction acc with
  | intro i _ ih =>
    by_contra untaken
    -- All that comes before it is taken, so it could come next; but at the end nothing could.
    refine settle_stuck within ⟨hi, untaken, fun p hp => ?_⟩
    exact ih p hp (within _ hp).1

/-- A way back that does not end comes from a cycle, since there are only so many positions. -/
theorem exists_cycle (within : Within size pairs) {i : Nat}
    (h : ¬ Acc (fun p i => (p, i) ∈ pairs) i) :
    ∃ c, TransGen (fun p i => (p, i) ∈ pairs) c c ∧
      ReflTransGen (fun p i => (p, i) ∈ pairs) c i := by
  obtain ⟨f, rfl, back⟩ := not_acc_iff_exists_descending_chain.mp h
  have ways : ∀ n k, TransGen (fun p i => (p, i) ∈ pairs) (f (n + k + 1)) (f n) := by
    intro n k
    induction k with
    | zero => exact .single (back n)
    | succ k ih => exact .head (back (n + k + 1)) ih
  -- The way has more places than there are positions, so it comes back to one of them.
  obtain ⟨a, b, ne, same⟩ := Finite.exists_ne_map_eq_of_infinite
    fun n => (⟨f (n + 1), (within _ (back n)).1⟩ : Fin size)
  have same : f (a + 1) = f (b + 1) := congrArg Fin.val same
  have closes : ∀ {a b}, a < b → f (a + 1) = f (b + 1) →
      TransGen (fun p i => (p, i) ∈ pairs) (f (a + 1)) (f (a + 1)) := by
    intro a b lt same
    have way := ways (a + 1) (b - a - 1)
    rwa [show a + 1 + (b - a - 1) + 1 = b + 1 by omega, ← same] at way
  refine ⟨f (a + 1), ?_, ?_⟩
  · rcases Nat.lt_or_gt_of_ne ne with lt | lt
    · exact closes lt same
    · rw [same]
      exact closes lt same.symm
  · have way := ways 0 a
    rw [Nat.zero_add] at way
    exact way.to_reflTransGen

/-! ## 3. The least order -/

/-- **Taking the first position that could come next gives the lexicographically least order**:
    where another order first differs, it takes a later position that could come next. -/
theorem Greedy.lex : ∀ {rest : List Nat} (before : List Nat) {other : List Nat},
    Greedy pairs size (before ++ rest) → rest.length = other.length →
    (before ++ other).Nodup → (∀ i ∈ before ++ other, i < size) →
    (∀ b i a p, before ++ other = b ++ i :: a → (p, i) ∈ pairs → p ∈ b) →
    other = rest ∨ List.Lex (· < ·) rest other
  | [], _, [], _, _, _, _, _ => Or.inl rfl
  | i :: rest, before, q :: other, greedy, len, distinct, bounded, precedes => by
      by_cases e : q = i
      · subst e
        have shift : ∀ l : List Nat, before ++ q :: l = (before ++ [q]) ++ l := by simp
        rw [shift] at greedy distinct bounded
        have later := Greedy.lex (before ++ [q]) greedy (Nat.succ.inj len) distinct bounded
          (fun b k a p split => precedes b k a p (by rw [shift, split]))
        rcases later with rfl | later
        · exact Or.inl rfl
        · exact Or.inr (.cons later)
      · have untaken : q ∉ before := by
          intro hq
          exact (List.nodup_append.mp distinct).2.2 q hq q List.mem_cons_self rfl
        have free : Free pairs size before q :=
          ⟨bounded q (List.mem_append_right _ List.mem_cons_self), untaken,
            fun p hp => precedes before q other p rfl hp⟩
        have le := (greedy before i rest rfl).2 q free
        exact Or.inr (.rel (by omega))

end Constraints

/-! ## 4. Counting -/

/-- **The counting is safe**: in every state that it comes to, a position that is to be counted off
    has a count above zero, and no position has been taken twice; and it comes to an end. -/
structure CountsSafely (pairs : List (Nat × Nat)) (size : Nat) : Prop where
  positive : ∀ s, Progress.Reaches pairs (.start pairs size) s →
    ∀ i rest, s.pending = i :: rest → ∃ n, s.waits[i]? = some (n + 1)
  once : ∀ s, Progress.Reaches pairs (.start pairs size) s → s.taken.Nodup
  ends : Progress.Reaches pairs (.start pairs size) (settle pairs size) ∧
    (settle pairs size).step pairs = none

theorem countsSafely {pairs : List (Nat × Nat)} {size : Nat} (within : Within size pairs) :
    CountsSafely pairs size where
  positive _ hs _ _ h :=
    ⟨_, ((Progress.start_sound pairs size).reaches within hs).counted h⟩
  once _ hs := ((Progress.start_sound pairs size).reaches within hs).once
  ends := ⟨reaches_settle pairs size, settle_ends within⟩

/-! ## 5. Edges that end nowhere -/

/-- Constraints fail with the first edge that does not end at nodes, and its first such end. -/
theorem constraints_of_missing {g : Graph} : ∀ {es : List Edge}, ¬ g.EndAtNodes es →
    ∃ e endpoint,
      FirstFailing (fun e => e.source ∈ g.nodeIds ∧ e.target ∈ g.nodeIds) es e ∧
      FirstFailing (fun x => x ∈ g.nodeIds) [e.source, e.target] endpoint ∧
      constraints g es = .error (.problem (.danglingEdge e.id endpoint))
  | [], h => absurd (List.forall_mem_nil _) h
  | e :: es, h => by
      have found : ∀ {x}, x ∈ g.nodeIds → ∃ i, position g e x = .ok i := by
        intro x hx
        obtain ⟨i, hi⟩ := exists_lastPosition? hx
        exact ⟨i, by rw [position, hi]⟩
      have missing : ∀ {x}, x ∉ g.nodeIds →
          position g e x = .error (.problem (.danglingEdge e.id x)) := by
        intro x hx
        rw [position, lastPosition?_eq_none hx]
      by_cases hs : e.source ∈ g.nodeIds
      · obtain ⟨a, ha⟩ := found hs
        by_cases ht : e.target ∈ g.nodeIds
        · obtain ⟨b, hb⟩ := found ht
          have rest : ¬ g.EndAtNodes es := fun all => h (List.forall_mem_cons.mpr ⟨⟨hs, ht⟩, all⟩)
          obtain ⟨f, endpoint, first, firstEnd, failed⟩ := constraints_of_missing rest
          refine ⟨f, endpoint, first.cons ⟨hs, ht⟩, firstEnd, ?_⟩
          rw [constraints, ha, Outcome.ok_bind, hb, Outcome.ok_bind, failed]
          rfl
        · refine ⟨e, e.target, .head fun both => ht both.2, (FirstFailing.head ht).cons hs, ?_⟩
          rw [constraints, ha, Outcome.ok_bind, missing ht]
          rfl
      · refine ⟨e, e.source, .head fun both => hs both.1, .head hs, ?_⟩
        rw [constraints, missing hs]
        rfl

/-! ## 6. The order -/

section Ordered

variable {g : Graph} {pairs : List (Nat × Nat)}
  (h : constraints g g.containsEdges = .ok pairs)
  (mem : ∀ q, q ∈ pairs ↔ ∃ e ∈ g.containsEdges, EndsAt g e q)

include mem in
theorem leads_eq : (fun p i => (p, i) ∈ pairs) = Leads g := by
  funext p i
  rw [mem, Leads]
  simp only [EndsAt, lastPosition?_eq_some_iff]

include h mem in
/-- What is left at the end is what is caught. -/
theorem mem_remaining_iff_caught {i : Nat} :
    i ∈ remaining g.nodes.length (settle pairs g.nodes.length).taken ↔ Caught g i := by
  have within := within_of_constraints h
  rw [mem_remaining, Caught, ← leads_eq mem]
  constructor
  · rintro ⟨hi, untaken⟩
    exact exists_cycle within fun acc => untaken ((taken_iff_acc within hi).mpr acc)
  · rintro ⟨c, cycle, way⟩
    have noway : ¬ Acc (fun p i => (p, i) ∈ pairs) i :=
      fun acc => not_transGen_self_of_acc acc way cycle
    have hi : i < g.nodes.length := by
      rcases Relation.ReflTransGen.cases_tail way with rfl | ⟨p, -, last⟩
      · obtain ⟨p, -, last⟩ := Relation.TransGen.tail'_iff.mp cycle
        exact (within _ last).2
      · exact (within _ last).2
    exact ⟨hi, fun taken => noway ((taken_iff_acc within hi).mp taken)⟩

include h mem in
theorem linear_of_all_taken
    (all : remaining g.nodes.length (settle pairs g.nodes.length).taken = []) :
    Linear g (settle pairs g.nodes.length).taken ∧ ∀ qs, Linear g qs →
      qs = (settle pairs g.nodes.length).taken ∨
        List.Lex (· < ·) (settle pairs g.nodes.length).taken qs := by
  have sound := sound_settle (within_of_constraints h)
  have perm := sound.perm
  rw [all, List.append_nil] at perm
  have leads : ∀ {p i}, (p, i) ∈ pairs ↔ Leads g p i := by
    intro p i
    rw [← leads_eq mem]
  refine ⟨⟨perm, fun before i after p split lead => ?_⟩, fun qs linear => ?_⟩
  · exact (sound.greedy before i after split).1.preceded p (leads.mpr lead)
  · refine Greedy.lex [] sound.greedy ?_ ?_ (fun i hi => ?_) fun b i a p split hp => ?_
    · exact perm.length_eq.trans linear.perm.length_eq.symm
    · exact linear.perm.nodup_iff.mpr List.nodup_range
    · exact List.mem_range.mp (linear.perm.mem_iff.mp hi)
    · exact linear.precedes b i a p split (leads.mp hp)

end Ordered

/-- **The order of declaration is exact.** If all containing edges end at nodes: there is an order
    exactly if containment has no cycle; it is then the lexicographically least order of all
    positions in which every parent precedes its children; otherwise the error names the first node
    that lies on a cycle or is reached from one; and the counting is safe, whatever the edges. If
    some containing edge does not end at nodes, the error names the first such edge and the first of
    its ends that is missing. -/
theorem order_exact (g : Graph) :
    (g.EndAtNodes g.containsEdges →
      ((∃ ns, order g = .ok ns) ↔ ∀ i, ¬ TransGen (Leads g) i i) ∧
      (∀ ns, order g = .ok ns → ∃ ps, ns = ps.filterMap (fun i => g.nodes[i]?) ∧ Linear g ps ∧
        ∀ qs, Linear g qs → qs = ps ∨ List.Lex (· < ·) ps qs) ∧
      (∀ error, order g = .error error → ∃ i n, (Caught g i ∧ ∀ j, Caught g j → i ≤ j) ∧
        g.nodes[i]? = some n ∧ error = .cycle n.id) ∧
      ∃ pairs, constraints g g.containsEdges = .ok pairs ∧ CountsSafely pairs g.nodes.length) ∧
    (¬ g.EndAtNodes g.containsEdges → ∃ e endpoint,
      FirstFailing (fun e => e.source ∈ g.nodeIds ∧ e.target ∈ g.nodeIds) g.containsEdges e ∧
      FirstFailing (fun x => x ∈ g.nodeIds) [e.source, e.target] endpoint ∧
      order g = .error (.problem (.danglingEdge e.id endpoint))) := by
  constructor
  · intro ends
    obtain ⟨pairs, h, mem⟩ := exists_constraints ends
    have caught : ∀ i, i ∈ remaining g.nodes.length (settle pairs g.nodes.length).taken ↔
        Caught g i := fun i => mem_remaining_iff_caught h mem
    have safe := countsSafely (within_of_constraints h)
    cases left : remaining g.nodes.length (settle pairs g.nodes.length).taken with
    | nil =>
      rw [order_of_all_taken h left]
      refine ⟨iff_of_true ⟨_, rfl⟩ fun i cycle => ?_, fun ns hns => ?_, by simp, pairs, h, safe⟩
      · have := (caught i).mpr ⟨i, cycle, .refl⟩
        rw [left] at this
        exact absurd this List.not_mem_nil
      · exact ⟨_, (Except.ok.inj hns).symm, linear_of_all_taken h mem left⟩
    | cons i rest =>
      have rising : (i :: rest).Pairwise (· < ·) := left ▸ rising_remaining _ _
      have first : i ∈ remaining g.nodes.length (settle pairs g.nodes.length).taken :=
        left ▸ List.mem_cons_self
      have hn := List.getElem?_eq_getElem (mem_remaining.mp first).1
      rw [order_of_left h left hn]
      refine ⟨iff_of_false (by simp) fun acyclic => ?_, by simp, fun error herror => ?_, pairs, h,
        safe⟩
      · obtain ⟨c, cycle, -⟩ := (caught i).mp first
        exact acyclic c cycle
      · refine ⟨i, _, ⟨(caught i).mp first, fun j hj => ?_⟩, hn, (Except.error.inj herror).symm⟩
        have := (caught j).mpr hj
        rw [left] at this
        rcases List.mem_cons.mp this with rfl | hj
        · exact Nat.le_refl j
        · exact Nat.le_of_lt ((List.pairwise_cons.mp rising).1 j hj)
  · intro missing
    obtain ⟨e, endpoint, first, firstEnd, failed⟩ := constraints_of_missing missing
    refine ⟨e, endpoint, first, firstEnd, ?_⟩
    rw [order, failed]
    rfl

/-- Of two nodes of one id the later is contained twice, beside a cycle that leads to the first
    node. -/
def tangled : Graph where
  name := "tangled"
  nodes := [⟨"job", .server, "Job", []⟩, ⟨"in", .vpc, "In", []⟩, ⟨"out", .vpc, "Out", []⟩,
    ⟨"web", .server, "Web", []⟩, ⟨"web", .server, "Web", []⟩, ⟨"net", .vpc, "Net", []⟩]
  edges := [⟨"1", "net", "web", .contains⟩, ⟨"2", "net", "web", .contains⟩,
    ⟨"3", "in", "out", .contains⟩, ⟨"4", "out", "in", .contains⟩, ⟨"5", "out", "job", .contains⟩]

/-- The node named is not on the cycle, but comes before those that are. -/
theorem tangled_names_first_caught : tangled.EndAtNodes tangled.containsEdges ∧
    ∃ i n, (Caught tangled i ∧ ∀ j, Caught tangled j → i ≤ j) ∧ tangled.nodes[i]? = some n ∧
      n.id = "job" := by
  have ends : tangled.EndAtNodes tangled.containsEdges := by
    unfold Graph.EndAtNodes
    decide
  have failed : order tangled = .error (.cycle "job") := by decide
  obtain ⟨-, -, cyclic, -⟩ := (order_exact tangled).1 ends
  obtain ⟨i, n, caught, hn, named⟩ := cyclic _ failed
  exact ⟨ends, i, n, caught, hn, (CompileError.cycle.inj named).symm⟩

end InfraDiagram.Order
