import InfraDiagram.Order
import Mathlib.Data.List.Perm.Subperm
import Mathlib.Logic.Relation

/-!
# Working out an order by counting

The count of a position is the number of constraints whose first position has not been taken, and of
those from the position taken last that have not been counted off yet (`Sound.waits`). Everything
else about a run follows from this: what is counted off has a count to be taken from
(`Sound.counted`), what is ready is what could come next, nothing is ready twice, and each position
taken is the first that could come next (`Sound.greedy`). A step either counts off one constraint or
takes one position, so a run ends (`settle_ends`); what is left then is held back by something that
is left too (`settle_stuck`).

`arrange` is the same order said without counts: it looks every time for the first position that
nothing left has to come before (`arrange_eq_settle`).
-/

namespace InfraDiagram.Order

open Relation (ReflTransGen)

variable {pairs : List (Nat × Nat)} {size : Nat}

/-! ## 1. What could come next -/

/-- The positions of all constraints are below a size. -/
def Within (size : Nat) (pairs : List (Nat × Nat)) : Prop := ∀ p ∈ pairs, p.1 < size ∧ p.2 < size

/-- **A position could come next**: it is not taken, and all that has to come before it is. -/
structure Free (pairs : List (Nat × Nat)) (size : Nat) (taken : List Nat) (i : Nat) : Prop where
  lt : i < size
  untaken : i ∉ taken
  preceded : ∀ p, (p, i) ∈ pairs → p ∈ taken

/-- Each position was, when it was taken, the first that could come next. -/
def Greedy (pairs : List (Nat × Nat)) (size : Nat) (taken : List Nat) : Prop :=
  ∀ before i after, taken = before ++ i :: after →
    Free pairs size before i ∧ ∀ j, Free pairs size before j → i ≤ j

theorem greedy_nil : Greedy pairs size [] := by
  intro before i after h
  cases before <;> cases h

theorem Greedy.concat {taken : List Nat} {i : Nat} (h : Greedy pairs size taken)
    (free : Free pairs size taken i) (first : ∀ j, Free pairs size taken j → i ≤ j) :
    Greedy pairs size (taken ++ [i]) := by
  intro before k after e
  rcases List.eq_nil_or_concat after with rfl | ⟨after', z, rfl⟩
  · obtain ⟨rfl, hk⟩ := List.append_inj' e rfl
    cases hk
    exact ⟨free, first⟩
  · have e' : taken ++ [i] = (before ++ k :: after') ++ [z] := by simpa using e
    exact h before k after' (List.append_inj' e' rfl).1

/-- The number of constraints on some positions whose first position is not among those taken. -/
def outstanding (pairs : List (Nat × Nat)) (which : Nat → Bool) (taken : List Nat) : Nat :=
  pairs.countP fun p => which p.2 && decide (p.1 ∉ taken)

theorem outstanding_cons (p : Nat × Nat) (which : Nat → Bool) (taken : List Nat) :
    outstanding (p :: pairs) which taken =
      outstanding pairs which taken + if which p.2 = true ∧ p.1 ∉ taken then 1 else 0 := by
  simp [outstanding, List.countP_cons]

theorem dependents_cons (p : Nat × Nat) (i : Nat) :
    dependents (p :: pairs) i =
      if p.1 = i then p.2 :: dependents pairs i else dependents pairs i := by
  by_cases e : p.1 = i <;> simp [dependents, e]

/-- Taking a position moves its constraints from those outstanding to those to be counted off. -/
theorem outstanding_concat (pairs : List (Nat × Nat)) (which : Nat → Bool) {taken : List Nat}
    {i : Nat} (hi : i ∉ taken) :
    outstanding pairs which (taken ++ [i]) + (dependents pairs i).countP which =
      outstanding pairs which taken := by
  induction pairs with
  | nil => rfl
  | cons p pairs ih =>
    rw [outstanding_cons, outstanding_cons, dependents_cons]
    by_cases e : p.1 = i
    · rw [if_pos e, List.countP_cons]
      simp only [e, List.mem_append, List.mem_singleton, or_true, not_true, and_false, if_false, hi,
        not_false_eq_true, and_true]
      omega
    · rw [if_neg e]
      simp only [List.mem_append, List.mem_singleton, e, or_false]
      omega

/-- The number of constraints that hold a position back. -/
def held (pairs : List (Nat × Nat)) (taken : List Nat) (j : Nat) : Nat :=
  outstanding pairs (fun k => k == j) taken

theorem held_eq_zero_iff {taken : List Nat} {j : Nat} :
    held pairs taken j = 0 ↔ ∀ p, (p, j) ∈ pairs → p ∈ taken := by
  rw [held, outstanding, List.countP_eq_zero]
  constructor
  · intro h p hp
    simpa using h (p, j) hp
  · rintro h ⟨p, k⟩ hp
    by_cases e : k = j
    · subst e
      simp [h p hp]
    · simp [e]

theorem mem_dependents {i j : Nat} : j ∈ dependents pairs i ↔ (i, j) ∈ pairs := by
  unfold dependents
  constructor
  · intro h
    obtain ⟨p, hp, rfl⟩ := List.mem_map.mp h
    obtain ⟨hm, hi⟩ := List.mem_filter.mp hp
    rw [← beq_iff_eq.mp hi]
    exact hm
  · intro h
    exact List.mem_map.mpr ⟨(i, j), List.mem_filter.mpr ⟨h, beq_self_eq_true i⟩, rfl⟩

/-! ## 2. The queue -/

theorem mem_enqueue {i j : Nat} : ∀ {l : List Nat}, j ∈ enqueue i l ↔ j = i ∨ j ∈ l
  | [] => by simp [enqueue]
  | k :: rest => by
      unfold enqueue
      split
      · simp
      · rw [List.mem_cons, mem_enqueue, List.mem_cons]
        exact or_left_comm

theorem rising_enqueue {i : Nat} : ∀ {l : List Nat}, l.Pairwise (· < ·) → i ∉ l →
    (enqueue i l).Pairwise (· < ·)
  | [], _, _ => List.pairwise_singleton _ _
  | k :: rest, h, hi => by
      obtain ⟨hk, hrest⟩ := List.pairwise_cons.mp h
      have ne : i ≠ k := fun e => hi (e ▸ List.mem_cons_self)
      unfold enqueue
      split
      · rename_i hle
        have lt : i < k := by omega
        refine List.pairwise_cons.mpr ⟨fun j hj => ?_, h⟩
        rcases List.mem_cons.mp hj with rfl | hj
        · exact lt
        · exact Nat.lt_trans lt (hk j hj)
      · rename_i hgt
        have away : i ∉ rest := fun hm => hi (List.mem_cons_of_mem _ hm)
        refine List.pairwise_cons.mpr ⟨fun j hj => ?_, rising_enqueue hrest away⟩
        rcases mem_enqueue.mp hj with rfl | hj
        · omega
        · exact hk j hj

/-! ## 3. What a step does -/

namespace Progress

/-- Everything that a step can be: one constraint is counted off, or one position is taken. -/
theorem step_cases {s next : Progress} (h : s.step pairs = some next) :
    (∃ i rest, s.pending = i :: rest ∧ next = { s.release i with pending := rest }) ∨
      ∃ i rest, s.pending = [] ∧ s.ready = i :: rest ∧
        next = { s with
          ready := rest, taken := s.taken ++ [i], pending := dependents pairs i } := by
  unfold step at h
  split at h
  · rename_i i rest hp
    exact Or.inl ⟨i, rest, hp, (Option.some.inj h).symm⟩
  · rename_i hp
    split at h
    · cases h
    · rename_i i rest hr
      exact Or.inr ⟨i, rest, hp, hr, (Option.some.inj h).symm⟩

theorem step_eq_none {s : Progress} (h : s.step pairs = none) : s.pending = [] ∧ s.ready = [] := by
  unfold step at h
  split at h
  · cases h
  · rename_i hp
    split at h
    · rename_i hr
      exact ⟨hp, hr⟩
    · cases h

/-- **What the counts mean**, and what follows for the rest of the state. -/
structure Sound (pairs : List (Nat × Nat)) (size : Nat) (s : Progress) : Prop where
  length : s.waits.length = size
  waits : ∀ j, j < size → s.waits[j]? = some (held pairs s.taken j + s.pending.count j)
  ready : ∀ j, j ∈ s.ready ↔ j < size ∧ j ∉ s.taken ∧ s.waits[j]? = some 0
  rising : s.ready.Pairwise (· < ·)
  pending : ∀ j ∈ s.pending, j < size
  settled : ∀ j ∈ s.taken, s.waits[j]? = some 0
  once : s.taken.Nodup
  greedy : Greedy pairs size s.taken

theorem start_sound (pairs : List (Nat × Nat)) (size : Nat) :
    Sound pairs size (start pairs size) where
  length := by simp [start]
  waits j hj := by simp [start, held, outstanding, hj]
  ready j := by simp [start]
  rising := List.Pairwise.filter _ List.pairwise_lt_range
  pending := List.forall_mem_nil _
  settled := List.forall_mem_nil _
  once := List.nodup_nil
  greedy := greedy_nil

namespace Sound

variable {s next : Progress}

/-- **A position that is counted off has a count to be taken from.** -/
theorem counted (sound : Sound pairs size s) {i : Nat} {rest : List Nat}
    (h : s.pending = i :: rest) :
    s.waits[i]? = some (held pairs s.taken i + rest.count i + 1) := by
  have hi : i < size := sound.pending i (h ▸ List.mem_cons_self)
  rw [sound.waits i hi, h, List.count_cons_self, Nat.add_assoc]

theorem lt_of_taken (sound : Sound pairs size s) {j : Nat} (hj : j ∈ s.taken) : j < size := by
  rw [← sound.length]
  exact (List.getElem?_eq_some_iff.mp (sound.settled j hj)).1

/-- When nothing is pending, what is ready is what could come next. -/
theorem ready_iff_free (sound : Sound pairs size s) (idle : s.pending = []) {j : Nat} :
    j ∈ s.ready ↔ Free pairs size s.taken j := by
  have count : ∀ hj : j < size, s.waits[j]? = some 0 ↔ ∀ p, (p, j) ∈ pairs → p ∈ s.taken := by
    intro hj
    rw [sound.waits j hj, idle, List.count_nil, Nat.add_zero, Option.some.injEq, held_eq_zero_iff]
  rw [sound.ready]
  constructor
  · rintro ⟨hj, hn, hw⟩
    exact ⟨hj, hn, (count hj).mp hw⟩
  · rintro ⟨hj, hn, hp⟩
    exact ⟨hj, hn, (count hj).mpr hp⟩

theorem released (sound : Sound pairs size s) {i : Nat} {rest : List Nat}
    (h : s.pending = i :: rest) : Sound pairs size { s.release i with pending := rest } := by
  have before := sound.counted h
  have hi : i < size := sound.pending i (h ▸ List.mem_cons_self)
  have self : (s.waits.modify i fun n => n - 1)[i]? =
      some (held pairs s.taken i + rest.count i) := by
    rw [List.getElem?_modify_eq, before]
    rfl
  have other : ∀ j, j ≠ i → (s.waits.modify i fun n => n - 1)[j]? = s.waits[j]? := by
    intro j hj
    exact List.getElem?_modify_ne _ _ (Ne.symm hj)
  have untaken : i ∉ s.taken := by
    intro hm
    rw [sound.settled i hm] at before
    cases before
  have unready : i ∉ s.ready := by
    intro hm
    rw [((sound.ready i).mp hm).2.2] at before
    cases before
  refine ⟨?_, fun j hj => ?_, fun j => ?_, ?_, fun j hj => ?_, fun j hj => ?_, sound.once,
    sound.greedy⟩
  · show (s.waits.modify i fun n => n - 1).length = size
    rw [List.length_modify, sound.length]
  · show (s.waits.modify i fun n => n - 1)[j]? = _
    by_cases e : j = i
    · subst e
      exact self
    · rw [other j e, sound.waits j hj, h, List.count_cons_of_ne (Ne.symm e)]
      rfl
  · -- only `i` can have become ready
    show j ∈ (if _ then enqueue i s.ready else s.ready) ↔
      j < size ∧ j ∉ s.taken ∧ (s.waits.modify i fun n => n - 1)[j]? = some 0
    by_cases e : j = i
    · subst e
      by_cases zero : (s.waits.modify j fun n => n - 1)[j]? = some 0
      · rw [if_pos (by simpa using zero), mem_enqueue]
        exact iff_of_true (Or.inl rfl) ⟨hi, untaken, zero⟩
      · rw [if_neg (by simpa using zero)]
        exact iff_of_false unready fun hj => zero hj.2.2
    · rw [other j e, ← sound.ready j]
      split
      · rw [mem_enqueue]
        exact or_iff_right e
      · exact Iff.rfl
  · show List.Pairwise _ (if _ then enqueue i s.ready else s.ready)
    split
    · exact rising_enqueue sound.rising unready
    · exact sound.rising
  · exact sound.pending j (h ▸ List.mem_cons_of_mem i hj)
  · show (s.waits.modify i fun n => n - 1)[j]? = some 0
    rw [other j fun e => untaken (e ▸ hj)]
    exact sound.settled j hj

theorem took (sound : Sound pairs size s) (within : Within size pairs) {i : Nat}
    {rest : List Nat} (idle : s.pending = []) (h : s.ready = i :: rest) :
    Sound pairs size
      { s with ready := rest, taken := s.taken ++ [i], pending := dependents pairs i } := by
  have mem : i ∈ s.ready := h ▸ List.mem_cons_self
  obtain ⟨hi, untaken, zero⟩ := (sound.ready i).mp mem
  have rising : (i :: rest).Pairwise (· < ·) := h ▸ sound.rising
  obtain ⟨above, rising⟩ := List.pairwise_cons.mp rising
  refine ⟨sound.length, fun j hj => ?_, fun j => ?_, rising, fun j hj => ?_, fun j hj => ?_, ?_, ?_⟩
  · show s.waits[j]? = some (held pairs (s.taken ++ [i]) j + (dependents pairs i).count j)
    have moved := outstanding_concat pairs (fun k => k == j) untaken
    rw [sound.waits j hj, idle]
    exact congrArg some moved.symm
  · show j ∈ rest ↔ j < size ∧ j ∉ s.taken ++ [i] ∧ s.waits[j]? = some 0
    have old : j = i ∨ j ∈ rest ↔ j < size ∧ j ∉ s.taken ∧ s.waits[j]? = some 0 := by
      rw [← List.mem_cons, ← h]
      exact sound.ready j
    rw [List.mem_append, List.mem_singleton]
    constructor
    · intro hj
      obtain ⟨hlt, hn, hw⟩ := old.mp (Or.inr hj)
      have ne : j ≠ i := Nat.ne_of_gt (above j hj)
      exact ⟨hlt, fun hm => hm.elim hn ne, hw⟩
    · rintro ⟨hlt, hn, hw⟩
      exact (old.mpr ⟨hlt, fun hm => hn (Or.inl hm), hw⟩).resolve_left fun e => hn (Or.inr e)
  · exact (within _ (mem_dependents.mp hj)).2
  · show s.waits[j]? = some 0
    rcases List.mem_append.mp hj with hj | hj
    · exact sound.settled j hj
    · rw [List.mem_singleton.mp hj]
      exact zero
  · show (s.taken ++ [i]).Nodup
    refine List.nodup_append.mpr ⟨sound.once, List.pairwise_singleton _ i, fun a ha b hb e => ?_⟩
    rw [List.mem_singleton.mp hb] at e
    exact untaken (e ▸ ha)
  · -- the queue is in rising order, so its head is the first that could come next
    refine sound.greedy.concat ((sound.ready_iff_free idle).mp mem) fun j hj => ?_
    have hm := (sound.ready_iff_free idle).mpr hj
    rw [h] at hm
    rcases List.mem_cons.mp hm with rfl | hm
    · exact Nat.le_refl j
    · exact Nat.le_of_lt (above j hm)

/-- **A step keeps the meaning of the counts.** -/
theorem step (sound : Sound pairs size s) (within : Within size pairs)
    (h : s.step pairs = some next) : Sound pairs size next := by
  rcases step_cases h with ⟨i, rest, hp, rfl⟩ | ⟨i, rest, idle, hr, rfl⟩
  · exact sound.released hp
  · exact sound.took within idle hr

end Sound

/-! ## 4. Whole runs -/

/-- A state can be reached from another by steps. -/
abbrev Reaches (pairs : List (Nat × Nat)) : Progress → Progress → Prop :=
  ReflTransGen fun s next => s.step pairs = some next

theorem Sound.reaches {s last : Progress} (sound : Sound pairs size s) (within : Within size pairs)
    (h : Reaches pairs s last) : Sound pairs size last := by
  induction h with
  | refl => exact sound
  | tail _ hstep ih => exact ih.step within hstep

theorem reaches_run (pairs : List (Nat × Nat)) : ∀ (steps : Nat) (s : Progress),
    Reaches pairs s (s.run pairs steps)
  | 0, _ => .refl
  | steps + 1, s => by
      unfold run
      split
      · exact .refl
      · rename_i next h
        exact .head h (reaches_run pairs steps next)

/-- What is left to do: positions to take, and constraints to count off. -/
def toDo (pairs : List (Nat × Nat)) (size : Nat) (s : Progress) : Nat :=
  (size - s.taken.length) + s.pending.length + outstanding pairs (fun _ => true) s.taken

theorem Sound.length_taken_le {s : Progress} (sound : Sound pairs size s) :
    s.taken.length ≤ size := by
  have inside : s.taken ⊆ List.range size := fun j hj => List.mem_range.mpr (sound.lt_of_taken hj)
  simpa using (sound.once.subperm inside).length_le

/-- Every step does one of the things that are left to do. -/
theorem Sound.toDo_step {s next : Progress} (sound : Sound pairs size s)
    (within : Within size pairs) (h : s.step pairs = some next) :
    toDo pairs size next + 1 = toDo pairs size s := by
  have room := (sound.step within h).length_taken_le
  rcases step_cases h with ⟨i, rest, hp, rfl⟩ | ⟨i, rest, idle, hr, rfl⟩
  · show (size - s.taken.length) + rest.length + outstanding pairs _ s.taken + 1 = toDo pairs size s
    rw [toDo, hp, List.length_cons]
    omega
  · have untaken : i ∉ s.taken := ((sound.ready i).mp (hr ▸ List.mem_cons_self)).2.1
    have moved := outstanding_concat pairs (fun _ => true) untaken
    rw [List.countP_true] at moved
    show (size - (s.taken ++ [i]).length) + (dependents pairs i).length +
      outstanding pairs _ (s.taken ++ [i]) + 1 = toDo pairs size s
    rw [toDo, idle, List.length_nil]
    simp only [List.length_append, List.length_singleton] at room ⊢
    omega

/-- A run that may make as many steps as there are things to do ends. -/
theorem Sound.run_ends (within : Within size pairs) : ∀ {steps : Nat} {s : Progress},
    Sound pairs size s → toDo pairs size s ≤ steps → (s.run pairs steps).step pairs = none
  | 0, s, sound, h => by
      show s.step pairs = none
      cases hs : s.step pairs with
      | none => rfl
      | some next =>
        have := sound.toDo_step within hs
        omega
  | steps + 1, s, sound, h => by
      unfold run
      split
      · rename_i hs
        exact hs
      · rename_i next hs
        have := sound.toDo_step within hs
        exact Sound.run_ends within (sound.step within hs) (by omega)

end Progress

open Progress

theorem reaches_settle (pairs : List (Nat × Nat)) (size : Nat) :
    Reaches pairs (start pairs size) (settle pairs size) :=
  reaches_run pairs _ _

theorem sound_settle (within : Within size pairs) : Sound pairs size (settle pairs size) :=
  (start_sound pairs size).reaches within (reaches_settle pairs size)

/-- **The work comes to an end** within the steps that are allowed for it. -/
theorem settle_ends (within : Within size pairs) : (settle pairs size).step pairs = none := by
  refine (start_sound pairs size).run_ends within ?_
  show (size - 0) + 0 + outstanding pairs (fun _ => true) [] ≤ size + pairs.length
  have : outstanding pairs (fun _ => true) [] ≤ pairs.length := List.countP_le_length
  omega

/-- **At the end nothing could come next.** -/
theorem settle_stuck (within : Within size pairs) {j : Nat} :
    ¬ Free pairs size (settle pairs size).taken j := by
  intro free
  obtain ⟨idle, empty⟩ := step_eq_none (settle_ends within)
  have := ((sound_settle within).ready_iff_free idle).mpr free
  rw [empty] at this
  exact absurd this List.not_mem_nil

/-! ## 5. What is left -/

/-- The positions that are not taken, in rising order. -/
def remaining (size : Nat) (taken : List Nat) : List Nat :=
  (List.range size).filter fun j => decide (j ∉ taken)

theorem mem_remaining {taken : List Nat} {j : Nat} :
    j ∈ remaining size taken ↔ j < size ∧ j ∉ taken := by
  simp [remaining]

theorem rising_remaining (size : Nat) (taken : List Nat) :
    (remaining size taken).Pairwise (· < ·) :=
  List.Pairwise.filter _ List.pairwise_lt_range

/-- Every position is taken or left, and only once. -/
theorem Progress.Sound.perm {s : Progress} (sound : Sound pairs size s) :
    (s.taken ++ remaining size s.taken).Perm (List.range size) := by
  have left : (remaining size s.taken).Nodup := List.nodup_range.filter _
  refine (List.perm_ext_iff_of_nodup ?_ List.nodup_range).mpr fun j => ?_
  · refine List.nodup_append.mpr ⟨sound.once, left, fun a ha b hb e => ?_⟩
    exact (mem_remaining.mp hb).2 (e ▸ ha)
  · rw [List.mem_append, mem_remaining, List.mem_range]
    by_cases h : j ∈ s.taken
    · exact iff_of_true (Or.inl h) (sound.lt_of_taken h)
    · simp [h]

/-- At the end the counts above zero are those of the positions left. -/
theorem settle_findIdx? (within : Within size pairs) :
    ((settle pairs size).waits.findIdx? fun n => 0 < n) =
      (remaining size (settle pairs size).taken).head? := by
  have sound := sound_settle within
  obtain ⟨idle, -⟩ := step_eq_none (settle_ends within)
  have counts : ∀ (j : Nat) (hj : j < (settle pairs size).waits.length),
      decide (0 < (settle pairs size).waits[j]) = decide (j ∉ (settle pairs size).taken) := by
    intro j hj
    have hn := List.getElem?_eq_getElem hj
    rw [decide_eq_decide]
    constructor
    · intro pos hm
      rw [sound.settled j hm, Option.some.injEq] at hn
      omega
    · intro hm
      rw [sound.length] at hj
      refine Nat.pos_of_ne_zero fun zero => settle_stuck within ⟨hj, hm, ?_⟩
      rw [zero, sound.waits j hj, idle, List.count_nil, Nat.add_zero, Option.some.injEq] at hn
      exact held_eq_zero_iff.mp hn
  rw [remaining, List.head?_filter]
  refine Option.ext fun i => ?_
  rw [List.find?_range_eq_some, List.findIdx?_eq_some_iff_getElem]
  simp only [counts, sound.length, List.mem_range]
  constructor
  · rintro ⟨hi, left, before⟩
    exact ⟨left, hi, fun j hj => by simpa using before j hj⟩
  · rintro ⟨left, hi, before⟩
    exact ⟨hi, left, fun j hj => by simpa using before j hj⟩

/-! ## 6. The same order without counts -/

/-- Whether nothing that is left has to come before a position. -/
def isReady (pairs : List (Nat × Nat)) (left : List Nat) (i : Nat) : Bool :=
  pairs.all fun p => p.2 != i || !left.contains p.1

/-- Takes, at most so many times, the first position that is ready. Gives the positions taken and
    those left. -/
def arrange (pairs : List (Nat × Nat)) : (rounds : Nat) → (left : List Nat) → List Nat × List Nat
  | 0, left => ([], left)
  | rounds + 1, left =>
    match left.find? (isReady pairs left) with
    | none => ([], left)
    | some i =>
      let (taken, rest) := arrange pairs rounds (left.erase i)
      (i :: taken, rest)

theorem not_mem_of_isReady {left : List Nat} {i p : Nat} (h : isReady pairs left i = true)
    (hp : (p, i) ∈ pairs) : p ∉ left := by
  have := List.all_eq_true.mp h (p, i) hp
  simpa using this

theorem isReady_of_forall {left : List Nat} {i : Nat} (h : ∀ p, (p, i) ∈ pairs → p ∉ left) :
    isReady pairs left i = true := by
  refine List.all_eq_true.mpr fun q hq => ?_
  by_cases e : q.2 = i
  · have : q.1 ∉ left := h q.1 (by rw [← e]; exact hq)
    simp [this]
  · simp [e]

theorem isReady_remaining_iff (within : Within size pairs) {taken : List Nat} {i : Nat}
    (hi : i ∈ remaining size taken) :
    isReady pairs (remaining size taken) i = true ↔ Free pairs size taken i := by
  obtain ⟨hlt, hn⟩ := mem_remaining.mp hi
  constructor
  · intro h
    refine ⟨hlt, hn, fun p hp => Classical.byContradiction fun hm => ?_⟩
    exact not_mem_of_isReady h hp (mem_remaining.mpr ⟨(within _ hp).1, hm⟩)
  · intro h
    exact isReady_of_forall fun p hp hm => (mem_remaining.mp hm).2 (h.preceded p hp)

theorem find?_remaining (within : Within size pairs) {taken : List Nat} {i : Nat}
    (free : Free pairs size taken i) (first : ∀ j, Free pairs size taken j → i ≤ j) :
    (remaining size taken).find? (isReady pairs (remaining size taken)) = some i := by
  have mem := mem_remaining.mpr ⟨free.lt, free.untaken⟩
  have ready := (isReady_remaining_iff within mem).mpr free
  refine (List.find?_eq_some_iff_append).mpr ⟨ready, ?_⟩
  obtain ⟨before, after, split⟩ := List.append_of_mem mem
  refine ⟨before, after, split, fun j hj => ?_⟩
  -- what stands before `i` is smaller, so it could not come next
  have smaller : j < i := by
    have rising := rising_remaining size taken
    rw [split] at rising
    exact (List.pairwise_append.mp rising).2.2 j hj i List.mem_cons_self
  have hj' : j ∈ remaining size taken := by
    rw [split]
    exact List.mem_append_left _ hj
  rw [Bool.not_eq_true', Bool.eq_false_iff]
  intro h
  have := first j ((isReady_remaining_iff within hj').mp h)
  omega

theorem erase_remaining (taken : List Nat) (i : Nat) :
    (remaining size taken).erase i = remaining size (taken ++ [i]) := by
  have left : (remaining size taken).Nodup := List.nodup_range.filter _
  rw [left.erase_eq_filter, remaining, remaining, List.filter_filter]
  refine List.filter_congr fun j _ => ?_
  by_cases e : j = i <;> simp [e]

theorem arrange_of_greedy (within : Within size pairs) : ∀ {rounds : Nat} {before rest : List Nat},
    Greedy pairs size (before ++ rest) → (∀ j, ¬ Free pairs size (before ++ rest) j) →
      rest.length ≤ rounds →
      arrange pairs rounds (remaining size before) = (rest, remaining size (before ++ rest))
  | rounds, before, [], _, stuck, _ => by
      rw [List.append_nil] at stuck ⊢
      have none : (remaining size before).find? (isReady pairs (remaining size before)) = none :=
        List.find?_eq_none.mpr fun j hj h => stuck j ((isReady_remaining_iff within hj).mp h)
      cases rounds with
      | zero => rfl
      | succ rounds => rw [arrange, none]
  | rounds + 1, before, i :: rest, greedy, stuck, hlen => by
      obtain ⟨free, first⟩ := greedy before i rest rfl
      have e : before ++ i :: rest = (before ++ [i]) ++ rest := by simp
      rw [e] at greedy stuck
      rw [arrange, find?_remaining within free first]
      have later := arrange_of_greedy within greedy stuck
        (Nat.le_of_succ_le_succ (List.length_cons ▸ hlen))
      simp only [erase_remaining, later, e]

/-- **Counting gives the order in which the first ready position is taken every time.** -/
theorem arrange_eq_settle (within : Within size pairs) :
    arrange pairs size (List.range size) =
      ((settle pairs size).taken, remaining size (settle pairs size).taken) := by
  have all : remaining size [] = List.range size := by simp [remaining]
  have sound := sound_settle within
  have run : arrange pairs size (remaining size []) =
      ((settle pairs size).taken, remaining size ([] ++ (settle pairs size).taken)) :=
    arrange_of_greedy within sound.greedy (fun _ => settle_stuck within) sound.length_taken_le
  rwa [all] at run

end InfraDiagram.Order
