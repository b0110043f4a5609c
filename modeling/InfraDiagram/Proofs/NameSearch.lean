import InfraDiagram.Proofs.Allocation
import InfraDiagram.Proofs.Outcome
import Mathlib.Order.Bounds.Basic

/-!
# A search for a name needs no memory

An allocator counts, for each base, the candidates it has looked at, and a search goes on from
there. Names are taken through other bases too (`a` with 11 is `a1` with 1), so a counter might well
stand past a name that is free. It never does: every candidate below a counter is blocked
(`Remembers`), since a name that was taken stays taken and a name that was found was taken at once.
So a search finds the least ordinal that is free, as it would without counters.

The loop is told without a bound on its rounds (`Looks`), for counters of any kind: numbers, or
words of 32 bits. Both kinds take the same rounds as long as no word wraps around.
-/

namespace InfraDiagram.Allocator

/-! ## 1. Ordinals -/

/-- The ordinal of the first candidate. -/
def firstOrdinal : NamingScheme → Nat
  | .counted => 1
  | .bare => 0

/-- A base with an ordinal after it; the ordinal 0 is not written. -/
def ordinalName (base : String) (ordinal : Nat) : String :=
  if ordinal = 0 then base else base ++ toString ordinal

theorem candidate_eq_ordinalName (scheme : NamingScheme) (base : String) (k : Nat) :
    candidate scheme base k = ordinalName base (firstOrdinal scheme + k) := by
  cases scheme with
  | counted =>
    rw [firstOrdinal, Nat.add_comm, ordinalName, if_neg (Nat.succ_ne_zero k)]
    rfl
  | bare =>
    rw [firstOrdinal, Nat.zero_add]
    rfl

/-- The ordinals that may be given out: neither the name nor that of a satellite is taken. -/
def freeOrdinals (scheme : NamingScheme) (taken : List String) (base : String) : Set Nat :=
  {k | firstOrdinal scheme ≤ k ∧ ∀ name ∈ family (ordinalName base k), name ∉ taken}

/-- The first of all candidates for a base that is free. -/
structure FirstFree (scheme : NamingScheme) (taken : List String) (base : String) (m : Nat) :
    Prop where
  free : isFree taken (candidate scheme base m) = true
  blocked : ∀ i < m, isFree taken (candidate scheme base i) = false

variable {scheme : NamingScheme} {taken : List String} {base : String} {m : Nat}

/-- The first candidate that is free has the least ordinal that is free. -/
theorem FirstFree.isLeast (first : FirstFree scheme taken base m) :
    IsLeast (freeOrdinals scheme taken base) (firstOrdinal scheme + m) := by
  refine ⟨⟨Nat.le_add_right _ _, ?_⟩, fun k hk => ?_⟩
  · rw [← candidate_eq_ordinalName]
    exact isFree_iff.mp first.free
  · obtain ⟨i, rfl⟩ := Nat.exists_eq_add_of_le hk.1
    by_contra later
    have early := first.blocked i (by omega)
    rw [candidate_eq_ordinalName, isFree_iff.mpr hk.2] at early
    cases early

/-- One candidate is the first that is free, and no more are before it than names can block. -/
theorem exists_firstFree (scheme : NamingScheme) (taken : List String) (base : String) :
    ∃ m, m ≤ 2 * taken.length ∧ FirstFree scheme taken base m := by
  obtain ⟨i, hi, free⟩ := exists_free scheme taken base 0
  rw [Nat.zero_add] at free
  have some_free : ∃ m, isFree taken (candidate scheme base m) = true := ⟨i, free⟩
  refine ⟨Nat.find some_free, (Nat.find_min' some_free free).trans hi, Nat.find_spec some_free,
    fun j hj => ?_⟩
  exact Bool.eq_false_iff.mpr (Nat.find_min some_free hj)

/-! ## 2. The loop -/

/-- **The loop that looks for a name**: from a counter it ends after so many rounds, with the name
    it found and the counter behind it. In a round it looks at the name the counter stands at, and
    moves the counter on. -/
inductive Looks {κ : Type} (next : κ → κ) (name : κ → String) (taken : List String) :
    (counter : κ) → (rounds : Nat) → (found : String) → (behind : κ) → Prop where
  | found {k : κ} (free : isFree taken (name k) = true) :
      Looks next name taken k 1 (name k) (next k)
  | again {k behind : κ} {rounds : Nat} {found : String} (blocked : isFree taken (name k) = false)
      (rest : Looks next name taken (next k) rounds found behind) :
      Looks next name taken k (rounds + 1) found behind

/-- A loop goes through what is blocked and ends at what is free. Its counter takes the values
    `value k`, `value (k + 1)`, …. -/
theorem Looks.upTo {κ : Type} {next : κ → κ} {name : κ → String} (value : Nat → κ)
    (moves : ∀ i, next (value i) = value (i + 1)) {k : Nat} (hk : k ≤ m)
    (free : isFree taken (name (value m)) = true)
    (blocked : ∀ i, k ≤ i → i < m → isFree taken (name (value i)) = false) :
    Looks next name taken (value k) (m - k + 1) (name (value m)) (value (m + 1)) := by
  induction hk using Nat.decreasingInduction with
  | self =>
    rw [Nat.sub_self, ← moves m]
    exact .found free
  | of_succ k hk ih =>
    -- one round more than from the next value on
    have rest := ih fun i hi => blocked i (Nat.le_of_succ_le hi)
    rw [show m - k + 1 = m - (k + 1) + 1 + 1 by omega]
    refine .again (blocked k (Nat.le_refl k) hk) ?_
    rw [moves]
    exact rest

/-- A search that is allowed enough rounds ends there too. -/
theorem FirstFree.search_eq (first : FirstFree scheme taken base m) : ∀ {rounds k : Nat},
    k ≤ m → m ≤ k + rounds →
    search scheme taken base rounds k = (candidate scheme base m, m + 1)
  | 0, k, hk, enough => by
      rw [Nat.le_antisymm enough hk]
      rfl
  | rounds + 1, k, hk, enough => by
      rw [search]
      rcases Nat.lt_or_eq_of_le hk with hlt | rfl
      · simp only [first.blocked k hlt, Bool.false_eq_true, if_false]
        exact first.search_eq hlt (by omega)
      · exact if_pos first.free

/-! ## 3. Counters of 32 bits -/

/-- The candidate at which a counter of 32 bits stands. -/
def wordCandidate (scheme : NamingScheme) (base : String) (k : UInt32) : String :=
  match scheme with
  | .counted => base ++ toString (k + 1).toNat
  | .bare => if k = 0 then base else base ++ toString k.toNat

theorem ofNat_succ (k : Nat) : UInt32.ofNat k + 1 = UInt32.ofNat (k + 1) := by
  rw [UInt32.ofNat_add]
  rfl

/-- As long as the counter does not wrap around, its size makes no difference. -/
theorem wordCandidate_ofNat {k : Nat} (h : k + 1 < UInt32.size) :
    wordCandidate scheme base (UInt32.ofNat k) = candidate scheme base k := by
  cases scheme with
  | counted =>
    show base ++ toString (UInt32.ofNat k + 1).toNat = base ++ toString (k + 1)
    rw [ofNat_succ, UInt32.toNat_ofNat_of_lt' h]
  | bare =>
    have same : (UInt32.ofNat k).toNat = k := UInt32.toNat_ofNat_of_lt' (Nat.lt_of_succ_lt h)
    have zero : UInt32.ofNat k = 0 ↔ k = 0 := by
      rw [← UInt32.toNat_inj, same]
      rfl
    show (if UInt32.ofNat k = 0 then base else base ++ toString (UInt32.ofNat k).toNat) =
      if k = 0 then base else base ++ toString k
    rw [same]
    simp only [zero]

/-! ## 4. What counters remember -/

/-- **The invariant of a run**: the names taken are listed once each, and no counter stands past a
    candidate that is free. -/
structure Remembers (a : Allocator) : Prop where
  taken : a.taken.Nodup
  blocked : ∀ base, ∀ k < a.counter base, isFree a.taken (candidate a.scheme base k) = false

theorem remembers_empty (scheme : NamingScheme) : Remembers { scheme } :=
  ⟨List.nodup_nil, fun _ k hk => absurd hk (Nat.not_lt_zero k)⟩

theorem counter_nextSymbol_self (a : Allocator) (base : String) :
    (a.nextSymbol base).2.counter base =
      (search a.scheme a.taken base (2 * a.taken.length) (a.counter base)).2 := by
  simp [nextSymbol, counter]

theorem counter_nextSymbol_of_ne (a : Allocator) {base other : String} (h : other ≠ base) :
    (a.nextSymbol base).2.counter other = a.counter other := by
  have apart : (other == base) = false := beq_eq_false_iff_ne.mpr h
  simp only [nextSymbol, counter, List.lookup_cons, apart]
  rw [Outcome.lookup_filter_of_ne h]

theorem taken_nextSymbol (a : Allocator) (base : String) :
    (a.nextSymbol base).2.taken = family (a.nextSymbol base).1.resource ++ a.taken := rfl

/-- The five names of a family are different. -/
theorem nodup_family (resource : String) : (family resource).Nodup := by
  have suffixes : ∀ k k' : Satellite, k.resourceSuffix = k'.resourceSuffix → k = k' := by
    intro k k'
    cases k <;> cases k' <;> decide
  refine List.nodup_cons.mpr ⟨fun hm => ?_, ?_⟩
  · obtain ⟨k, -, e⟩ := List.mem_map.mp hm
    have hlist := congrArg String.toList e
    rw [String.toList_append] at hlist
    have nothing := List.append_right_eq_self.mp hlist
    cases k <;> revert nothing <;> decide
  · refine List.Nodup.map (fun k k' e => suffixes k k' ?_) (by decide)
    have hlist := congrArg String.toList e
    rw [String.toList_append, String.toList_append] at hlist
    exact String.toList_inj.mp (List.append_cancel_left hlist)

/-- What is blocked stays blocked when more names are taken. -/
theorem isFree_append {more : List String} {name : String} (h : isFree taken name = false) :
    isFree (more ++ taken) name = false := by
  rw [Bool.eq_false_iff, Ne, isFree_iff] at h ⊢
  exact fun free => h fun n hn ht => free n hn (List.mem_append_right _ ht)

/-- **Where a search ends**: at the first candidate of all that is free, which no counter stands
    past. -/
theorem Remembers.nextSymbol_eq {a : Allocator} (h : a.Remembers)
    (bound : m ≤ 2 * a.taken.length) (first : FirstFree a.scheme a.taken base m) :
    a.counter base ≤ m ∧ (a.nextSymbol base).1.resource = candidate a.scheme base m ∧
      (a.nextSymbol base).2.counter base = m + 1 := by
  have not_past : a.counter base ≤ m := by
    by_contra past
    have free := first.free
    rw [h.blocked base m (by omega)] at free
    cases free
  have ends : search a.scheme a.taken base (2 * a.taken.length) (a.counter base) =
      (candidate a.scheme base m, m + 1) := first.search_eq not_past (by omega)
  refine ⟨not_past, ?_, ?_⟩
  · show (search a.scheme a.taken base (2 * a.taken.length) (a.counter base)).1 = _
    rw [ends]
  · rw [counter_nextSymbol_self, ends]

/-- Giving out a name keeps the invariant: what was blocked stays so, and the name itself is now
    taken. -/
theorem Remembers.nextSymbol {a : Allocator} (h : a.Remembers) (base : String) :
    (a.nextSymbol base).2.Remembers := by
  obtain ⟨m, bound, first⟩ := exists_firstFree a.scheme a.taken base
  obtain ⟨-, found, behind⟩ := h.nextSymbol_eq bound first
  refine ⟨?_, fun other k hk => ?_⟩
  · rw [taken_nextSymbol, found]
    exact (nodup_family _).append h.taken (isFree_iff.mp first.free)
  · rw [taken_nextSymbol]
    show isFree _ (candidate a.scheme other k) = false
    by_cases same : other = base
    · -- this counter has moved, to just behind the name that was found
      rw [same, behind] at hk
      rw [same]
      rcases Nat.lt_succ_iff_lt_or_eq.mp hk with hk | rfl
      · exact isFree_append (first.blocked k hk)
      · rw [Bool.eq_false_iff, Ne, isFree_iff, found]
        intro all
        have own : candidate a.scheme base k ∈ family (candidate a.scheme base k) :=
          mem_family.mpr (Or.inl rfl)
        exact all _ own (List.mem_append_left _ own)
    · rw [counter_nextSymbol_of_ne a same] at hk
      exact isFree_append (h.blocked other k hk)

/-! ## 5. Runs -/

theorem Remembers.serve {a : Allocator} (h : a.Remembers) (c : Call) :
    (a.serve c).2.Remembers ∧ (a.serve c).2.scheme = a.scheme := by
  rcases serve_eq a c with ⟨s, -, e⟩ | ⟨name, kind, table, e, -⟩
  · rw [e]
    exact ⟨h, rfl⟩
  · have issued := h.nextSymbol (sanitize name kind.label)
    rw [e]
    exact ⟨⟨issued.taken, issued.blocked⟩, rfl⟩

/-- **Every call of a run keeps the invariant.** -/
theorem Remembers.run : ∀ (calls : List Call) {a : Allocator}, a.Remembers →
    (a.run calls).2.Remembers ∧ (a.run calls).2.scheme = a.scheme
  | [], _, h => ⟨h, rfl⟩
  | c :: calls, a, h => by
      obtain ⟨served, same⟩ := h.serve c
      obtain ⟨ran, same'⟩ := Remembers.run calls served
      exact ⟨ran, same'.trans same⟩

/-- The state after some calls to a fresh allocator. -/
def reached (scheme : NamingScheme) (calls : List Call) : Allocator := (run { scheme } calls).2

/-- **A search for a base as it would be without counters**: the loop ends after so many rounds, and
    gives out the base with the least ordinal that is free. -/
structure Memoryless (a : Allocator) (base : String) (rounds ordinal : Nat) : Prop where
  /-- The list of the names taken is as long as they are many. -/
  counts : a.taken.Nodup
  /-- The loop ends by itself, from where the counter stands. -/
  ends : Looks (fun k => k + 1) (candidate a.scheme base) a.taken (a.counter base) rounds
    (a.nextSymbol base).1.resource ((a.nextSymbol base).2.counter base)
  few : rounds ≤ 2 * a.taken.length + 1
  named : (a.nextSymbol base).1.resource = ordinalName base ordinal
  least : IsLeast (freeOrdinals a.scheme a.taken base) ordinal
  /-- From a counter at 0 the loop ends there too, only later. -/
  forgets : Looks (fun k => k + 1) (candidate a.scheme base) a.taken 0 (a.counter base + rounds)
    (a.nextSymbol base).1.resource ((a.nextSymbol base).2.counter base)
  /-- With fewer than 2³⁰ names taken, a counter of 32 bits does not wrap around in the loop, which
      takes the same rounds with it. -/
  fits : a.taken.length < 1073741824 →
    (a.nextSymbol base).2.counter base < UInt32.size ∧
    Looks (fun k => k + 1) (wordCandidate a.scheme base) a.taken (UInt32.ofNat (a.counter base))
      rounds (a.nextSymbol base).1.resource (UInt32.ofNat ((a.nextSymbol base).2.counter base))

/-- **In every state that calls lead to, every search is one that needs no memory.** -/
theorem search_is_memoryless (scheme : NamingScheme) (calls : List Call) (base : String) :
    (reached scheme calls).scheme = scheme ∧
      ∃ rounds ordinal, Memoryless (reached scheme calls) base rounds ordinal := by
  obtain ⟨h, same⟩ := Remembers.run calls (remembers_empty scheme)
  refine ⟨same, ?_⟩
  change (reached scheme calls).Remembers at h
  generalize reached scheme calls = a at h
  obtain ⟨m, bound, first⟩ := exists_firstFree a.scheme a.taken base
  obtain ⟨not_past, found, behind⟩ := h.nextSymbol_eq bound first
  refine ⟨m - a.counter base + 1, firstOrdinal a.scheme + m, h.taken, ?_, by omega, ?_,
    first.isLeast, ?_, fun small => ?_⟩
  · rw [found, behind]
    exact Looks.upTo id (fun _ => rfl) not_past first.free fun i _ hi => first.blocked i hi
  · rw [found, candidate_eq_ordinalName]
  · rw [found, behind, show a.counter base + (m - a.counter base + 1) = m - 0 + 1 by omega]
    exact Looks.upTo id (fun _ => rfl) (Nat.zero_le m) first.free fun i _ hi => first.blocked i hi
  · -- the counter ends at `m + 1`, and all candidates before it are blocked by names
    have size : UInt32.size = 4294967296 := rfl
    have word : ∀ i ≤ m, wordCandidate a.scheme base (UInt32.ofNat i) = candidate a.scheme base i :=
      fun i hi => wordCandidate_ofNat (by omega)
    rw [found, behind, ← word m (Nat.le_refl m)]
    refine ⟨by omega, Looks.upTo UInt32.ofNat ofNat_succ not_past ?_ fun i _ hi => ?_⟩
    · rw [word m (Nat.le_refl m)]
      exact first.free
    · rw [word i (Nat.le_of_lt hi)]
      exact first.blocked i hi

-- the second candidate for the base `a` is a name that the base `a1` has got
example : ((run { scheme := .bare } [.node ⟨"x", .bucket, "a1", []⟩, .node ⟨"y", .bucket, "a", []⟩,
    .node ⟨"z", .bucket, "a", []⟩]).1.map Symbol.resource) = ["a1", "a", "a2"] := by decide +kernel

end InfraDiagram.Allocator
