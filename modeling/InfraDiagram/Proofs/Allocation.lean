import InfraDiagram.Proofs.Symbols
import Mathlib.Algebra.Order.BigOperators.Group.Finset
import Mathlib.Data.List.Infix
import Mathlib.Order.Interval.Finset.Nat

/-!
# What a run of an allocator gives out

Names are chosen by whoever draws the diagram, so one node may bear the name that another node's
role would have, or the name and number that another node would get. A taken name still stands in
the way of two candidates only (`card_blocked_le_two`): of the one it equals, and of the one whose
satellite it would be, since no suffix of a satellite ends another (`owner_eq`). So the search
always ends at a candidate whose whole family is free (`search_isFree`).

A run is a list of calls. What it has given out first, and to whom, is its ledger; `Ledger` says how
the answers, the table and the names taken are read off the ledger. Every call keeps it
(`Ledger.serve`), so every run does (`Ledger.run`).
-/

namespace InfraDiagram.Allocator

/-! ## 1. Candidates and families -/

theorem toString_ne_empty (k : Nat) : toString k ≠ "" := by
  intro h
  have hlist := congrArg String.toList h
  rw [Nat.toString_eq_repr, Nat.toList_repr] at hlist
  exact Nat.toDigits_ne_nil hlist

theorem append_toString_inj {base : String} {i j : Nat}
    (h : base ++ toString i = base ++ toString j) : i = j := by
  have hlist := congrArg String.toList h
  simp only [String.toList_append, Nat.toString_eq_repr, Nat.toList_repr] at hlist
  exact toDigits_inj (List.append_cancel_left hlist)

theorem append_toString_ne (base : String) (k : Nat) : base ++ toString k ≠ base := by
  intro h
  have hlist := congrArg String.toList h
  rw [String.toList_append] at hlist
  exact toString_ne_empty k (String.toList_eq_nil_iff.mp (List.append_right_eq_self.mp hlist))

/-- The candidates for a base are all different. -/
theorem candidate_inj {scheme : NamingScheme} {base : String} {i j : Nat}
    (h : candidate scheme base i = candidate scheme base j) : i = j := by
  cases scheme with
  | counted => exact Nat.succ.inj (append_toString_inj h)
  | bare =>
    unfold candidate at h
    simp only at h
    split at h <;> split at h
    · omega
    · exact absurd h.symm (append_toString_ne base j)
    · exact absurd h (append_toString_ne base i)
    · exact append_toString_inj h

theorem mem_family {name resource : String} :
    name ∈ family resource ↔
      name = resource ∨ ∃ k : Satellite, name = resource ++ k.resourceSuffix := by
  unfold family Satellite.all
  constructor
  · intro h
    rcases List.mem_cons.mp h with rfl | h
    · exact Or.inl rfl
    · obtain ⟨k, -, rfl⟩ := List.mem_map.mp h
      exact Or.inr ⟨k, rfl⟩
  · rintro (rfl | ⟨k, rfl⟩)
    · exact List.mem_cons_self
    · exact List.mem_cons_of_mem _ (List.mem_map.mpr ⟨k, by cases k <;> decide, rfl⟩)

theorem isFree_iff {taken : List String} {resource : String} :
    isFree taken resource = true ↔ ∀ name ∈ family resource, name ∉ taken := by
  simp [isFree]

/-- No suffix of a satellite ends the suffix of another. -/
theorem satellite_eq_of_suffix {k k' : Satellite}
    (h : k.resourceSuffix.toList <:+ k'.resourceSuffix.toList) : k = k' := by
  revert h
  cases k <;> cases k' <;> decide

/-- **A satellite's name tells its owner.** -/
theorem owner_eq {c d : String} {k k' : Satellite}
    (h : c ++ k.resourceSuffix = d ++ k'.resourceSuffix) : c = d := by
  have hlist := congrArg String.toList h
  rw [String.toList_append, String.toList_append] at hlist
  have left : k.resourceSuffix.toList <:+ d.toList ++ k'.resourceSuffix.toList :=
    ⟨c.toList, hlist⟩
  have right : k'.resourceSuffix.toList <:+ d.toList ++ k'.resourceSuffix.toList :=
    List.suffix_append _ _
  have same : k = k' := by
    rcases List.suffix_or_suffix_of_suffix left right with h | h
    · exact satellite_eq_of_suffix h
    · exact (satellite_eq_of_suffix h).symm
  rw [same] at hlist
  exact String.toList_inj.mp (List.append_cancel_right hlist)

/-! ## 2. The search for a free name -/

/-- **A name stands in the way of two candidates at most.** -/
theorem card_blocked_le_two (scheme : NamingScheme) (base name : String) (among : Finset Nat) :
    (among.filter fun i => name ∈ family (candidate scheme base i)).card ≤ 2 := by
  classical
  have equal : (among.filter fun i => name = candidate scheme base i).card ≤ 1 := by
    refine Finset.card_le_one.mpr fun i hi j hj => ?_
    exact candidate_inj ((Finset.mem_filter.mp hi).2.symm.trans (Finset.mem_filter.mp hj).2)
  have owned : (among.filter fun i => ∃ k : Satellite,
      name = candidate scheme base i ++ k.resourceSuffix).card ≤ 1 := by
    refine Finset.card_le_one.mpr fun i hi j hj => ?_
    obtain ⟨k, hk⟩ := (Finset.mem_filter.mp hi).2
    obtain ⟨k', hk'⟩ := (Finset.mem_filter.mp hj).2
    exact candidate_inj (owner_eq (hk.symm.trans hk'))
  simp only [mem_family]
  rw [Finset.filter_or]
  exact (Finset.card_union_le _ _).trans (Nat.add_le_add equal owned)

/-- Among more than twice as many candidates as names are taken, one is free. -/
theorem exists_free (scheme : NamingScheme) (taken : List String) (base : String) (k : Nat) :
    ∃ i, i ≤ 2 * taken.length ∧ isFree taken (candidate scheme base (k + i)) = true := by
  by_contra allBlocked
  push Not at allBlocked
  let among := Finset.Icc k (k + 2 * taken.length)
  have blocked : ∀ j ∈ among, ∃ name,
      name ∈ taken.toFinset ∧ name ∈ family (candidate scheme base j) := by
    intro j hj
    obtain ⟨hlo, hhi⟩ := Finset.mem_Icc.mp hj
    have := allBlocked (j - k) (by omega)
    rw [Nat.add_sub_cancel' hlo, Ne, isFree_iff] at this
    push Not at this
    obtain ⟨name, hname, ht⟩ := this
    exact ⟨name, List.mem_toFinset.mpr ht, hname⟩
  choose! blocker hblocker using blocked
  -- every candidate is sent to a taken name in its family, two at most to the same one
  have fibres : ∀ name ∈ taken.toFinset, (among.filter fun j => blocker j = name).card ≤ 2 := by
    intro name _
    refine (Finset.card_le_card fun j hj => ?_).trans
      (card_blocked_le_two scheme base name among)
    obtain ⟨hj, e⟩ := Finset.mem_filter.mp hj
    exact Finset.mem_filter.mpr ⟨hj, e ▸ (hblocker j hj).2⟩
  have many := Finset.card_le_mul_card_image_of_maps_to (fun j hj => (hblocker j hj).1) 2 fibres
  have few := taken.toFinset_card_le
  rw [Nat.card_Icc] at many
  omega

/-- What a search finds is one of the candidates from the `k`th on. -/
theorem exists_search_eq (scheme : NamingScheme) (taken : List String) (base : String) :
    ∀ rounds k, ∃ i, (search scheme taken base rounds k).1 = candidate scheme base (k + i)
  | 0, _ => ⟨0, rfl⟩
  | rounds + 1, k => by
      unfold search
      simp only
      split
      · exact ⟨0, rfl⟩
      · obtain ⟨i, hi⟩ := exists_search_eq scheme taken base rounds (k + 1)
        exact ⟨1 + i, by rw [hi, Nat.add_assoc]⟩

theorem isFree_search_of_exists {scheme : NamingScheme} {taken : List String} {base : String} :
    ∀ {rounds k : Nat},
      (∃ i, i ≤ rounds ∧ isFree taken (candidate scheme base (k + i)) = true) →
      isFree taken (search scheme taken base rounds k).1 = true
  | 0, k, h => by
      obtain ⟨i, hi, hfree⟩ := h
      rw [Nat.le_zero.mp hi] at hfree
      exact hfree
  | rounds + 1, k, h => by
      unfold search
      simp only
      split
      · assumption
      · rename_i hblocked
        obtain ⟨i, hi, hfree⟩ := h
        refine isFree_search_of_exists ⟨i - 1, by omega, ?_⟩
        have later : i ≠ 0 := by
          rintro rfl
          exact hblocked hfree
        rw [show k + 1 + (i - 1) = k + i by omega]
        exact hfree

/-- **A search of the length the allocator allows it ends at a free name.** -/
theorem search_isFree (scheme : NamingScheme) (taken : List String) (base : String) (k : Nat) :
    isFree taken (search scheme taken base (2 * taken.length) k).1 = true :=
  isFree_search_of_exists (exists_free scheme taken base k)

/-! ## 3. Names that can be registered -/

theorem mem_of_mem_trimChars {c : Char} {cs : List Char} (h : c ∈ Text.trimChars cs) : c ∈ cs := by
  unfold Text.trimChars at h
  have inner := (List.dropWhile_sublist _).subset (List.mem_reverse.mp h)
  exact (List.dropWhile_sublist _).subset (List.mem_reverse.mp inner)

theorem isResourceChar_of_mem_sanitize (name : String) {fallback : String}
    (h : ∀ c ∈ fallback.toList, isResourceChar c = true) :
    ∀ c ∈ (sanitize name fallback).toList, isResourceChar c = true := by
  unfold sanitize
  simp only
  split
  · exact h
  · intro c hc
    rw [String.toList_ofList] at hc
    obtain ⟨d, -, rfl⟩ := List.mem_map.mp (mem_of_mem_trimChars hc)
    split
    · assumption
    · rfl

theorem isResourceChar_of_mem_candidate {scheme : NamingScheme} {base : String} (k : Nat)
    (h : ∀ c ∈ base.toList, isResourceChar c = true) :
    ∀ c ∈ (candidate scheme base k).toList, isResourceChar c = true := by
  have numbered : ∀ (j : Nat), ∀ c ∈ (base ++ toString j).toList, isResourceChar c = true := by
    intro j c hc
    rw [String.toList_append, Nat.toString_eq_repr, Nat.toList_repr] at hc
    rcases List.mem_append.mp hc with hc | hc
    · exact h c hc
    · have digit := Nat.isDigit_of_mem_toDigits (by decide) (by decide) hc
      simp [isResourceChar, Text.isNameChar, Char.isAlphanum, digit]
  unfold candidate
  cases scheme with
  | counted => exact numbered (k + 1)
  | bare =>
    simp only
    split
    · exact h
    · exact numbered k

/-- **Every name that a search gives out can be registered.** -/
theorem isResourceChar_of_mem_search (a : Allocator) (name : String) (kind : NodeKind) :
    ∀ c ∈ (search a.scheme a.taken (sanitize name kind.label) (2 * a.taken.length)
      (a.counter (sanitize name kind.label))).1.toList, isResourceChar c = true := by
  obtain ⟨i, hi⟩ := exists_search_eq a.scheme a.taken (sanitize name kind.label)
    (2 * a.taken.length) (a.counter (sanitize name kind.label))
  rw [hi]
  refine isResourceChar_of_mem_candidate _ (isResourceChar_of_mem_sanitize name ?_)
  refine List.all_eq_true.mp ?_
  cases kind <;> decide

/-! ## 4. Calls -/

/-- What may be asked of an allocator: the symbol of a node, or that of the default network. -/
inductive Call where
  | node (n : Node)
  | network (name : String)
  deriving DecidableEq, Repr

/-- Whom a call asks a symbol for: a node by its id, or else the default network. -/
def Call.key : Call → Option String
  | .node n => some n.id
  | .network _ => none

/-- The answer to one call. -/
def serve (a : Allocator) : Call → Symbol × Allocator
  | .node n => a.allocate n
  | .network name => a.allocateDefaultNetwork name

/-- The answers to a list of calls, one after the other. -/
def run (a : Allocator) : List Call → List Symbol × Allocator
  | [] => ([], a)
  | c :: cs => ((a.serve c).1 :: ((a.serve c).2.run cs).1, ((a.serve c).2.run cs).2)

/-- The symbol that was given out to a key. -/
def known? (a : Allocator) : Option String → Option Symbol
  | some id => a.table.get? id
  | none => a.table.defaultNetwork

/-- **What is given out to a new key**: the next variable, and a name whose family was free and is
    taken from now on. -/
structure Issues (a : Allocator) (key : Option String) (s : Symbol) (b : Allocator) : Prop where
  fresh : a.known? key = none
  var : s.var = variableName (a.issued + 1)
  issued : b.issued = a.issued + 1
  legible : ∀ c ∈ s.resource.toList, isResourceChar c = true
  free : ∀ name ∈ family s.resource, name ∉ a.taken
  taken : b.taken = family s.resource ++ a.taken
  entries : b.table.entries = a.table.entries ++ (key.map fun id => (id, s)).toList
  known : ∀ k, b.known? k = if k = key then some s else a.known? k

/-- One call either finds what was given out before and changes nothing, or gives out a symbol. -/
theorem serve_cases (a : Allocator) (c : Call) :
    (∃ s, a.known? c.key = some s ∧ a.serve c = (s, a)) ∨
      ∃ s b, a.serve c = (s, b) ∧ Issues a c.key s b := by
  have free := fun base => isFree_iff.mp
    (search_isFree a.scheme a.taken base (a.counter base))
  cases c with
  | node n =>
    show (∃ s, a.table.get? n.id = some s ∧ a.allocate n = (s, a)) ∨
      ∃ s b, a.allocate n = (s, b) ∧ Issues a (some n.id) s b
    unfold allocate
    cases h : a.table.get? n.id with
    | some s => exact Or.inl ⟨s, rfl, rfl⟩
    | none =>
      refine Or.inr ⟨_, _, rfl, h, rfl, rfl, isResourceChar_of_mem_search a n.name n.kind,
        free _, rfl, rfl, fun k => ?_⟩
      cases k with
      | none => rfl
      | some id =>
        by_cases hid : id = n.id
        · rw [hid, if_pos rfl]
          exact SymbolTable.get?_push_self _ h
        · rw [if_neg fun e => hid (Option.some.inj e)]
          exact SymbolTable.get?_push_of_ne _ hid
  | network name =>
    show (∃ s, a.table.defaultNetwork = some s ∧ a.allocateDefaultNetwork name = (s, a)) ∨
      ∃ s b, a.allocateDefaultNetwork name = (s, b) ∧ Issues a none s b
    unfold allocateDefaultNetwork
    cases h : a.table.defaultNetwork with
    | some s => exact Or.inl ⟨s, rfl, rfl⟩
    | none =>
      refine Or.inr ⟨_, _, rfl, h, rfl, rfl, isResourceChar_of_mem_search a name .vpc,
        free _, rfl, (List.append_nil _).symm, fun k => ?_⟩
      cases k with
      | none => rfl
      | some id => rfl

/-- A call either gives out again what is in the table, or gives out the next symbol for a name that
    was cleaned, and writes it into the table. -/
theorem serve_eq (a : Allocator) (c : Call) :
    (∃ s ∈ a.table.symbols, a.serve c = (s, a)) ∨
      ∃ name, ∃ kind : NodeKind, ∃ table,
        a.serve c = ((a.nextSymbol (sanitize name kind.label)).1,
          { (a.nextSymbol (sanitize name kind.label)).2 with table }) ∧
        ∀ s ∈ table.symbols,
          s ∈ a.table.symbols ∨ s = (a.nextSymbol (sanitize name kind.label)).1 := by
  cases c with
  | node n =>
    rw [serve]
    unfold allocate
    cases h : a.table.get? n.id with
    | some s => exact Or.inl ⟨s, SymbolTable.mem_symbols_of_get? h, rfl⟩
    | none =>
      refine Or.inr ⟨n.name, n.kind, _, rfl, fun s hs => ?_⟩
      simp only [SymbolTable.symbols, List.map_append, List.map_cons, List.map_nil,
        List.mem_append, List.mem_singleton] at hs ⊢
      rcases hs with (hs | rfl) | hs
      · exact Or.inl (Or.inl hs)
      · exact Or.inr rfl
      · exact Or.inl (Or.inr hs)
  | network name =>
    rw [serve]
    unfold allocateDefaultNetwork
    cases h : a.table.defaultNetwork with
    | some s =>
      refine Or.inl ⟨s, List.mem_append_right _ ?_, rfl⟩
      rw [h]
      exact List.mem_cons_self
    | none =>
      refine Or.inr ⟨name, .vpc, _, rfl, fun s hs => ?_⟩
      simp only [SymbolTable.symbols, List.mem_append, Option.toList_some,
        List.mem_singleton] at hs ⊢
      rcases hs with hs | rfl
      · exact Or.inl (Or.inl hs)
      · exact Or.inr rfl

/-! ## 5. The ledger -/

theorem eraseDups_append_singleton_of_mem {keys : List (Option String)} {k : Option String}
    (h : k ∈ keys) : (keys ++ [k]).eraseDups = keys.eraseDups := by
  have old : [k].removeAll keys = [] := by simp [List.removeAll, h]
  rw [List.eraseDups_append, old, List.eraseDups_nil, List.append_nil]

theorem eraseDups_append_singleton_of_not_mem {keys : List (Option String)} {k : Option String}
    (h : k ∉ keys) : (keys ++ [k]).eraseDups = keys.eraseDups ++ [k] := by
  have new : [k].removeAll keys = [k] := by simp [List.removeAll, h]
  rw [List.eraseDups_append, new]
  rfl

theorem eraseDups_of_nodup : ∀ {keys : List (Option String)}, keys.Nodup → keys.eraseDups = keys
  | [], _ => rfl
  | k :: keys, h => by
      obtain ⟨hk, hkeys⟩ := List.nodup_cons.mp h
      have apart : keys.filter (fun k' => !k' == k) = keys := by
        refine List.filter_eq_self.mpr fun k' hk' => ?_
        rw [Bool.not_eq_true', beq_eq_false_iff_ne]
        rintro rfl
        exact hk hk'
      rw [List.eraseDups_cons, apart, eraseDups_of_nodup hkeys]

/-- **The invariant of a run**: what was asked and what was answered, read off the list of what was
    given out first and to whom. -/
structure Ledger (calls : List Call) (answers : List Symbol) (log : List (Option String × Symbol))
    (a : Allocator) : Prop where
  /-- Something is given out to each key once, in the order in which they first ask. -/
  keys : log.map Prod.fst = (calls.map Call.key).eraseDups
  distinct : (log.map Prod.fst).Nodup
  /-- The variables are `a1`, `a2`, … in that order. -/
  vars : log.map (fun x => x.2.var) = (List.range a.issued).map fun i => variableName (i + 1)
  /-- The table lists what the nodes were given, and the default network has what it was given. -/
  entries : a.table.entries = log.filterMap fun x => x.1.map fun id => (id, x.2)
  known : ∀ k, a.known? k = log.lookup k
  /-- Every name can be registered. -/
  legible : ∀ x ∈ log, ∀ c ∈ x.2.resource.toList, isResourceChar c = true
  /-- No two resources share a name, and none has the name of another's satellite. -/
  apart : log.Pairwise fun x y => List.Disjoint (family x.2.resource) (family y.2.resource)
  reserved : ∀ x ∈ log, ∀ name ∈ family x.2.resource, name ∈ a.taken
  /-- Every call is answered with what its key was given first. -/
  answered : List.Forall₂ (fun c s => log.lookup c.key = some s) calls answers

theorem ledger_empty (scheme : NamingScheme) : Ledger [] [] [] { scheme } where
  keys := rfl
  distinct := List.nodup_nil
  vars := rfl
  entries := rfl
  known k := by cases k <;> rfl
  legible := List.forall_mem_nil _
  apart := .nil
  reserved := List.forall_mem_nil _
  answered := .nil

variable {calls : List Call} {answers : List Symbol} {log : List (Option String × Symbol)}
  {a : Allocator}

/-- A key has been asked for exactly if it is in the ledger. -/
theorem Ledger.known?_eq_none_iff (h : Ledger calls answers log a) (key : Option String) :
    a.known? key = none ↔ key ∉ calls.map Call.key := by
  rw [h.known, List.lookup_eq_none_iff, ← List.mem_eraseDups, ← h.keys, List.mem_map]
  constructor
  · rintro hne ⟨x, hx, e⟩
    exact (bne_iff_ne.mp (hne x hx)) e.symm
  · intro hm x hx
    exact bne_iff_ne.mpr fun e => hm ⟨x, hx, e.symm⟩

/-- A call for a key that has asked before adds nothing to the ledger. -/
theorem Ledger.again (h : Ledger calls answers log a) {c : Call} {s : Symbol}
    (hs : a.known? c.key = some s) : Ledger (calls ++ [c]) (answers ++ [s]) log a := by
  have asked : c.key ∈ calls.map Call.key := by
    by_contra hn
    rw [(h.known?_eq_none_iff c.key).mpr hn] at hs
    cases hs
  refine { h with keys := ?_, answered := ?_ }
  · rw [List.map_append]
    exact h.keys.trans (eraseDups_append_singleton_of_mem asked).symm
  · refine List.rel_append h.answered (.cons ?_ .nil)
    rw [← h.known]
    exact hs

/-- A call for a new key adds it to the ledger, with what it is given. -/
theorem Ledger.issue (h : Ledger calls answers log a) {c : Call} {s : Symbol} {b : Allocator}
    (hs : Issues a c.key s b) : Ledger (calls ++ [c]) (answers ++ [s]) (log ++ [(c.key, s)]) b := by
  have unknown : log.lookup c.key = none := (h.known c.key).symm.trans hs.fresh
  have new : c.key ∉ calls.map Call.key := (h.known?_eq_none_iff c.key).mp hs.fresh
  refine ⟨?_, ?_, ?_, ?_, fun k => ?_, ?_, ?_, ?_, ?_⟩
  · rw [List.map_append, List.map_append, h.keys]
    exact (eraseDups_append_singleton_of_not_mem new).symm
  · rw [List.map_append]
    refine h.distinct.append (List.nodup_singleton _) (List.disjoint_singleton.mpr ?_)
    rw [h.keys, List.mem_eraseDups]
    exact new
  · rw [List.map_append, h.vars, hs.issued, List.range_succ, List.map_append]
    simp only [List.map_cons, List.map_nil, hs.var]
  · rw [hs.entries, h.entries, List.filterMap_append]
    cases c.key <;> rfl
  · rw [hs.known, h.known, List.lookup_append]
    by_cases hk : k = c.key
    · rw [if_pos hk, hk, unknown]
      simp
    · rw [if_neg hk]
      simp [List.lookup_cons, beq_eq_false_iff_ne.mpr hk]
  · refine List.forall_mem_append.mpr ⟨h.legible, fun x hx => ?_⟩
    rw [List.mem_singleton.mp hx]
    exact hs.legible
  · refine List.pairwise_append.mpr ⟨h.apart, List.pairwise_singleton _ _, fun x hx y hy => ?_⟩
    rw [List.mem_singleton.mp hy]
    exact fun name hold hnew => hs.free name hnew (h.reserved x hx name hold)
  · intro x hx name hname
    rw [hs.taken]
    rcases List.mem_append.mp hx with hx | hx
    · exact List.mem_append_right _ (h.reserved x hx name hname)
    · rw [List.mem_singleton.mp hx] at hname
      exact List.mem_append_left _ hname
  · refine List.rel_append (h.answered.imp fun c' s' e => ?_) (.cons ?_ .nil)
    · rw [List.lookup_append, e]
      rfl
    · rw [List.lookup_append, unknown]
      simp

/-- One call keeps the ledger. -/
theorem Ledger.serve (h : Ledger calls answers log a) (c : Call) :
    ∃ log', Ledger (calls ++ [c]) (answers ++ [(a.serve c).1]) log' (a.serve c).2 := by
  rcases serve_cases a c with ⟨s, hs, e⟩ | ⟨s, b, e, hs⟩
  · rw [e]
    exact ⟨log, h.again hs⟩
  · rw [e]
    exact ⟨_, h.issue hs⟩

/-- **A run keeps the ledger.** -/
theorem Ledger.run : ∀ (cs : List Call) {calls : List Call} {answers : List Symbol}
    {log : List (Option String × Symbol)} {a : Allocator}, Ledger calls answers log a →
    ∃ log', Ledger (calls ++ cs) (answers ++ (a.run cs).1) log' (a.run cs).2
  | [], _, _, log, _, h => ⟨log, by simpa [Allocator.run] using h⟩
  | c :: cs, _, _, _, _, h => by
      obtain ⟨log', h'⟩ := h.serve c
      obtain ⟨log'', h''⟩ := Ledger.run cs h'
      exact ⟨log'', by simpa [Allocator.run] using h''⟩

/-- Asked again for a key, whatever name or kind comes with it, an allocator gives what it gave
    first and stays as it is. -/
theorem Ledger.serve_again (h : Ledger calls answers log a) {c : Call}
    (asked : c.key ∈ calls.map Call.key) :
    ∃ s, log.lookup c.key = some s ∧ a.serve c = (s, a) := by
  rcases serve_cases a c with ⟨s, hs, e⟩ | ⟨s, b, -, hs⟩
  · exact ⟨s, (h.known c.key).symm.trans hs, e⟩
  · exact absurd asked ((h.known?_eq_none_iff c.key).mp hs.fresh)

/-- The table has an entry for each node that was asked for, in the order of the ledger. -/
theorem Ledger.ids (h : Ledger calls answers log a) :
    a.table.entries.map (fun e => some e.1) =
      (calls.map Call.key).eraseDups.filter Option.isSome := by
  rw [h.entries, ← h.keys]
  clear h
  induction log with
  | nil => rfl
  | cons x log ih =>
    obtain ⟨key, s⟩ := x
    cases key with
    | none => exact ih
    | some id => exact congrArg (some id :: ·) ih

/-- Whoever is in the ledger is known by what it was given. -/
theorem Ledger.known?_of_mem (h : Ledger calls answers log a) {x : Option String × Symbol}
    (hx : x ∈ log) : a.known? x.1 = some x.2 := by
  rw [h.known, List.lookup_eq_some_iff]
  obtain ⟨before, after, e⟩ := List.append_of_mem hx
  refine ⟨before, after, e, fun y hy => bne_iff_ne.mpr fun hk => ?_⟩
  have distinct := h.distinct
  rw [e, List.map_append, List.map_cons] at distinct
  have apart := (List.nodup_append.mp distinct).2.2
  exact apart y.1 (List.mem_map_of_mem hy) x.1 List.mem_cons_self hk.symm

/-- The table finds each of its entries. -/
theorem Ledger.get?_of_mem_entries (h : Ledger calls answers log a) {e : String × Symbol}
    (he : e ∈ a.table.entries) : a.table.get? e.1 = some e.2 := by
  rw [h.entries] at he
  obtain ⟨⟨key, s⟩, hx, he⟩ := List.mem_filterMap.mp he
  obtain ⟨id, rfl, rfl⟩ := Option.map_eq_some_iff.mp he
  exact h.known?_of_mem hx

/-- **Calls for different keys are numbered as they come**: the variables given out to them are
    `a1`, `a2`, … in their order. -/
theorem Ledger.vars_of_nodup (h : Ledger calls answers log a)
    (distinct : (calls.map Call.key).Nodup) :
    calls.map (fun c => (a.known? c.key).map Symbol.var) =
      (List.range' 1 calls.length).map fun k => some (variableName k) := by
  have keys : log.map Prod.fst = calls.map Call.key := by
    rw [h.keys, eraseDups_of_nodup distinct]
  have length : a.issued = calls.length := by
    have vars := congrArg List.length h.vars
    have keys := congrArg List.length keys
    simp only [List.length_map, List.length_range] at vars keys
    omega
  calc calls.map (fun c => (a.known? c.key).map Symbol.var)
      = (log.map Prod.fst).map fun k => (a.known? k).map Symbol.var := by
        rw [keys, List.map_map]
        rfl
    _ = (log.map fun x => x.2.var).map some := by
        rw [List.map_map, List.map_map]
        refine List.map_congr_left fun x hx => ?_
        show (a.known? x.1).map Symbol.var = some x.2.var
        rw [h.known?_of_mem hx, Option.map_some]
    _ = (List.range' 1 calls.length).map fun k => some (variableName k) := by
        rw [h.vars, length, List.range'_eq_map_range, List.map_map, List.map_map]
        refine List.map_congr_left fun i _ => ?_
        show some (variableName (i + 1)) = some (variableName (1 + i))
        rw [Nat.add_comm]

/-- **Every run of a fresh allocator can be read off a ledger** of what was given out first and to
    whom: variables `a1`, `a2`, … in that order, to families of names that never meet, each node's
    symbol found under its id; and whoever asks again changes nothing. -/
theorem run_reads_off_ledger (scheme : NamingScheme) (calls : List Call) :
    ∃ log, Ledger calls (run { scheme } calls).1 log (run { scheme } calls).2 ∧
      (run { scheme } calls).2.table.entries.map (fun e => some e.1) =
        (calls.map Call.key).eraseDups.filter Option.isSome ∧
      (∀ e ∈ (run { scheme } calls).2.table.entries,
        (run { scheme } calls).2.table.get? e.1 = some e.2) ∧
      ∀ c : Call, c.key ∈ calls.map Call.key → ∃ s, log.lookup c.key = some s ∧
        (run { scheme } calls).2.serve c = (s, (run { scheme } calls).2) := by
  obtain ⟨log, h⟩ := Ledger.run calls (ledger_empty scheme)
  exact ⟨log, h, h.ids, fun _ he => h.get?_of_mem_entries he, fun _ asked => h.serve_again asked⟩

end InfraDiagram.Allocator
