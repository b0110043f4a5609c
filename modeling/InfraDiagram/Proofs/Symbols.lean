import InfraDiagram.Symbol.Allocator
import Mathlib.Data.List.Nodup

/-!
# Symbols that are given out

A symbol table only grows: what it says once it says for good (`SymbolTable.Extends`). Giving out a
symbol either finds the one given out before or makes one with the next variable
(`allocate_cases`, `allocateDefaultNetwork_cases`); everything else about a run follows from these
two. In particular no two symbols of a table have the same variable (`Allocator.Numbered`).
-/

namespace InfraDiagram

/-- The variable that is given out as the `k`th. -/
def variableName (k : Nat) : String := "a" ++ toString k

theorem toList_variableName (k : Nat) : (variableName k).toList = 'a' :: Nat.toDigits 10 k := by
  rw [variableName, String.toList_append, Nat.toString_eq_repr, Nat.toList_repr]
  rfl

theorem toDigits_inj {i j : Nat} (h : Nat.toDigits 10 i = Nat.toDigits 10 j) : i = j := by
  have := congrArg (fun ds => Nat.ofDigitChars 10 ds 0) h
  simpa using this

theorem variableName_inj {i j : Nat} (h : variableName i = variableName j) : i = j := by
  have hlist := congrArg String.toList h
  rw [toList_variableName, toList_variableName] at hlist
  exact toDigits_inj (List.cons.inj hlist).2

/-! ## 1. Tables that grow -/

namespace SymbolTable

/-- The symbols of nodes, and after them that of the default network. -/
def symbols (t : SymbolTable) : List Symbol := t.entries.map Prod.snd ++ t.defaultNetwork.toList

/-- **A later table**: it says all that an earlier one says. -/
structure Extends (t t' : SymbolTable) : Prop where
  get? : ∀ {id : String} {s : Symbol}, t.get? id = some s → t'.get? id = some s
  network : ∀ {s : Symbol}, t.defaultNetwork = some s → t'.defaultNetwork = some s

theorem Extends.refl (t : SymbolTable) : t.Extends t := ⟨id, id⟩

theorem Extends.trans {t t' t'' : SymbolTable} (h : t.Extends t') (h' : t'.Extends t'') :
    t.Extends t'' := ⟨fun e => h'.get? (h.get? e), fun e => h'.network (h.network e)⟩

theorem mem_entries_of_get? {t : SymbolTable} {id : String} {s : Symbol}
    (h : t.get? id = some s) : (id, s) ∈ t.entries := by
  obtain ⟨⟨i, s'⟩, hf, rfl⟩ := Option.map_eq_some_iff.mp h
  have hid : i = id := by simpa using List.find?_some hf
  exact hid ▸ List.mem_of_find?_eq_some hf

theorem mem_symbols_of_get? {t : SymbolTable} {id : String} {s : Symbol}
    (h : t.get? id = some s) : s ∈ t.symbols :=
  List.mem_append_left _ (List.mem_map.mpr ⟨(id, s), mem_entries_of_get? h, rfl⟩)

/-- The table with one more entry at its end. -/
def push (t : SymbolTable) (id : String) (s : Symbol) : SymbolTable :=
  { t with entries := t.entries ++ [(id, s)] }

theorem get?_push_self {t : SymbolTable} {id : String} (s : Symbol) (h : t.get? id = none) :
    (t.push id s).get? id = some s := by
  have hn : (t.entries.find? fun e => e.1 == id) = none := Option.map_eq_none_iff.mp h
  simp [SymbolTable.get?, push, List.find?_append, hn]

theorem get?_push_of_ne {t : SymbolTable} {id id' : String} (s : Symbol) (h : id' ≠ id) :
    (t.push id s).get? id' = t.get? id' := by
  have hne : (id == id') = false := by
    rw [beq_eq_false_iff_ne]
    exact fun e => h e.symm
  simp [SymbolTable.get?, push, List.find?_append, hne]

theorem extends_push {t : SymbolTable} {id : String} (s : Symbol) (h : t.get? id = none) :
    t.Extends (t.push id s) := by
  refine ⟨fun {i s'} e => ?_, fun e => e⟩
  by_cases hi : i = id
  · rw [hi, h] at e
    cases e
  · rw [get?_push_of_ne s hi]
    exact e

end SymbolTable

/-! ## 2. What giving out a symbol does -/

namespace Allocator

/-- A symbol asked for a node: the one given out before, or one with the next variable. -/
theorem allocate_cases (a : Allocator) (n : Node) :
    (∃ s, a.table.get? n.id = some s ∧ a.allocate n = (s, a)) ∨
    (a.table.get? n.id = none ∧ ∃ s b, a.allocate n = (s, b) ∧
      s.var = variableName (a.issued + 1) ∧ b.issued = a.issued + 1 ∧
      b.table = a.table.push n.id s) := by
  unfold allocate
  cases h : a.table.get? n.id with
  | some s => exact Or.inl ⟨s, rfl, rfl⟩
  | none => exact Or.inr ⟨rfl, _, _, rfl, rfl, rfl, rfl⟩

/-- A symbol asked for the default network: the one given out before, or one with the next
    variable. -/
theorem allocateDefaultNetwork_cases (a : Allocator) (name : String) :
    (∃ s, a.table.defaultNetwork = some s ∧ a.allocateDefaultNetwork name = (s, a)) ∨
    (a.table.defaultNetwork = none ∧ ∃ s b, a.allocateDefaultNetwork name = (s, b) ∧
      s.var = variableName (a.issued + 1) ∧ b.issued = a.issued + 1 ∧
      b.table = { a.table with defaultNetwork := some s }) := by
  unfold allocateDefaultNetwork
  cases h : a.table.defaultNetwork with
  | some s => exact Or.inl ⟨s, rfl, rfl⟩
  | none => exact Or.inr ⟨rfl, _, _, rfl, rfl, rfl, rfl⟩

theorem get?_allocate_self (a : Allocator) (n : Node) :
    (a.allocate n).2.table.get? n.id = some (a.allocate n).1 := by
  rcases allocate_cases a n with ⟨s, hs, e⟩ | ⟨hn, s, b, e, -, -, ht⟩
  · rw [e]
    exact hs
  · rw [e, ht]
    exact SymbolTable.get?_push_self s hn

theorem get?_allocate_of_ne (a : Allocator) {n : Node} {id : String} (h : id ≠ n.id) :
    (a.allocate n).2.table.get? id = a.table.get? id := by
  rcases allocate_cases a n with ⟨s, -, e⟩ | ⟨-, s, b, e, -, -, ht⟩
  · rw [e]
  · rw [e, ht]
    exact SymbolTable.get?_push_of_ne s h

theorem defaultNetwork_allocate (a : Allocator) (n : Node) :
    (a.allocate n).2.table.defaultNetwork = a.table.defaultNetwork := by
  rcases allocate_cases a n with ⟨s, -, e⟩ | ⟨-, s, b, e, -, -, ht⟩
  · rw [e]
  · rw [e, ht]
    rfl

theorem allocate_extends (a : Allocator) (n : Node) : a.table.Extends (a.allocate n).2.table := by
  rcases allocate_cases a n with ⟨s, -, e⟩ | ⟨hn, s, b, e, -, -, ht⟩
  · rw [e]
    exact SymbolTable.Extends.refl _
  · rw [e, ht]
    exact SymbolTable.extends_push s hn

theorem get?_allocateDefaultNetwork (a : Allocator) (name id : String) :
    (a.allocateDefaultNetwork name).2.table.get? id = a.table.get? id := by
  rcases allocateDefaultNetwork_cases a name with ⟨s, -, e⟩ | ⟨-, s, b, e, -, -, ht⟩
  · rw [e]
  · rw [e, ht]
    rfl

theorem defaultNetwork_allocateDefaultNetwork (a : Allocator) (name : String) :
    (a.allocateDefaultNetwork name).2.table.defaultNetwork =
      some (a.allocateDefaultNetwork name).1 := by
  rcases allocateDefaultNetwork_cases a name with ⟨s, hs, e⟩ | ⟨-, s, b, e, -, -, ht⟩
  · rw [e]
    exact hs
  · rw [e, ht]

theorem allocateDefaultNetwork_extends (a : Allocator) (name : String) :
    a.table.Extends (a.allocateDefaultNetwork name).2.table := by
  refine ⟨fun e => (get?_allocateDefaultNetwork a name _).trans e, fun {s} hs => ?_⟩
  rcases allocateDefaultNetwork_cases a name with ⟨s', hs', e⟩ | ⟨hn, -⟩
  · rw [e]
    exact hs
  · rw [hn] at hs
    cases hs

/-! ## 3. Variables are never given out twice -/

/-- **The invariant of a run**: every symbol has one of the variables issued so far, and no two
    have the same. -/
structure Numbered (a : Allocator) : Prop where
  issued : ∀ s ∈ a.table.symbols, ∃ k, k ≤ a.issued ∧ s.var = variableName k
  distinct : (a.table.symbols.map Symbol.var).Nodup

theorem numbered_empty (scheme : NamingScheme) : Numbered { scheme } :=
  ⟨fun _ h => absurd h List.not_mem_nil, List.nodup_nil⟩

/-- One more symbol with the next variable keeps the invariant. -/
theorem Numbered.grow {a b : Allocator} (h : a.Numbered) {s : Symbol}
    (hperm : b.table.symbols.Perm (s :: a.table.symbols))
    (hvar : s.var = variableName (a.issued + 1)) (hissued : b.issued = a.issued + 1) :
    b.Numbered := by
  refine ⟨fun t ht => ?_, ?_⟩
  · rcases List.mem_cons.mp (hperm.mem_iff.mp ht) with rfl | ht
    · exact ⟨a.issued + 1, Nat.le_of_eq hissued.symm, hvar⟩
    · obtain ⟨k, hk, e⟩ := h.issued t ht
      exact ⟨k, by omega, e⟩
  · rw [(hperm.map Symbol.var).nodup_iff, List.map_cons, List.nodup_cons]
    refine ⟨fun hm => ?_, h.distinct⟩
    obtain ⟨t, ht, e⟩ := List.mem_map.mp hm
    obtain ⟨k, hk, e'⟩ := h.issued t ht
    have : k = a.issued + 1 := variableName_inj (e'.symm.trans (e.trans hvar))
    omega

theorem Numbered.allocate {a : Allocator} (h : a.Numbered) (n : Node) :
    (a.allocate n).2.Numbered := by
  rcases allocate_cases a n with ⟨s, -, e⟩ | ⟨-, s, b, e, hvar, hissued, ht⟩
  · rw [e]
    exact h
  · rw [e]
    refine h.grow ?_ hvar hissued
    simp only [ht, SymbolTable.symbols, SymbolTable.push, List.map_append, List.map_cons,
      List.map_nil, List.append_assoc, List.cons_append, List.nil_append]
    exact List.perm_middle

theorem Numbered.allocateDefaultNetwork {a : Allocator} (h : a.Numbered) (name : String) :
    (a.allocateDefaultNetwork name).2.Numbered := by
  rcases allocateDefaultNetwork_cases a name with ⟨s, -, e⟩ | ⟨hn, s, b, e, hvar, hissued, ht⟩
  · rw [e]
    exact h
  · rw [e]
    refine h.grow ?_ hvar hissued
    simp only [ht, hn, SymbolTable.symbols, Option.toList_some, Option.toList_none,
      List.append_nil]
    exact List.perm_append_comm

theorem Numbered.var_of_get? {a : Allocator} (h : a.Numbered) {id : String} {s : Symbol}
    (hs : a.table.get? id = some s) : ∃ k, s.var = variableName k := by
  obtain ⟨k, -, e⟩ := h.issued s (SymbolTable.mem_symbols_of_get? hs)
  exact ⟨k, e⟩

theorem Numbered.var_of_network {a : Allocator} (h : a.Numbered) {s : Symbol}
    (hs : a.table.defaultNetwork = some s) : ∃ k, s.var = variableName k := by
  obtain ⟨k, -, e⟩ := h.issued s (List.mem_append_right _ (by rw [hs]; exact List.mem_cons_self))
  exact ⟨k, e⟩

/-- Symbols with one variable are symbols of one node. -/
theorem Numbered.id_of_var_eq {a : Allocator} (h : a.Numbered) {i j : String} {s t : Symbol}
    (hs : a.table.get? i = some s) (ht : a.table.get? j = some t) (e : s.var = t.var) :
    i = j := by
  have hnd := h.distinct
  rw [SymbolTable.symbols, List.map_append] at hnd
  have hnd := (List.nodup_append.mp hnd).1
  rw [List.map_map] at hnd
  have := List.inj_on_of_nodup_map hnd (SymbolTable.mem_entries_of_get? hs)
    (SymbolTable.mem_entries_of_get? ht) e
  exact congrArg Prod.fst this

end Allocator

end InfraDiagram
