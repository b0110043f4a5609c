import InfraDiagram.Proofs.Symbols
import Mathlib.Data.List.TakeWhile

/-!
# How lines begin

Lines of the stack program are told apart by how they begin. Two texts that part ways cannot both
begin the same line (`Begins.unique`). A line that begins with a variable, followed by something
that is not a digit, names that variable and no other (`variableName_append_inj`), and it begins
with none of the words that the program is otherwise made of (`not_begins_variable`).
-/

namespace InfraDiagram

namespace Text

/-! ## 1. Beginnings -/

/-- A text begins with another. -/
def Begins (p t : String) : Prop := ∃ rest, t = p ++ rest

theorem Begins.append (p rest : String) : Begins p (p ++ rest) := ⟨rest, rfl⟩

theorem Begins.trans {p q t : String} (h : Begins p q) (h' : Begins q t) : Begins p t := by
  obtain ⟨r, rfl⟩ := h
  obtain ⟨r', rfl⟩ := h'
  exact ⟨r ++ r', String.append_assoc⟩

/-- Neither of two texts begins with the other. -/
def apart (p q : String) : Bool :=
  !p.toList.isPrefixOf q.toList && !q.toList.isPrefixOf p.toList

/-- Texts that part ways do not begin the same text. -/
theorem Begins.unique {p q t : String} (h : apart p q = true) (hp : Begins p t) : ¬ Begins q t := by
  rintro ⟨s, hs⟩
  obtain ⟨r, rfl⟩ := hp
  simp only [apart, Bool.and_eq_true, Bool.not_eq_true', ← Bool.not_eq_true,
    List.isPrefixOf_iff_prefix] at h
  have hlist : p.toList ++ r.toList = q.toList ++ s.toList := by
    rw [← String.toList_append, hs, String.toList_append]
  rcases List.prefix_or_prefix_of_prefix (List.prefix_append p.toList r.toList)
    (hlist ▸ List.prefix_append q.toList s.toList) with h' | h'
  · exact h.1 h'
  · exact h.2 h'

/-- A text that is there and does not begin with a digit. -/
def beginsOpen (s : String) : Bool :=
  match s.toList with
  | [] => false
  | c :: _ => !c.isDigit

theorem beginsOpen_append {s : String} (h : beginsOpen s = true) (t : String) :
    beginsOpen (s ++ t) = true := by
  unfold beginsOpen at h ⊢
  rw [String.toList_append]
  cases hs : s.toList with
  | nil => rw [hs] at h; cases h
  | cons c cs => rw [hs] at h; exact h

/-- The digits at the beginning of a text. -/
theorem takeWhile_digits {ds : List Char} (hd : ∀ c ∈ ds, c.isDigit = true) {s : String}
    (hs : beginsOpen s = true) : (ds ++ s.toList).takeWhile Char.isDigit = ds := by
  rw [List.takeWhile_append_of_pos hd]
  unfold beginsOpen at hs
  cases h : s.toList with
  | nil => rw [h] at hs; cases hs
  | cons c cs =>
    rw [h] at hs
    have hc : c.isDigit = false := by simpa using hs
    simp [hc]

end Text

open Text

/-! ## 2. Variables -/

theorem isDigit_of_mem_toDigits {k : Nat} : ∀ c ∈ Nat.toDigits 10 k, c.isDigit = true :=
  fun _ hc => Nat.isDigit_of_mem_toDigits (by decide) (by decide) hc

/-- **A variable can be read off a text** in which something other than a digit follows it. -/
theorem variableName_append_inj {i j : Nat} {s t : String} (hs : beginsOpen s = true)
    (ht : beginsOpen t = true) (h : variableName i ++ s = variableName j ++ t) :
    i = j ∧ s = t := by
  have hlist : Nat.toDigits 10 i ++ s.toList = Nat.toDigits 10 j ++ t.toList := by
    have := congrArg String.toList h
    simpa [String.toList_append, toList_variableName] using this
  have hdigits : Nat.toDigits 10 i = Nat.toDigits 10 j := by
    rw [← takeWhile_digits isDigit_of_mem_toDigits hs, hlist,
      takeWhile_digits isDigit_of_mem_toDigits ht]
  refine ⟨toDigits_inj hdigits, String.toList_inj.mp ?_⟩
  rw [hdigits] at hlist
  exact List.append_cancel_left hlist

/-- Two readings of one line: the variable is the same, and what follows does not part ways. -/
theorem begins_variable_unique {i j : Nat} {p q t : String} (hp : beginsOpen p = true)
    (hq : beginsOpen q = true) (h : Begins (variableName i ++ p) t)
    (h' : Begins (variableName j ++ q) t) : i = j ∧ apart p q = false := by
  obtain ⟨r, rfl⟩ := h
  obtain ⟨r', e⟩ := h'
  rw [String.append_assoc, String.append_assoc] at e
  obtain ⟨rfl, hrest⟩ :=
    variableName_append_inj (beginsOpen_append hp r) (beginsOpen_append hq r') e
  refine ⟨rfl, Bool.eq_false_iff.mpr fun ha => ?_⟩
  exact Begins.unique ha (Begins.append p r) ⟨r', hrest⟩

/-- A line does not begin in two ways that part after the variable. -/
theorem not_begins_of_apart {i j : Nat} {p q t : String} (hp : beginsOpen p = true)
    (hq : beginsOpen q = true) (ha : apart p q = true) (h : Begins (variableName i ++ p) t) :
    ¬ Begins (variableName j ++ q) t := by
  intro h'
  rw [(begins_variable_unique hp hq h h').2] at ha
  cases ha

/-- A word that cannot be taken for the beginning of a variable. -/
def isForeign (w : String) : Bool :=
  match w.toList with
  | [] => false
  | 'a' :: [] => false
  | 'a' :: c :: _ => !c.isDigit
  | _ => true

theorem not_begins_variable {w t : String} (h : isForeign w = true) (hw : Begins w t) (i : Nat) :
    ¬ Begins (variableName i) t := by
  rintro ⟨s, hs⟩
  obtain ⟨r, rfl⟩ := hw
  have hlist : w.toList ++ r.toList = 'a' :: (Nat.toDigits 10 i ++ s.toList) := by
    have := congrArg String.toList hs
    simpa [String.toList_append, toList_variableName] using this
  obtain ⟨d, ds, hd⟩ : ∃ d ds, Nat.toDigits 10 i = d :: ds :=
    List.exists_cons_of_ne_nil Nat.toDigits_ne_nil
  have hdigit : d.isDigit = true := isDigit_of_mem_toDigits d (hd ▸ List.mem_cons_self)
  rw [hd, List.cons_append] at hlist
  -- a variable begins with `a` and a digit, and `isForeign` looks at no more than two characters
  unfold isForeign at h
  split at h
  · cases h
  · cases h
  · rename_i c cs hc
    rw [hc, List.cons_append, List.cons_append] at hlist
    obtain ⟨-, e⟩ := List.cons.inj hlist
    obtain ⟨rfl, -⟩ := List.cons.inj e
    rw [hdigit] at h
    cases h
  · rename_i hnil hone htwo
    cases hw : w.toList with
    | nil => exact hnil hw
    | cons c cs =>
      rw [hw, List.cons_append] at hlist
      obtain ⟨rfl, -⟩ := List.cons.inj hlist
      cases cs with
      | nil => exact hone hw
      | cons c' cs => exact htwo c' cs hw

end InfraDiagram
