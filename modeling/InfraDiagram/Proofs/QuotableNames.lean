import InfraDiagram.Proofs.Allocation
import InfraDiagram.Proofs.Escapes

/-!
# Registered names can be quoted as they are

The names of resources and satellites are put between quotes without escapes. That is safe because
of the characters they are made of: a name is cleaned first, then only blanks at its ends are taken
off, and neither a number nor the suffix of a satellite brings in anything else.

Of the many characters that trimming takes off only the blank is left by cleaning
(`isBlankChar_iff_of_isResourceChar`), so the order of the two matters: a tab at the end of a name
becomes `_` and stays. `Strips` tells what trimming does to a cleaned name, and `run_forall` carries
what holds of every new symbol through all runs.
-/

namespace InfraDiagram

/-! ## 1. Trimming -/

namespace Text

/-- Trimming takes blanks off both ends. -/
theorem trimChars_split (cs : List Char) : ∃ before after, cs = before ++ trimChars cs ++ after ∧
    (∀ c ∈ before, isBlankChar c = true) ∧ ∀ c ∈ after, isBlankChar c = true := by
  let rest := cs.dropWhile isBlankChar
  refine ⟨cs.takeWhile isBlankChar, (rest.reverse.takeWhile isBlankChar).reverse, ?_,
    fun c hc => List.mem_takeWhile_imp hc,
    fun c hc => List.mem_takeWhile_imp (List.mem_reverse.mp hc)⟩
  have tail : trimChars cs ++ (rest.reverse.takeWhile isBlankChar).reverse = rest := by
    unfold trimChars
    rw [← List.reverse_append, List.takeWhile_append_dropWhile, List.reverse_reverse]
  rw [List.append_assoc, tail, List.takeWhile_append_dropWhile]

/-- Nothing blank is left at the end. -/
theorem isBlankChar_of_getLast?_trimChars {cs : List Char} {c : Char}
    (h : (trimChars cs).getLast? = some c) : isBlankChar c = false := by
  unfold trimChars at h
  rw [List.getLast?_reverse] at h
  have := List.head?_dropWhile_not isBlankChar (cs.dropWhile isBlankChar).reverse
  rw [h] at this
  exact this

/-- Nothing blank is left at the beginning. -/
theorem isBlankChar_of_head?_trimChars {cs : List Char} {c : Char}
    (h : (trimChars cs).head? = some c) : isBlankChar c = false := by
  have begins : trimChars cs <+: cs.dropWhile isBlankChar := by
    unfold trimChars
    rw [← List.reverse_suffix, List.reverse_reverse]
    exact List.dropWhile_suffix isBlankChar
  obtain ⟨after, e⟩ := begins
  have first : (cs.dropWhile isBlankChar).head? = some c := by
    rw [← e, List.head?_append, h]
    rfl
  have := List.head?_dropWhile_not isBlankChar cs
  rw [first] at this
  exact this

/-- Trimming leaves a text as it is that has no blanks at its ends. -/
theorem trimChars_eq_self {cs : List Char} (first : ∀ c, cs.head? = some c → isBlankChar c = false)
    (last : ∀ c, cs.getLast? = some c → isBlankChar c = false) : trimChars cs = cs := by
  have kept : ∀ {ds : List Char}, (∀ c, ds.head? = some c → isBlankChar c = false) →
      ds.dropWhile isBlankChar = ds := by
    intro ds h
    cases ds with
    | nil => rfl
    | cons d ds => rw [List.dropWhile_cons, h d rfl]; rfl
  unfold trimChars
  rw [kept first, kept (by rw [List.head?_reverse]; exact last), List.reverse_reverse]

end Text

/-! ## 2. Cleaned names -/

/-- Of the characters that can be registered, only one is blank. -/
theorem isBlankChar_iff_of_isResourceChar {c : Char} (h : isResourceChar c = true) :
    Text.isBlankChar c = true ↔ c = ' ' := by
  refine ⟨fun blank => ?_, fun e => by rw [e]; rfl⟩
  delta isResourceChar Text.isNameChar Char.isAlphanum Char.isAlpha Char.isUpper Char.isLower
    Char.isDigit at h
  simp only [ge_iff_le, Bool.or_eq_true, Bool.and_eq_true, decide_eq_true_eq, beq_iff_eq,
    UInt32.le_iff_toNat_le] at h
  simp only [Text.isBlankChar, Bool.or_eq_true, Bool.and_eq_true, decide_eq_true_eq, beq_iff_eq,
    Char.toNat] at blank
  rcases h with ((((h | h) | h) | rfl) | rfl) | h
  · change 65 ≤ c.val.toNat ∧ c.val.toNat ≤ 90 at h
    omega
  · change 97 ≤ c.val.toNat ∧ c.val.toNat ≤ 122 at h
    omega
  · change 48 ≤ c.val.toNat ∧ c.val.toNat ≤ 57 at h
    omega
  · revert blank
    decide
  · revert blank
    decide
  · exact h

/-- A name with every character that cannot be registered made `_`. -/
def cleaned (name : String) : List Char :=
  name.toList.map fun c => if isResourceChar c then c else '_'

theorem isResourceChar_of_mem_cleaned {name : String} {c : Char} (h : c ∈ cleaned name) :
    isResourceChar c = true := by
  obtain ⟨d, -, rfl⟩ := List.mem_map.mp h
  split
  · assumption
  · rfl

/-- **The blanks at both ends are taken off**, all of them and nothing else. -/
structure Strips (cs out : List Char) : Prop where
  inside : ∃ before after, cs = List.replicate before ' ' ++ out ++ List.replicate after ' '
  first : out.head? ≠ some ' '
  last : out.getLast? ≠ some ' '

theorem strips_trimChars {cs : List Char} (h : ∀ c ∈ cs, isResourceChar c = true) :
    Strips cs (Text.trimChars cs) := by
  obtain ⟨before, after, split, hbefore, hafter⟩ := Text.trimChars_split cs
  have blanks : ∀ {ds : List Char}, (∀ c ∈ ds, c ∈ cs) → (∀ c ∈ ds, Text.isBlankChar c = true) →
      ds = List.replicate ds.length ' ' := fun sub blank =>
    List.eq_replicate_of_mem fun c hc =>
      (isBlankChar_iff_of_isResourceChar (h c (sub c hc))).mp (blank c hc)
  have hb := blanks (fun c hc => by rw [split]; simp [hc]) hbefore
  have ha := blanks (fun c hc => by rw [split]; simp [hc]) hafter
  refine ⟨⟨before.length, after.length, by rw [← hb, ← ha]; exact split⟩, fun e => ?_, fun e => ?_⟩
  · cases Text.isBlankChar_of_head?_trimChars e
  · cases Text.isBlankChar_of_getLast?_trimChars e

/-- **A name that can be registered**: it is not empty, and made of ASCII letters, digits, `_`, `-`
    and blanks. -/
structure Registrable (name : String) : Prop where
  nonempty : name ≠ ""
  chars : ∀ c ∈ name.toList, isResourceChar c = true

/-- A name that can be registered, with no blank at its ends. -/
structure Presentable (name : String) : Prop extends Registrable name where
  first : name.toList.head? ≠ some ' '
  last : name.toList.getLast? ≠ some ' '

theorem sanitize_eq_ite (name fallback : String) :
    sanitize name fallback = if Text.trimChars (cleaned name) = [] then fallback
      else String.ofList (Text.trimChars (cleaned name)) := by
  unfold sanitize
  simp only
  split
  · rename_i nothing
    exact (if_pos nothing).symm
  · rename_i some_left
    exact (if_neg some_left).symm

/-- **What a cleaned name is**: the characters that were kept or replaced, without the blanks at the
    ends, or the fallback if that is nothing. -/
theorem sanitize_eq (name fallback : String) : ∃ out, Strips (cleaned name) out ∧
    sanitize name fallback = if out = [] then fallback else String.ofList out :=
  ⟨_, strips_trimChars fun _ hc => isResourceChar_of_mem_cleaned hc, sanitize_eq_ite name fallback⟩

theorem sanitize_presentable (name : String) {fallback : String} (h : Presentable fallback) :
    Presentable (sanitize name fallback) := by
  obtain ⟨out, strips, e⟩ := sanitize_eq name fallback
  rw [e]
  split
  · exact h
  · rename_i some_left
    obtain ⟨before, after, split⟩ := strips.inside
    refine ⟨⟨fun none_left => some_left (String.ofList_eq_empty_iff.mp none_left), fun c hc => ?_⟩,
      ?_, ?_⟩
    · rw [String.toList_ofList] at hc
      exact isResourceChar_of_mem_cleaned (by rw [split]; simp [hc])
    · rw [String.toList_ofList]
      exact strips.first
    · rw [String.toList_ofList]
      exact strips.last

/-- What needs no cleaning is left as it is, whatever the fallback. -/
theorem Presentable.sanitize_eq_self {name : String} (h : Presentable name) (fallback : String) :
    sanitize name fallback = name := by
  have same : cleaned name = name.toList := by
    unfold cleaned
    refine (List.map_congr_left fun c hc => ?_).trans (List.map_id _)
    rw [if_pos (h.chars c hc)]
    rfl
  have blank : ∀ {c : Char}, c ∈ name.toList → c ≠ ' ' → Text.isBlankChar c = false :=
    fun hc hne => Bool.eq_false_iff.mpr fun hb =>
      hne ((isBlankChar_iff_of_isResourceChar (h.chars _ hc)).mp hb)
  have trimmed : Text.trimChars (cleaned name) = name.toList := by
    rw [same]
    refine Text.trimChars_eq_self (fun c hc => blank (List.mem_of_head? hc) ?_)
      (fun c hc => blank (List.mem_of_getLast? hc) ?_)
    · rintro rfl
      exact h.first hc
    · rintro rfl
      exact h.last hc
  have some_left : name.toList ≠ [] := fun e => h.nonempty (String.toList_eq_nil_iff.mp e)
  rw [sanitize_eq_ite, trimmed, if_neg some_left, String.ofList_toList]

theorem presentable_label (kind : NodeKind) : Presentable kind.label := by
  refine ⟨⟨?_, List.all_eq_true.mp ?_⟩, ?_, ?_⟩ <;> cases kind <;> decide

/-! ## 3. Names that are given out -/

theorem Registrable.append {name suffix : String} (h : Registrable name)
    (hs : suffix.toList.all isResourceChar = true) : Registrable (name ++ suffix) := by
  refine ⟨fun e => h.nonempty (String.append_eq_empty_iff.mp e).1, fun c hc => ?_⟩
  rw [String.toList_append] at hc
  rcases List.mem_append.mp hc with hc | hc
  · exact h.chars c hc
  · exact List.all_eq_true.mp hs c hc

theorem Registrable.satellite {s : Symbol} (h : Registrable s.resource) (k : Satellite) :
    Registrable (s.satellite k).resource :=
  h.append (by cases k <;> decide)

/-- A name that can be registered has nothing to escape. -/
theorem Registrable.escape_eq_self {name : String} (h : Registrable name) :
    Literal.escape name = name := by
  have single : ∀ c ∈ name.toList, Literal.escapeChar c = [c] := by
    intro c hc
    have ok := h.chars c hc
    have differs : ∀ d, isResourceChar d = false → (c == d) = false := by
      intro d hd
      refine beq_eq_false_iff_ne.mpr ?_
      rintro rfl
      rw [ok] at hd
      cases hd
    simp [Literal.escapeChar, differs '\r' rfl, differs '\n' rfl, differs '\\' rfl, differs '"' rfl,
      differs '\'' rfl]
  unfold Literal.escape
  rw [List.flatMap_congr single, List.flatMap_singleton', String.ofList_toList]

namespace Allocator

theorem registrable_candidate {base : String} (h : Registrable base) (scheme : NamingScheme)
    (k : Nat) : Registrable (candidate scheme base k) := by
  refine ⟨?_, isResourceChar_of_mem_candidate k h.chars⟩
  have numbered : ∀ j : Nat, base ++ toString j ≠ "" := fun j e =>
    h.nonempty (String.append_eq_empty_iff.mp e).1
  unfold candidate
  cases scheme with
  | counted => exact numbered (k + 1)
  | bare =>
    simp only
    split
    · exact h.nonempty
    · exact numbered k

theorem registrable_nextSymbol (a : Allocator) {base : String} (h : Registrable base) :
    Registrable (a.nextSymbol base).1.resource := by
  obtain ⟨i, e⟩ := exists_search_eq a.scheme a.taken base (2 * a.taken.length) (a.counter base)
  show Registrable (search a.scheme a.taken base (2 * a.taken.length) (a.counter base)).1
  rw [e]
  exact registrable_candidate h a.scheme _

/-- **What holds of every symbol for a cleaned name holds of all symbols of a run.** -/
theorem run_forall {P : Symbol → Prop}
    (new : ∀ (a : Allocator) (name : String) (kind : NodeKind),
      P (a.nextSymbol (sanitize name kind.label)).1) : ∀ (calls : List Call) {a : Allocator},
    (∀ s ∈ a.table.symbols, P s) →
    (∀ s ∈ (a.run calls).1, P s) ∧ ∀ s ∈ (a.run calls).2.table.symbols, P s
  | [], _, h => ⟨List.forall_mem_nil _, h⟩
  | c :: calls, a, h => by
      have served : P (a.serve c).1 ∧ ∀ s ∈ (a.serve c).2.table.symbols, P s := by
        rcases serve_eq a c with ⟨s, hs, e⟩ | ⟨name, kind, table, e, all⟩
        · rw [e]
          exact ⟨h s hs, h⟩
        · rw [e]
          refine ⟨new a name kind, fun s hs => ?_⟩
          rcases all s hs with hs | rfl
          · exact h s hs
          · exact new a name kind
      obtain ⟨answers, table⟩ := run_forall new calls served.2
      exact ⟨List.forall_mem_cons.mpr ⟨served.1, answers⟩, table⟩

/-- **Registered names can be quoted as they are.** A name is cleaned into one that can be
    registered, with its characters kept or replaced one by one, and cleaning it again changes
    nothing; so in every run the names of resources and satellites can be registered and have
    nothing to escape. -/
theorem names_are_quotable :
    (∀ name fallback, Presentable fallback →
      Presentable (sanitize name fallback) ∧
      (∃ out, Strips (cleaned name) out ∧
        sanitize name fallback = if out = [] then fallback else String.ofList out) ∧
      ∀ other, sanitize (sanitize name fallback) other = sanitize name fallback) ∧
    ∀ scheme calls, ∀ s, s ∈ (run { scheme } calls).1 ∨ s ∈ (run { scheme } calls).2.table.symbols →
      (Registrable s.resource ∧ Literal.escape s.resource = s.resource) ∧
      ∀ k : Satellite, Registrable (s.satellite k).resource ∧
        Literal.escape (s.satellite k).resource = (s.satellite k).resource := by
  refine ⟨fun name fallback h => ?_, fun scheme calls s hs => ?_⟩
  · have clean := sanitize_presentable name h
    exact ⟨clean, sanitize_eq name fallback, clean.sanitize_eq_self⟩
  · have all := run_forall (P := fun s => Registrable s.resource)
      (fun a name kind => registrable_nextSymbol a
        (sanitize_presentable name (presentable_label kind)).toRegistrable)
      calls (a := { scheme }) (List.forall_mem_nil _)
    have own : Registrable s.resource := by
      rcases hs with hs | hs
      · exact all.1 s hs
      · exact all.2 s hs
    exact ⟨⟨own, own.escape_eq_self⟩,
      fun k => ⟨own.satellite k, (own.satellite k).escape_eq_self⟩⟩

/-- A tab and an accented letter are replaced, and only the blanks at the ends go. -/
theorem spaced_name_is_quotable :
    Presentable "Instance" ∧ sanitize " \tw\u00e9b's  " "Instance" = "_w_b_s" ∧
      Presentable "_w_b_s" ∧ sanitize "_w_b_s" "Bucket" = "_w_b_s" := by
  have written : sanitize " \tw\u00e9b's  " "Instance" = "_w_b_s" := by decide
  have label : Presentable "Instance" := presentable_label .server
  obtain ⟨clean, -, again⟩ := names_are_quotable.1 " \tw\u00e9b's  " "Instance" label
  rw [written] at clean again
  exact ⟨label, written, clean, again "Bucket"⟩

end Allocator

end InfraDiagram
