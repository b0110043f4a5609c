/-!
# Blank characters, trimming and the letter case of ASCII

A diagram's texts come from people, so "empty" means "nothing but blanks" in most places. The
blanks are the characters with the Unicode property `White_Space`; the zero-width space, the
byte order mark and the ASCII separators `\x1c`..`\x1f` are not among them.

Names of services and database engines are compared without regard to the case of the ASCII
letters; every other letter counts as it stands.
-/

namespace InfraDiagram.Text

/-! ## 1. Blanks -/

/-- The characters with the Unicode property `White_Space`. -/
def isBlankChar (c : Char) : Bool :=
  let n := c.toNat
  (0x9 ≤ n && n ≤ 0xD) || n == 0x20 || n == 0x85 || n == 0xA0 || n == 0x1680
    || (0x2000 ≤ n && n ≤ 0x200A) || n == 0x2028 || n == 0x2029 || n == 0x202F || n == 0x205F
    || n == 0x3000

/-- A list of characters without the blanks at both of its ends. -/
def trimChars (cs : List Char) : List Char :=
  ((cs.dropWhile isBlankChar).reverse.dropWhile isBlankChar).reverse

/-- A text without the blanks at both of its ends. -/
def trim (s : String) : String := String.ofList (trimChars s.toList)

/-- Nothing but blanks, or nothing at all. -/
def isBlank (s : String) : Bool := s.toList.all isBlankChar

/-- The text itself, unless it is blank. -/
def nonBlank? (s : String) : Option String := if isBlank s then none else some s

theorem nonBlank?_eq_some_iff (s t : String) :
    nonBlank? s = some t ↔ isBlank s = false ∧ t = s := by
  unfold nonBlank?
  cases isBlank s with
  | true => simp
  | false => exact ⟨fun h => ⟨rfl, (Option.some.inj h).symm⟩, fun h => congrArg some h.2.symm⟩

/-! ## 2. Letter case -/

/-- The text with its ASCII capitals made small. -/
def lower (s : String) : String := String.ofList (s.toList.map Char.toLower)

/-- Equality up to the case of ASCII letters. -/
def sameFolded (s t : String) : Bool := lower s == lower t

theorem sameFolded_refl (s : String) : sameFolded s s = true := by simp [sameFolded]

theorem sameFolded_comm (s t : String) : sameFolded s t = sameFolded t s := by
  simp only [sameFolded]
  exact Bool.beq_comm

/-! ## 3. Names made of ASCII letters, digits and a few marks -/

/-- ASCII letters, digits, `_` and `-`: the characters a stack name may have. -/
def isNameChar (c : Char) : Bool := c.isAlphanum || c == '_' || c == '-'

/-- An ASCII identifier: a letter or `_`, then letters, digits and `_`. -/
def isIdentifier (s : String) : Bool :=
  match s.toList with
  | [] => false
  | c :: cs => (c.isAlpha || c == '_') && cs.all fun d => d.isAlphanum || d == '_'

theorem isAlphanum_of_isIdentifier {s : String} (h : isIdentifier s = true) :
    ∀ c ∈ s.toList, (c.isAlphanum || c == '_') = true := by
  unfold isIdentifier at h
  split at h
  · cases h
  · rename_i c cs e
    rw [Bool.and_eq_true, List.all_eq_true] at h
    rw [e]
    refine List.forall_mem_cons.mpr ⟨?_, h.2⟩
    rcases Bool.or_eq_true_iff.mp h.1 with h | h
    · simp [Char.isAlphanum, h]
    · simp [h]

end InfraDiagram.Text
