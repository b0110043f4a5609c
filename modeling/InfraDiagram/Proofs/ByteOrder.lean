import Mathlib.Data.List.Basic

/-!
# The order of texts is that of their bytes

Texts are compared character by character. In UTF-8 a character of a larger code has either a larger
first byte, or the same first byte and then larger digits to the base 64 (`lex_continued`), so that
comparing bytes gives the same (`bytes_lex_of_lt`).
-/

namespace InfraDiagram.Text

/-- The bytes of a text. -/
def bytes (s : String) : List UInt8 := s.toUTF8.data.toList

theorem bytes_eq_flatMap (s : String) : bytes s = s.toList.flatMap String.utf8EncodeChar := by
  rw [bytes, String.toUTF8, ← String.utf8Encode_toList, List.utf8Encode,
    List.toList_data_toByteArray]

/-! ## 1. Digits to the base 64 -/

/-- What is left of a code without its last digits. -/
def shortened : Nat → Nat → Nat
  | 0, v => v
  | k + 1, v => shortened k (v / 64)

/-- The last digits of a code, as bytes that continue a character. -/
def continued : Nat → Nat → List UInt8
  | 0, _ => []
  | k + 1, v => continued k (v / 64) ++ [UInt8.ofNat (v % 64 + 128)]

theorem shortened_le : ∀ {k v w : Nat}, v ≤ w → shortened k v ≤ shortened k w
  | 0, _, _, h => h
  | k + 1, _, _, h => shortened_le (k := k) (Nat.div_le_div_right h)

theorem byte_lt_byte {m n : Nat} (h : m < n) (hn : n < 256) : UInt8.ofNat m < UInt8.ofNat n := by
  rw [UInt8.lt_iff_toNat_lt, UInt8.toNat_ofNat', UInt8.toNat_ofNat']
  omega

theorem lex_append_common {s t : List UInt8} (common : List UInt8) (h : List.Lex (· < ·) s t) :
    List.Lex (· < ·) (common ++ s) (common ++ t) := by
  induction common with
  | nil => exact h
  | cons b common ih => exact .cons ih

/-- Codes that agree but for their last digits compare as these digits. -/
theorem lex_continued : ∀ {k v w : Nat}, v < w → shortened k v = shortened k w →
    ∀ s t : List UInt8, List.Lex (· < ·) (continued k v ++ s) (continued k w ++ t)
  | 0, v, w, lt, same, _, _ => absurd same (Nat.ne_of_lt lt)
  | k + 1, v, w, lt, same, s, t => by
      simp only [continued, List.append_assoc]
      by_cases digit : v / 64 = w / 64
      · rw [digit]
        exact lex_append_common _ (.rel (byte_lt_byte (by omega) (by omega)))
      · exact lex_continued (by omega : v / 64 < w / 64) same _ _

/-- Characters of as many bytes compare as their codes. -/
theorem lex_lead {v w m base : Nat} (k : Nat) (lt : v < w) (hw : shortened k w < m)
    (hm : m + base ≤ 256) (s t : List UInt8) :
    List.Lex (· < ·) (UInt8.ofNat (shortened k v % m + base) :: continued k v ++ s)
      (UInt8.ofNat (shortened k w % m + base) :: continued k w ++ t) := by
  have le : shortened k v ≤ shortened k w := shortened_le (Nat.le_of_lt lt)
  rw [Nat.mod_eq_of_lt hw, Nat.mod_eq_of_lt (Nat.lt_of_le_of_lt le hw)]
  by_cases same : shortened k v = shortened k w
  · rw [same]
    exact .cons (lex_continued lt same s t)
  · exact .rel (byte_lt_byte (by omega) (by omega))

/-! ## 2. Characters and texts -/

theorem lex_encodeChar {c d : Char} (h : c < d) (s t : List UInt8) :
    List.Lex (· < ·) (String.utf8EncodeChar c ++ s) (String.utf8EncodeChar d ++ t) := by
  have lt : c.val.toNat < d.val.toNat := h
  have bound : d.val.toNat < 1114112 := by
    rcases d.valid with below | above
    · exact Nat.lt_trans below (by decide)
    · exact above.2
  unfold String.utf8EncodeChar
  generalize c.val.toNat = v at lt ⊢
  generalize d.val.toNat = w at lt bound ⊢
  -- One case for each number of bytes of the larger character; a smaller character has as many
  -- bytes, or fewer and then a smaller first byte.
  dsimp only
  by_cases w₁ : w ≤ 127
  · rw [if_pos (by omega : v ≤ 127), if_pos w₁]
    exact .rel (byte_lt_byte lt (by omega))
  rw [if_neg w₁]
  by_cases v₁ : v ≤ 127
  · rw [if_pos v₁]
    split <;> try split
    all_goals exact .rel (byte_lt_byte (by omega) (by omega))
  rw [if_neg v₁]
  by_cases w₂ : w ≤ 2047
  · rw [if_pos (by omega : v ≤ 2047), if_pos w₂]
    have few : shortened 1 w < 32 := by
      simp only [shortened]
      omega
    simpa [shortened, continued, Nat.div_div_eq_div_mul] using
      lex_lead 1 lt few (by decide : 32 + 192 ≤ 256) s t
  rw [if_neg w₂]
  by_cases v₂ : v ≤ 2047
  · rw [if_pos v₂]
    split
    all_goals exact .rel (byte_lt_byte (by omega) (by omega))
  rw [if_neg v₂]
  by_cases w₃ : w ≤ 65535
  · rw [if_pos (by omega : v ≤ 65535), if_pos w₃]
    have few : shortened 2 w < 16 := by
      simp only [shortened]
      omega
    simpa [shortened, continued, Nat.div_div_eq_div_mul] using
      lex_lead 2 lt few (by decide : 16 + 224 ≤ 256) s t
  rw [if_neg w₃]
  by_cases v₃ : v ≤ 65535
  · rw [if_pos v₃]
    exact .rel (byte_lt_byte (by omega) (by omega))
  · rw [if_neg v₃]
    have few : shortened 3 w < 8 := by
      simp only [shortened]
      omega
    simpa [shortened, continued, Nat.div_div_eq_div_mul] using
      lex_lead 3 lt few (by decide : 8 + 240 ≤ 256) s t

/-- **A smaller text has the smaller bytes.** -/
theorem bytes_lex_of_lt {a b : String} (h : a < b) : List.Lex (· < ·) (bytes a) (bytes b) := by
  have texts : ∀ {cs ds : List Char}, List.Lex (· < ·) cs ds →
      List.Lex (· < ·) (cs.flatMap String.utf8EncodeChar) (ds.flatMap String.utf8EncodeChar) := by
    intro cs ds h
    induction h with
    | @nil d ds =>
      obtain ⟨x, xs, e⟩ := List.exists_cons_of_ne_nil (String.utf8EncodeChar_ne_nil (c := d))
      rw [List.flatMap_cons, e]
      exact .nil
    | rel lt => exact lex_encodeChar lt _ _
    | @cons c cs ds _ ih =>
      rw [List.flatMap_cons, List.flatMap_cons]
      exact lex_append_common _ ih
  rw [bytes_eq_flatMap, bytes_eq_flatMap]
  exact texts h

end InfraDiagram.Text
