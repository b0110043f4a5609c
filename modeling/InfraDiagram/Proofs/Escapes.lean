import InfraDiagram.Proofs.Layout

/-!
# Escaped text is one literal

A literal is read from behind its opening quote up to the quote that ends it (`body?`); a quote
after a backslash does not. What may stand between the quotes is also told by rules (`Body`), and a
literal is read exactly if it keeps to them (`body?_eq_some_iff`). Another pass takes the escapes
out of what was read (`decode?`).

Every escaped text keeps to the rules, for quotes of both kinds, whatever runs of backslashes,
quotes and line ends the text has, and decoding it gives the text without its carriage returns. So
carriage returns are all that is lost (`escape_eq_escape_iff`).
-/

namespace InfraDiagram.Literal

open Reading (isQuote isBreak isPlain)

/-! ## 1. Reading a literal -/

/-- What stands in a literal, and what is left from its closing quote on. After a backslash
    (`escaped`), every character but a line break stands for something in the literal. -/
def body? (q : Char) : (escaped : Bool) → List Char → Option (List Char × List Char)
  | _, [] => none
  | true, c :: cs =>
    if isBreak c then none else (body? q false cs).map fun r => (c :: r.1, r.2)
  | false, c :: cs =>
    if isBreak c then none
    else if c == q then some ([], c :: cs)
    else (body? q (c == '\\') cs).map fun r => (c :: r.1, r.2)

/-- The text that a literal means, unless it has an escape other than those of backslashes, quotes
    and line feeds. -/
def decode? : (escaped : Bool) → List Char → Option (List Char)
  | false, [] => some []
  | true, [] => none
  | true, c :: cs => (unescape? c).bind fun d => (decode? false cs).map (d :: ·)
  | false, c :: cs => if c == '\\' then decode? true cs else (decode? false cs).map (c :: ·)

/-- **What may stand between quotes**: plain characters, and pairs of a backslash and any character
    that is not a line break. -/
inductive Body (q : Char) : List Char → Prop where
  | nil : Body q []
  | plain {c : Char} {cs : List Char} (h : isPlain q c = true) (rest : Body q cs) : Body q (c :: cs)
  | pair {c : Char} {cs : List Char} (h : isBreak c = false) (rest : Body q cs) :
      Body q ('\\' :: c :: cs)

variable {q : Char}

theorem Body.append {cs ds : List Char} (h : Body q cs) (h' : Body q ds) : Body q (cs ++ ds) := by
  induction h with
  | nil => exact h'
  | plain h _ ih => exact .plain h ih
  | pair h _ ih => exact .pair h ih

/-- Nothing that stands between quotes breaks the line. -/
theorem Body.isBreak_of_mem {cs : List Char} (h : Body q cs) : ∀ c ∈ cs, isBreak c = false := by
  induction h with
  | nil => exact List.forall_mem_nil _
  | plain h _ ih =>
    simp only [isPlain, Bool.and_eq_true, Bool.not_eq_true'] at h
    exact List.forall_mem_cons.mpr ⟨h.2, ih⟩
  | pair h _ ih => exact List.forall_mem_cons.mpr ⟨rfl, List.forall_mem_cons.mpr ⟨h, ih⟩⟩

/-- What keeps to the rules is read up to the quote after it, whatever follows. -/
theorem body?_of_body (hq : isQuote q = true) {inner : List Char} (h : Body q inner)
    (tail : List Char) : body? q false (inner ++ q :: tail) = some (inner, q :: tail) := by
  have hq : q = '\'' ∨ q = '"' := by simpa [isQuote] using hq
  induction h with
  | nil =>
    have whole : isBreak q = false := by rcases hq with rfl | rfl <;> rfl
    simp [body?, whole]
  | @plain c cs h _ ih =>
    simp only [isPlain, Bool.and_eq_true, bne_iff_ne, Bool.not_eq_true'] at h
    have other : (c == '\\') = false := beq_eq_false_iff_ne.mpr h.1.2
    simp [body?, h, other, ih]
  | pair h _ ih =>
    have slash : ('\\' == q) = false := by rcases hq with rfl | rfl <;> rfl
    have whole : isBreak '\\' = false := rfl
    simp [body?, h, slash, whole, ih]

/-- What is read keeps to the rules. Just after a backslash, it is the second character of a pair
    and what keeps to the rules. -/
theorem body_of_body? : ∀ {cs inner rest : List Char},
    (body? q false cs = some (inner, rest) →
      Body q inner ∧ ∃ tail, rest = q :: tail ∧ cs = inner ++ q :: tail) ∧
    (body? q true cs = some (inner, rest) →
      Body q ('\\' :: inner) ∧ ∃ tail, rest = q :: tail ∧ cs = inner ++ q :: tail)
  | [], _, _ => ⟨fun h => (by cases h), fun h => (by cases h)⟩
  | c :: cs, inner, rest => by
      refine ⟨fun h => ?_, fun h => ?_⟩
      · rw [body?] at h
        split at h
        · cases h
        · rename_i whole
          split at h
          · rename_i last
            cases h
            exact ⟨.nil, cs, by rw [beq_iff_eq.mp last], by rw [beq_iff_eq.mp last]; rfl⟩
          · rename_i other
            obtain ⟨⟨inner', rest'⟩, found, e⟩ := Option.map_eq_some_iff.mp h
            cases e
            cases slash : c == '\\' with
            | true =>
              rw [slash] at found
              obtain ⟨body, tail, left, split⟩ := body_of_body?.2 found
              rw [beq_iff_eq.mp slash]
              exact ⟨body, tail, left, congrArg _ split⟩
            | false =>
              rw [slash] at found
              obtain ⟨body, tail, left, split⟩ := body_of_body?.1 found
              refine ⟨.plain ?_ body, tail, left, congrArg _ split⟩
              simp only [isPlain, bne, other, slash, whole, Bool.not_false, Bool.and_true]
      · rw [body?] at h
        split at h
        · cases h
        · rename_i whole
          obtain ⟨⟨inner', rest'⟩, found, e⟩ := Option.map_eq_some_iff.mp h
          cases e
          obtain ⟨body, tail, left, split⟩ := body_of_body?.1 found
          exact ⟨.pair (by simpa using whole) body, tail, left, congrArg _ split⟩

/-- **A literal is read exactly if it keeps to the rules**, up to the first quote that ends it. -/
theorem body?_eq_some_iff (hq : isQuote q = true) {cs inner rest : List Char} :
    body? q false cs = some (inner, rest) ↔
      Body q inner ∧ ∃ tail, rest = q :: tail ∧ cs = inner ++ q :: tail := by
  refine ⟨body_of_body?.1, ?_⟩
  rintro ⟨body, tail, rfl, rfl⟩
  exact body?_of_body hq body tail

/-! ## 2. Escaped texts -/

theorem body_escape (hq : isQuote q = true) (text : String) : Body q (escape text).toList := by
  rw [escape, String.toList_ofList]
  induction text.toList with
  | nil => exact .nil
  | cons c cs ih =>
    rw [List.flatMap_cons]
    refine Body.append ?_ ih
    rcases escapeChar_cases c with ⟨-, e⟩ | ⟨-, d, -, whole, e⟩ | ⟨-, plain, e⟩
    · rw [e]
      exact .nil
    · rw [e]
      exact .pair whole .nil
    · rw [e]
      exact .plain (plain q hq) .nil

theorem decode?_escapeChar (c : Char) (cs : List Char) :
    decode? false (escapeChar c ++ cs) =
      (decode? false cs).map ([c].filter (· != '\r') ++ ·) := by
  rcases escapeChar_cases c with ⟨rfl, e⟩ | ⟨kept, d, means, -, e⟩ | ⟨kept, plain, e⟩
  · rw [e]
    exact Option.map_id'.symm
  · rw [e, kept]
    simp [decode?, means]
  · have other : (c == '\\') = false := by
      have := plain '"' rfl
      simp only [isPlain, Bool.and_eq_true, bne_iff_ne] at this
      exact beq_eq_false_iff_ne.mpr this.1.2
    rw [e, kept]
    simp [decode?, other]

/-- Decoding an escaped text gives the text, without its carriage returns. -/
theorem decode?_escape (text : String) :
    decode? false (escape text).toList = some (withoutReturns text).toList := by
  rw [escape, withoutReturns, String.toList_ofList, String.toList_ofList]
  induction text.toList with
  | nil => rfl
  | cons c cs ih =>
    have split : (c :: cs).filter (· != '\r') = [c].filter (· != '\r') ++ cs.filter (· != '\r') :=
      List.filter_append [c] cs
    rw [List.flatMap_cons, decode?_escapeChar, ih, split]
    rfl

/-- Carriage returns are written as nothing. -/
theorem escape_withoutReturns (text : String) : escape (withoutReturns text) = escape text := by
  unfold escape withoutReturns
  rw [String.toList_ofList]
  congr 1
  induction text.toList with
  | nil => rfl
  | cons c cs ih =>
    by_cases h : c = '\r'
    · rw [h]
      exact ih
    · rw [List.filter_cons_of_pos (by simpa using h), List.flatMap_cons, List.flatMap_cons, ih]

/-- **Escaped texts are equal exactly if the texts are, carriage returns apart.** -/
theorem escape_eq_escape_iff {s t : String} :
    escape s = escape t ↔ withoutReturns s = withoutReturns t := by
  constructor
  · intro h
    have decoded := decode?_escape s
    rw [h, decode?_escape t] at decoded
    exact (String.toList_inj.mp (Option.some.inj decoded)).symm
  · intro h
    rw [← escape_withoutReturns s, h, escape_withoutReturns]

/-- **An escaped text is one literal that means the text**: between quotes of either kind it is read
    up to the quote after it, it breaks no line, and its escapes decode to the text without carriage
    returns, which are all that two texts with the same escapes can differ in. -/
theorem escape_is_faithful {q : Char} (hq : isQuote q = true) (text : String) (rest : List Char) :
    body? q false ((escape text).toList ++ q :: rest) = some ((escape text).toList, q :: rest) ∧
      (∀ c ∈ (escape text).toList, c ≠ '\n' ∧ c ≠ '\r') ∧
      decode? false (escape text).toList = some (withoutReturns text).toList ∧
      ∀ other, escape text = escape other ↔ withoutReturns text = withoutReturns other := by
  have body := body_escape hq text
  refine ⟨(body?_eq_some_iff hq).mpr ⟨body, rest, rfl, rfl⟩, fun c hc => ?_, decode?_escape text,
    fun _ => escape_eq_escape_iff⟩
  simpa [isBreak] using body.isBreak_of_mem c hc

/-- A text with quotes of both kinds, line ends and a backslash at its end. -/
theorem mixed_text_is_faithful :
    isQuote '\'' = true ∧
      escape "it's\r\n\"so\"\\" = "it\\'s\\n\\\"so\\\"\\\\" ∧
      body? '\'' false ("it\\'s\\n\\\"so\\\"\\\\".toList ++ '\'' :: [')', '\'']) =
        some ("it\\'s\\n\\\"so\\\"\\\\".toList, ['\'', ')', '\'']) ∧
      decode? false "it\\'s\\n\\\"so\\\"\\\\".toList = some "it's\n\"so\"\\".toList := by
  have written : escape "it's\r\n\"so\"\\" = "it\\'s\\n\\\"so\\\"\\\\" := by decide
  have meant : withoutReturns "it's\r\n\"so\"\\" = "it's\n\"so\"\\" := by decide
  have faithful := escape_is_faithful (q := '\'') rfl "it's\r\n\"so\"\\" [')', '\'']
  rw [written, meant] at faithful
  exact ⟨rfl, written, faithful.1, faithful.2.2.1⟩

end InfraDiagram.Literal
