import InfraDiagram.Proofs.Reading

/-!
# Lines laid out as code and literals

A line of the stack program is code with texts between quotes in it. A `Layout` lists the texts with
the code between them, quotes included; a text is written as it is, or with escapes. `Scanner` goes
the other way: it takes a line apart into its shell, which is the line with nothing between the
quotes, and what its literals mean. It knows the escapes of backslashes, quotes and line feeds, and
is lost at any other one, at a line break, and in a literal that does not end.

If no text can leave its literal (`Layout.Sound`), a written line is taken apart into the code and
the texts it was made of, apart from carriage returns (`scan?_written`). For raw text this is exact:
it is read back only if nothing in it has a meaning in a literal (`isPlainText_of_scan?`).
-/

namespace InfraDiagram.Literal

open Reading (isQuote isBreak isLost isPlain)

/-! ## 1. Layouts -/

/-- A text in a literal, after some code that ends with a quote. A raw text is written as it is,
    others with escapes. -/
structure Slot where
  lead : String
  text : String
  raw : Bool
  deriving DecidableEq, Repr

/-- A raw text. -/
def Slot.asIs (lead text : String) : Slot := ⟨lead, text, true⟩

/-- A text with escapes. -/
def Slot.escaped (lead text : String) : Slot := ⟨lead, text, false⟩

/-- What stands between the quotes. -/
def Slot.inner (s : Slot) : String := if s.raw then s.text else escape s.text

/-- **The layout of a line with literals**: the texts, and the code after the last one. -/
structure Layout where
  slots : List Slot
  tail : String
  deriving DecidableEq, Repr

namespace Layout

def chars (l : Layout) : List Char :=
  l.slots.flatMap (fun s => s.lead.toList ++ s.inner.toList) ++ l.tail.toList

/-- The line that has a layout. -/
def written (l : Layout) : String := String.ofList l.chars

/-- The line without its texts. -/
def shell (l : Layout) : String :=
  String.ofList (l.slots.flatMap (fun s => s.lead.toList) ++ l.tail.toList)

def texts (l : Layout) : List String := l.slots.map Slot.text

end Layout

/-! ## 2. Taking a line apart -/

/-- A text without its carriage returns. -/
def withoutReturns (s : String) : String := String.ofList (s.toList.filter (· != '\r'))

/-- A line taken apart: the line with nothing between its quotes, and what its literals mean. -/
structure Scan where
  shell : String
  contents : List String
  deriving DecidableEq, Repr

/-- What a character means after a backslash. -/
def unescape? : Char → Option Char
  | '\\' => some '\\'
  | '\'' => some '\''
  | '"' => some '"'
  | 'n' => some '\n'
  | _ => none

/-- How a character is written in a literal: not at all, as a backslash and a character that means
    it after one, or as itself. -/
theorem escapeChar_cases (c : Char) :
    (c = '\r' ∧ escapeChar c = []) ∨
    ([c].filter (· != '\r') = [c] ∧
      ∃ d, unescape? d = some c ∧ isBreak d = false ∧ escapeChar c = ['\\', d]) ∨
    ([c].filter (· != '\r') = [c] ∧ (∀ q, isQuote q = true → isPlain q c = true) ∧
      escapeChar c = [c]) := by
  by_cases h1 : c = '\r'
  · rw [h1]
    exact Or.inl ⟨rfl, rfl⟩
  have kept : [c].filter (· != '\r') = [c] := by simp [h1]
  rw [kept]
  by_cases h2 : c = '\n'
  · rw [h2]
    exact Or.inr (Or.inl ⟨rfl, 'n', rfl, rfl, rfl⟩)
  by_cases h3 : c = '\\'
  · rw [h3]
    exact Or.inr (Or.inl ⟨rfl, '\\', rfl, rfl, rfl⟩)
  by_cases h4 : c = '"'
  · rw [h4]
    exact Or.inr (Or.inl ⟨rfl, '"', rfl, rfl, rfl⟩)
  by_cases h5 : c = '\''
  · rw [h5]
    exact Or.inr (Or.inl ⟨rfl, '\'', rfl, rfl, rfl⟩)
  refine Or.inr (Or.inr ⟨rfl, fun q hq => ?_, by simp [escapeChar, h1, h2, h3, h4, h5]⟩)
  have hq : q = '\'' ∨ q = '"' := by simpa [isQuote] using hq
  rcases hq with rfl | rfl <;> simp [isPlain, isBreak, h1, h2, h3, h4, h5]

/-- Where a scanner is. -/
inductive Mode where
  | code
  /-- Just after a literal. -/
  | closed
  | inside (quote : Char)
  /-- After a backslash in a literal. -/
  | escaped (quote : Char)
  | lost
  deriving DecidableEq, Repr

/-- A scanner: where it is, what it has taken apart, and what the literal it is in has meant so
    far. -/
structure Scanner where
  mode : Mode := .code
  shell : List Char := []
  contents : List String := []
  content : List Char := []
  deriving DecidableEq, Repr

namespace Scanner

/-- One character outside literals. -/
def stepCode (r : Scanner) (c : Char) : Scanner :=
  if isLost c then { r with mode := .lost }
  else { r with mode := if isQuote c then .inside c else .code, shell := r.shell ++ [c] }

/-- One character in a literal. -/
def stepInside (r : Scanner) (q c : Char) : Scanner :=
  if isBreak c then { r with mode := .lost }
  else if c == q then ⟨.closed, r.shell ++ [c], r.contents ++ [String.ofList r.content], []⟩
  else if c == '\\' then { r with mode := .escaped q }
  else { r with content := r.content ++ [c] }

/-- One character after a backslash. -/
def stepEscaped (r : Scanner) (q c : Char) : Scanner :=
  match unescape? c with
  | some d => { r with mode := .inside q, content := r.content ++ [d] }
  | none => { r with mode := .lost }

/-- One character. No literal stands right after another one. -/
def step (r : Scanner) (c : Char) : Scanner :=
  match r.mode with
  | .code => r.stepCode c
  | .closed => if isQuote c then { r with mode := .lost } else r.stepCode c
  | .inside q => r.stepInside q c
  | .escaped q => r.stepEscaped q c
  | .lost => r

def run (r : Scanner) (cs : List Char) : Scanner := cs.foldl step r

/-- Outside literals, where a line may end. -/
def isOutside (r : Scanner) : Bool := r.mode == .code || r.mode == .closed

/-- What the line was taken apart into, if it may end here. -/
def finish? (r : Scanner) : Option Scan :=
  if r.isOutside then some ⟨String.ofList r.shell, r.contents⟩ else none

theorem run_cons (r : Scanner) (c : Char) (cs : List Char) : r.run (c :: cs) = (r.step c).run cs :=
  rfl

theorem run_append (r : Scanner) (cs ds : List Char) : r.run (cs ++ ds) = (r.run cs).run ds :=
  List.foldl_append

end Scanner

/-- A line taken apart, if it can be. -/
def scan? (text : String) : Option Scan := (Scanner.run {} text.toList).finish?

example : scan? "f('it\\'s', x, \"\")" = some ⟨"f('', x, \"\")", ["it's", ""]⟩ := by decide +kernel

example : scan? "f('it's')" = none := by decide +kernel

/-! ## 3. Layouts whose texts cannot leave their literals -/

def isCodeChar (c : Char) : Bool := !isQuote c && !isLost c

/-- Text that can stand outside literals. -/
def isCode (s : String) : Bool := s.toList.all isCodeChar

/-- Text that means itself in a literal. -/
def isPlainText (q : Char) (s : String) : Bool := s.toList.all (isPlain q)

/-- Code that ends with a quote, which begins a literal. -/
def Opens (q : Char) (s : String) : Prop :=
  isQuote q = true ∧ ∃ cs, s.toList = cs ++ [q] ∧ cs.all isCodeChar = true

/-- A quote that ends a literal, and code. -/
def Closes (q : Char) (s : String) : Prop := ∃ cs, s.toList = q :: cs ∧ cs.all isCodeChar = true

/-- A quote that ends a literal, code, and a quote that begins another one. -/
def Turns (q q' : Char) (s : String) : Prop :=
  isQuote q' = true ∧ ∃ c cs, s.toList = q :: c :: (cs ++ [q']) ∧ (c :: cs).all isCodeChar = true

/-- A text that cannot leave a literal. -/
def Slot.Fits (s : Slot) (q : Char) : Prop := s.raw = true → isPlainText q s.text = true

/-- What may follow a text between quotes. -/
inductive Follows : (quote : Char) → List Slot → (tail : String) → Prop where
  | last {q : Char} {tail : String} (closes : Closes q tail) : Follows q [] tail
  | next {q q' : Char} {s : Slot} {slots : List Slot} {tail : String} (turns : Turns q q' s.lead)
      (fits : s.Fits q') (rest : Follows q' slots tail) : Follows q (s :: slots) tail

/-- **A layout whose texts cannot leave their literals.** -/
inductive Layout.Sound : Layout → Prop where
  | mk {q : Char} {s : Slot} {slots : List Slot} {tail : String} (opens : Opens q s.lead)
      (fits : s.Fits q) (rest : Follows q slots tail) : Layout.Sound ⟨s :: slots, tail⟩

/-! ## 4. A written line is taken apart into what it was made of -/

namespace Scanner

variable {S T : List Char} {K : List String} {q : Char}

theorem step_codeChar {c : Char} (h : isCodeChar c = true) {r : Scanner} (hr : r.isOutside = true) :
    r.step c = { r with mode := .code, shell := r.shell ++ [c] } := by
  simp only [isCodeChar, Bool.and_eq_true, Bool.not_eq_true'] at h
  have hm : r.mode = .code ∨ r.mode = .closed := by simpa [isOutside] using hr
  rcases hm with hm | hm <;> simp [step, hm, stepCode, h]

theorem run_code : ∀ {cs S : List Char}, cs.all isCodeChar = true →
    run ⟨.code, S, K, T⟩ cs = ⟨.code, S ++ cs, K, T⟩
  | [], S, _ => by simp [run]
  | c :: cs, S, h => by
      rw [List.all_cons, Bool.and_eq_true] at h
      rw [run_cons, step_codeChar h.1 rfl, run_code h.2, List.append_assoc]
      rfl

theorem step_quote (hq : isQuote q = true) :
    step ⟨.code, S, K, T⟩ q = ⟨.inside q, S ++ [q], K, T⟩ := by
  have hq' : q = '\'' ∨ q = '"' := by simpa [isQuote] using hq
  have known : isLost q = false := by rcases hq' with rfl | rfl <;> rfl
  simp [step, stepCode, known, hq]

theorem step_close (hq : isQuote q = true) :
    step ⟨.inside q, S, K, T⟩ q = ⟨.closed, S ++ [q], K ++ [String.ofList T], []⟩ := by
  have hq : q = '\'' ∨ q = '"' := by simpa [isQuote] using hq
  have whole : isBreak q = false := by rcases hq with rfl | rfl <;> rfl
  simp [step, stepInside, whole]

theorem step_plain {c : Char} (h : isPlain q c = true) :
    step ⟨.inside q, S, K, T⟩ c = ⟨.inside q, S, K, T ++ [c]⟩ := by
  simp only [isPlain, Bool.and_eq_true, bne_iff_ne, Bool.not_eq_true'] at h
  simp [step, stepInside, h]

theorem run_plain : ∀ {cs T : List Char}, cs.all (isPlain q) = true →
    run ⟨.inside q, S, K, T⟩ cs = ⟨.inside q, S, K, T ++ cs⟩
  | [], T, _ => by simp [run]
  | c :: cs, T, h => by
      rw [List.all_cons, Bool.and_eq_true] at h
      rw [run_cons, step_plain h.1, run_plain h.2, List.append_assoc]
      rfl

/-- An escaped character means itself, unless it is a carriage return. -/
theorem run_escapeChar (hq : isQuote q = true) (c : Char) :
    run ⟨.inside q, S, K, T⟩ (escapeChar c) =
      ⟨.inside q, S, K, T ++ [c].filter (· != '\r')⟩ := by
  rcases escapeChar_cases c with ⟨rfl, e⟩ | ⟨kept, d, means, -, e⟩ | ⟨kept, plain, e⟩
  · rw [e]
    simp [run]
  · have slash : step ⟨.inside q, S, K, T⟩ '\\' = ⟨.escaped q, S, K, T⟩ := by
      have hq : q = '\'' ∨ q = '"' := by simpa [isQuote] using hq
      rcases hq with rfl | rfl <;> rfl
    rw [e, kept, run_cons, slash, run_cons]
    show stepEscaped _ q d = _
    rw [stepEscaped, means]
  · rw [e, kept, run_cons, step_plain (plain q hq)]
    rfl

/-- **Escaped text is read back**, without its carriage returns. -/
theorem run_escape (hq : isQuote q = true) : ∀ {cs T : List Char},
    run ⟨.inside q, S, K, T⟩ (cs.flatMap escapeChar) =
      ⟨.inside q, S, K, T ++ cs.filter (· != '\r')⟩
  | [], T => by simp [run]
  | c :: cs, T => by
      have split : (c :: cs).filter (· != '\r') = [c].filter (· != '\r') ++ cs.filter (· != '\r') :=
        List.filter_append [c] cs
      rw [List.flatMap_cons, run_append, run_escapeChar hq, run_escape hq, split, List.append_assoc]

/-- Plain text has no carriage returns. -/
theorem filter_of_plain {cs : List Char} (h : cs.all (isPlain q) = true) :
    cs.filter (· != '\r') = cs := by
  refine List.filter_eq_self.mpr fun c hc => bne_iff_ne.mpr ?_
  rintro rfl
  have := List.all_eq_true.mp h _ hc
  simp [isPlain, isBreak] at this

theorem run_inner {s : Slot} (hq : isQuote q = true) (h : s.Fits q) :
    run ⟨.inside q, S, K, []⟩ s.inner.toList =
      ⟨.inside q, S, K, (withoutReturns s.text).toList⟩ := by
  unfold Slot.inner withoutReturns
  rw [String.toList_ofList]
  split
  · rename_i raw
    have plain := h raw
    unfold isPlainText at plain
    rw [run_plain plain, filter_of_plain plain]
    rfl
  · rw [escape, String.toList_ofList, run_escape hq]
    rfl

theorem run_opens {s : String} (h : Opens q s) :
    run ⟨.code, S, K, T⟩ s.toList = ⟨.inside q, S ++ s.toList, K, T⟩ := by
  obtain ⟨hq, cs, e, code⟩ := h
  rw [e, run_append, run_code code, run_cons, step_quote hq, List.append_assoc]
  rfl

theorem run_closes {s : String} (hq : isQuote q = true) (h : Closes q s) :
    ∃ m, run ⟨.inside q, S, K, T⟩ s.toList = ⟨m, S ++ s.toList, K ++ [String.ofList T], []⟩ ∧
      (m = .code ∨ m = .closed) := by
  obtain ⟨cs, e, code⟩ := h
  rw [e, run_cons, step_close hq]
  cases cs with
  | nil => exact ⟨.closed, rfl, Or.inr rfl⟩
  | cons c cs =>
    rw [List.all_cons, Bool.and_eq_true] at code
    refine ⟨.code, ?_, Or.inl rfl⟩
    rw [run_cons, step_codeChar code.1 rfl, run_code code.2]
    simp

theorem run_turns {q' : Char} {s : String} (hq : isQuote q = true) (h : Turns q q' s) :
    run ⟨.inside q, S, K, T⟩ s.toList =
      ⟨.inside q', S ++ s.toList, K ++ [String.ofList T], []⟩ := by
  obtain ⟨hq', c, cs, e, code⟩ := h
  rw [List.all_cons, Bool.and_eq_true] at code
  rw [e, run_cons, step_close hq, run_cons, step_codeChar code.1 rfl, run_append, run_code code.2,
    run_cons, step_quote hq']
  simp [run]

/-- What follows a text is read as it was written. -/
theorem run_follows {slots : List Slot} {tail : String} (h : Follows q slots tail) :
    ∀ {S T : List Char} {K : List String}, isQuote q = true →
    ∃ m, run ⟨.inside q, S, K, T⟩
        (slots.flatMap (fun s => s.lead.toList ++ s.inner.toList) ++ tail.toList) =
      ⟨m, S ++ (slots.flatMap (fun s => s.lead.toList) ++ tail.toList),
        K ++ String.ofList T :: slots.map (fun s => withoutReturns s.text), []⟩ ∧
      (m = .code ∨ m = .closed) := by
  induction h with
  | last closes =>
    intro S T K hq
    exact run_closes hq closes
  | @next q q' s slots tail turns fits _ ih =>
    intro S T K hq
    obtain ⟨m, e, hm⟩ := @ih (S ++ s.lead.toList) (withoutReturns s.text).toList
      (K ++ [String.ofList T]) turns.1
    refine ⟨m, ?_, hm⟩
    rw [List.flatMap_cons, List.append_assoc, List.append_assoc, run_append, run_turns hq turns,
      run_append, run_inner turns.1 fits, e]
    simp

end Scanner

/-- What a sound line is taken apart into. -/
def Layout.scan (l : Layout) : Scan := ⟨l.shell, l.texts.map withoutReturns⟩

/-- **A written line is taken apart into what it was made of**, apart from carriage returns. -/
theorem scan?_written {l : Layout} (h : l.Sound) : scan? l.written = some l.scan := by
  obtain @⟨q, s, slots, tail, opens, fits, rest⟩ := h
  obtain ⟨m, e, hm⟩ := Scanner.run_follows rest (S := s.lead.toList) (K := [])
    (T := (withoutReturns s.text).toList) opens.1
  have outside : Scanner.isOutside ⟨m, s.lead.toList ++
      (slots.flatMap (fun s => s.lead.toList) ++ tail.toList),
      [] ++ String.ofList (withoutReturns s.text).toList ::
        slots.map (fun s => withoutReturns s.text), []⟩ = true := by
    rcases hm with rfl | rfl <;> rfl
  unfold scan? Layout.written Layout.chars
  have opened : Scanner.run {} s.lead.toList = ⟨.inside q, s.lead.toList, [], []⟩ :=
    Scanner.run_opens opens
  rw [String.toList_ofList, List.flatMap_cons, List.append_assoc, List.append_assoc,
    Scanner.run_append, opened, Scanner.run_append, Scanner.run_inner opens.1 fits, e,
    Scanner.finish?, if_pos outside, String.ofList_toList]
  simp [Layout.scan, Layout.shell, Layout.texts, Function.comp_def]

/-- A line of code is taken apart into itself. -/
theorem scan?_of_isCode {text : String} (h : isCode text = true) :
    scan? text = some ⟨text, []⟩ := by
  have read : Scanner.run {} text.toList = ⟨.code, text.toList, [], []⟩ := Scanner.run_code h
  rw [scan?, read]
  simp [Scanner.finish?, Scanner.isOutside]

/-! ## 5. A line that can be taken apart does not break -/

namespace Scanner

theorem step_break (r : Scanner) {c : Char} (h : isBreak c = true) : (r.step c).mode = .lost := by
  have e : c = '\n' ∨ c = '\r' := by simpa [isBreak] using h
  obtain ⟨mode, shell, contents, content⟩ := r
  cases mode <;> rcases e with rfl | rfl <;> rfl

theorem run_lost : ∀ (cs : List Char) {r : Scanner}, r.mode = .lost → (r.run cs).mode = .lost
  | [], _, h => h
  | c :: cs, r, h => by
      have same : r.step c = r := by rw [step, h]
      rw [run_cons, same]
      exact run_lost cs h

/-- A scanner that is lost does not come out of it. -/
theorem not_lost {r : Scanner} {cs : List Char} (h : (r.run cs).isOutside = true) :
    r.mode ≠ .lost := by
  intro lost
  rw [isOutside, run_lost cs lost] at h
  cases h

theorem isBreak_of_mem_run {r : Scanner} {cs : List Char} (h : (r.run cs).isOutside = true)
    {c : Char} (hc : c ∈ cs) : isBreak c = false := by
  obtain ⟨before, after, rfl⟩ := List.append_of_mem hc
  by_contra hb
  rw [run_append, run_cons] at h
  exact not_lost h (step_break _ (by simpa using hb))

theorem finish?_eq_some_iff {r : Scanner} {out : Scan} :
    r.finish? = some out ↔ r.isOutside = true ∧ out = ⟨String.ofList r.shell, r.contents⟩ := by
  unfold finish?
  split
  · rename_i h
    simp [h, eq_comm]
  · rename_i h
    simp [h]

end Scanner

/-- **A text that can be taken apart is a single line.** -/
theorem isBreak_of_scan? {text : String} {out : Scan} (h : scan? text = some out) :
    ∀ c ∈ text.toList, isBreak c = false := fun _ hc =>
  Scanner.isBreak_of_mem_run (Scanner.finish?_eq_some_iff.mp h).1 hc

/-! ## 6. Raw text is read back only if it is plain -/

namespace Scanner

variable {S : List Char} {q : Char}

theorem stepCode_cases (r : Scanner) (c : Char) :
    r.stepCode c = { r with mode := .lost } ∨
      (isQuote c = true ∧ r.stepCode c = { r with mode := .inside c, shell := r.shell ++ [c] }) ∨
      isQuote c = false ∧ r.stepCode c = { r with mode := .code, shell := r.shell ++ [c] } := by
  unfold stepCode
  split
  · exact Or.inl rfl
  · cases hc : isQuote c with
    | true => exact Or.inr (Or.inl ⟨rfl, rfl⟩)
    | false => exact Or.inr (Or.inr ⟨rfl, rfl⟩)

theorem stepInside_cases (r : Scanner) (q c : Char) :
    r.stepInside q c = { r with mode := .lost } ∨
      (c = q ∧ r.stepInside q c =
        ⟨.closed, r.shell ++ [c], r.contents ++ [String.ofList r.content], []⟩) ∨
      r.stepInside q c = { r with mode := .escaped q } ∨
      isPlain q c = true ∧ r.stepInside q c = { r with content := r.content ++ [c] } := by
  unfold stepInside
  split
  · exact Or.inl rfl
  · rename_i whole
    split
    · rename_i last
      exact Or.inr (Or.inl ⟨beq_iff_eq.mp last, rfl⟩)
    · rename_i other
      split
      · exact Or.inr (Or.inr (Or.inl rfl))
      · rename_i slash
        refine Or.inr (Or.inr (Or.inr ⟨?_, rfl⟩))
        simp only [isPlain, bne, whole, other, slash, Bool.not_false, Bool.and_true]

theorem stepEscaped_cases (r : Scanner) (q c : Char) :
    r.stepEscaped q c = { r with mode := .lost } ∨
      ∃ d, r.stepEscaped q c = { r with mode := .inside q, content := r.content ++ [d] } := by
  unfold stepEscaped
  split
  · rename_i d _
    exact Or.inr ⟨d, rfl⟩
  · exact Or.inl rfl

/-- Outside literals, a scanner is lost or goes on as in code. -/
theorem step_outside {r : Scanner} (h : r.isOutside = true) (c : Char) :
    (r.step c).mode = .lost ∨ r.step c = r.stepCode c := by
  have hm : r.mode = .code ∨ r.mode = .closed := by simpa [isOutside] using h
  unfold step
  rcases hm with hm | hm
  · exact Or.inr (by rw [hm])
  · rw [hm]
    show (if isQuote c then _ else _ : Scanner).mode = .lost ∨ _
    split
    · exact Or.inl rfl
    · exact Or.inr rfl

theorem length_contents_step (r : Scanner) (c : Char) :
    r.contents.length ≤ (r.step c).contents.length := by
  have code : r.contents.length ≤ (r.stepCode c).contents.length := by
    rcases r.stepCode_cases c with e | ⟨-, e⟩ | ⟨-, e⟩ <;> rw [e]
  unfold step
  split
  · exact code
  · split
    · exact Nat.le_refl _
    · exact code
  · rename_i q _
    rcases r.stepInside_cases q c with e | ⟨-, e⟩ | e | ⟨-, e⟩ <;> simp [e]
  · rename_i q _
    rcases r.stepEscaped_cases q c with e | ⟨d, e⟩ <;> rw [e]
  · exact Nat.le_refl _

theorem length_contents_run : ∀ (cs : List Char) (r : Scanner),
    r.contents.length ≤ (r.run cs).contents.length
  | [], _ => Nat.le_refl _
  | c :: cs, r => (length_contents_step r c).trans (length_contents_run cs (r.step c))

/-- A literal that the scanner is in and leaves is found. -/
theorem found_of_within : ∀ (cs : List Char) {r : Scanner} {q : Char},
    r.mode = .inside q ∨ r.mode = .escaped q → (r.run cs).isOutside = true →
    r.contents.length < (r.run cs).contents.length
  | [], r, q, h, out => by rcases h with h | h <;> simp [run, isOutside, h] at out
  | c :: cs, r, q, h, out => by
      rw [run_cons] at out ⊢
      rcases h with h | h
      · have hstep : r.step c = r.stepInside q c := by rw [step, h]
        rw [hstep] at out ⊢
        rcases r.stepInside_cases q c with e | ⟨-, e⟩ | e | ⟨-, e⟩ <;> rw [e] at out ⊢
        · exact absurd rfl (not_lost out)
        · refine Nat.lt_of_lt_of_le ?_ (length_contents_run cs _)
          simp
        · exact found_of_within cs (r := { r with mode := .escaped q }) (Or.inr rfl) out
        · exact found_of_within cs (r := { r with content := r.content ++ [c] }) (Or.inl h) out
      · have hstep : r.step c = r.stepEscaped q c := by rw [step, h]
        rw [hstep] at out ⊢
        rcases r.stepEscaped_cases q c with e | ⟨d, e⟩ <;> rw [e] at out ⊢
        · exact absurd rfl (not_lost out)
        · exact found_of_within cs
            (r := { r with mode := .inside q, content := r.content ++ [d] }) (Or.inl rfl) out

/-- A quote outside literals begins one, which is found. -/
theorem found_of_quote : ∀ {cs : List Char} {r : Scanner}, r.isOutside = true →
    (∃ c ∈ cs, isQuote c = true) → (r.run cs).isOutside = true →
    r.contents.length < (r.run cs).contents.length
  | [], _, _, ⟨_, hc, _⟩, _ => by cases hc
  | c :: cs, r, hr, ⟨d, hd, quote⟩, out => by
      rw [run_cons] at out ⊢
      rcases step_outside hr c with lost | hstep
      · exact absurd lost (not_lost out)
      rw [hstep] at out ⊢
      rcases r.stepCode_cases c with e | ⟨-, e⟩ | ⟨other, e⟩ <;> rw [e] at out ⊢
      · exact absurd rfl (not_lost out)
      · exact found_of_within cs (r := { r with mode := .inside c, shell := r.shell ++ [c] })
          (Or.inl rfl) out
      · refine found_of_quote (r := { r with mode := .code, shell := r.shell ++ [c] }) rfl
          ⟨d, ?_, quote⟩ out
        refine (List.mem_cons.mp hd).resolve_left ?_
        rintro rfl
        rw [quote] at other
        cases other

theorem isPlain_of_isCodeChar {c : Char} (hq : isQuote q = true) (h : isCodeChar c = true) :
    isPlain q c = true := by
  simp only [isCodeChar, Bool.and_eq_true, Bool.not_eq_true', isLost, Bool.or_eq_false_iff] at h
  obtain ⟨other, ⟨whole, slash⟩, -⟩ := h
  have apart : (c == q) = false := by
    refine beq_eq_false_iff_ne.mpr ?_
    rintro rfl
    rw [hq] at other
    cases other
  simp only [isPlain, bne, apart, slash, whole, Bool.not_false, Bool.and_true]

/-- What is read of a raw text is not longer than the text, and shorter unless the text is plain:
    of a backslash and what follows it one character is left. The text is `cs`, after it stand its
    quote and some code, and one literal is found in all. -/
theorem length_content_le (hq : isQuote q = true) {es X : List Char}
    (he : es.all isCodeChar = true) : ∀ (cs T : List Char),
    ((run ⟨.inside q, S, [], T⟩ (cs ++ q :: es)).isOutside = true →
      (run ⟨.inside q, S, [], T⟩ (cs ++ q :: es)).contents = [String.ofList X] →
      X.length ≤ T.length + cs.length ∧
        (X.length = T.length + cs.length → cs.all (isPlain q) = true)) ∧
    ((run ⟨.escaped q, S, [], T⟩ (cs ++ q :: es)).isOutside = true →
      (run ⟨.escaped q, S, [], T⟩ (cs ++ q :: es)).contents = [String.ofList X] →
      X.length ≤ T.length + cs.length)
  | [], T => by
      refine ⟨fun _ hc => ?_, fun out _ => ?_⟩
      · have closes : Closes q (String.ofList (q :: es)) := ⟨es, String.toList_ofList, he⟩
        obtain ⟨m, e, -⟩ := run_closes (S := S) (K := []) (T := T) hq closes
        rw [String.toList_ofList] at e
        rw [List.nil_append, e] at hc
        have same : T = X := String.ofList_injective (List.singleton_inj.mp hc)
        rw [same]
        exact ⟨Nat.le_refl _, fun _ => rfl⟩
      · -- the last quote is taken for an escape, so the literal does not end
        have quote : unescape? q = some q := by
          have hq : q = '\'' ∨ q = '"' := by simpa [isQuote] using hq
          rcases hq with rfl | rfl <;> rfl
        have one : step ⟨.escaped q, S, [], T⟩ q = ⟨.inside q, S, [], T ++ [q]⟩ := by
          simp only [step, stepEscaped, quote]
        have plain : es.all (isPlain q) = true := List.all_eq_true.mpr fun c hc =>
          isPlain_of_isCodeChar hq (List.all_eq_true.mp he c hc)
        rw [List.nil_append, run_cons, one, run_plain plain] at out
        cases out
  | c :: cs, T => by
      have ih := fun T => length_content_le (X := X) hq he cs T
      have grown : ∀ d : Char, (T ++ [d]).length = T.length + 1 := by simp
      rw [List.length_cons, List.cons_append, run_cons, run_cons]
      refine ⟨fun out hc => ?_, fun out hc => ?_⟩
      · have hstep : step ⟨.inside q, S, [], T⟩ c = stepInside ⟨.inside q, S, [], T⟩ q c := rfl
        rw [hstep] at out hc
        rcases stepInside_cases ⟨.inside q, S, [], T⟩ q c with e | ⟨-, e⟩ | e | ⟨plain, e⟩ <;>
          rw [e] at out hc
        · exact absurd rfl (not_lost out)
        · -- the literal ends early, so the last quote begins another one
          have more := found_of_quote rfl ⟨q, by simp, hq⟩ out
          rw [hc] at more
          simp at more
        · have := (ih T).2 out hc
          exact ⟨by omega, by omega⟩
        · obtain ⟨le, rest⟩ := (ih (T ++ [c])).1 out hc
          rw [grown] at le rest
          refine ⟨by omega, fun e => ?_⟩
          rw [List.all_cons, plain, rest (by omega)]
          rfl
      · have hstep : step ⟨.escaped q, S, [], T⟩ c = stepEscaped ⟨.escaped q, S, [], T⟩ q c := rfl
        rw [hstep] at out hc
        rcases stepEscaped_cases ⟨.escaped q, S, [], T⟩ q c with e | ⟨d, e⟩ <;> rw [e] at out hc
        · exact absurd rfl (not_lost out)
        · have := ((ih (T ++ [d])).1 out hc).1
          rw [grown] at this
          omega

end Scanner

/-- **A raw text is read back only if it is plain.** -/
theorem isPlainText_of_scan? {lead text tail : String} {q : Char} (opens : Opens q lead)
    (closes : Closes q tail) {shell : String}
    (h : scan? (Layout.written ⟨[.asIs lead text], tail⟩) = some ⟨shell, [withoutReturns text]⟩) :
    isPlainText q text = true := by
  obtain ⟨es, e, he⟩ := closes
  have single := isBreak_of_scan? h
  have chars : (Layout.written ⟨[.asIs lead text], tail⟩).toList =
      lead.toList ++ (text.toList ++ q :: es) := by
    simp [Layout.written, Layout.chars, Slot.inner, Slot.asIs, e]
  have entered : Scanner.run {} (Layout.written ⟨[.asIs lead text], tail⟩).toList =
      Scanner.run ⟨.inside q, lead.toList, [], []⟩ (text.toList ++ q :: es) := by
    rw [chars, Scanner.run_append]
    exact congrArg (Scanner.run · _) (Scanner.run_opens opens)
  have kept : text.toList.filter (· != '\r') = text.toList := by
    refine List.filter_eq_self.mpr fun c hc => bne_iff_ne.mpr ?_
    rintro rfl
    cases single '\r' (by rw [chars]; simp [hc])
  obtain ⟨outside, same⟩ := Scanner.finish?_eq_some_iff.mp h
  have found := (Scan.mk.inj same).2.symm
  rw [withoutReturns, kept] at found
  rw [entered] at outside found
  exact ((Scanner.length_content_le opens.1 he text.toList []).1 outside found).2 (by simp)

/-! ## 7. Lines without their texts -/

/-- **A line with the contents of its literals blanked out.** A line that cannot be taken apart
    stays as it is. -/
def blank (text : String) : String := (scan? text).elim text Scan.shell

example : blank "f('it\\'s', x, \"y\")" = "f('', x, \"\")" := by decide +kernel

theorem blank_written {l : Layout} (h : l.Sound) : blank l.written = l.shell := by
  rw [blank, scan?_written h]
  rfl

end InfraDiagram.Literal
