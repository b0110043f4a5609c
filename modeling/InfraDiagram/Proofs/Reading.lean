import InfraDiagram.Fragment.Basic
import InfraDiagram.Fragment.Literal
import InfraDiagram.Proofs.Lines

/-!
# Reading lines of the stack program

A small reader for single lines: words, marks and literals, with blanks left out. It goes through a
line character by character (`Reader.step`) and refuses what it does not understand, such as a
literal that does not end on its line. What stands in a literal is no token; in a literal with
fields (`f'…'`) what stands between braces is.

Emitted lines are put together from fixed texts, variables, numbers and contents of literals.
`Spells` tells what a text says from a mode of the reader to the end of the line, and there is one
rule for each of these parts (`Spells.fixed`, `Spells.name`, `Spells.number`, `Spells.inside`). A
fixed text is read by evaluation; content stays inside its literal if it is plain or escaped
(`Stays`).
-/

namespace InfraDiagram

/-- The name by which a program calls a module. -/
def Module.alias : Module → String
  | .ec2 => "ec2"
  | .iam => "iam"
  | .rds => "rds"
  | .s3 => "s3"
  | .s3Assets => "s3assets"
  | .s3Deployment => "s3_deployment"

/-- All modules, in their usual order. -/
def Module.all : List Module := [.ec2, .iam, .rds, .s3, .s3Assets, .s3Deployment]

theorem Module.mem_all (m : Module) : m ∈ Module.all := by
  cases m <;> decide

namespace Reading

/-! ## 1. Tokens -/

/-- What a line is made of. -/
inductive Token where
  /-- A resource variable: `a` and digits, and perhaps `_` and letters. -/
  | resource (v : String)
  /-- A name, a keyword or a number. -/
  | word (s : String)
  | mark (c : Char)
  | literal
  deriving DecidableEq, Repr

def isWordChar (c : Char) : Bool := c.isAlphanum || c == '_'

def isQuote (c : Char) : Bool := c == '\'' || c == '"'

def isBreak (c : Char) : Bool := c == '\n' || c == '\r'

/-- Characters by which a reader of lines is lost: breaks, joined lines and comments. -/
def isLost (c : Char) : Bool := isBreak c || c == '\\' || c == '#'

/-- `a` and digits, and perhaps `_` and letters. -/
def isVariable : List Char → Bool
  | 'a' :: rest =>
    !(rest.takeWhile Char.isDigit).isEmpty &&
      match rest.dropWhile Char.isDigit with
      | [] => true
      | '_' :: letters => !letters.isEmpty && letters.all Char.isAlpha
      | _ => false
  | _ => false

/-- The token of a word. -/
def Token.ofWord (cs : List Char) : Token :=
  if isVariable cs then .resource (String.ofList cs) else .word (String.ofList cs)

def Token.isVariable : Token → Bool
  | .resource _ => true
  | _ => false

/-! ## 2. The reader -/

/-- Where a reader is. -/
inductive Mode where
  | code
  /-- Just after a literal. -/
  | closed
  | literal (quote : Char) (formatted : Bool)
  /-- After a backslash in a literal. -/
  | escaped (quote : Char) (formatted : Bool)
  /-- Between the braces of a literal with fields. -/
  | field (quote : Char)
  | refused
  deriving DecidableEq, Repr

/-- A reader: where it is, the word it is in, and the tokens it has read. -/
structure Reader where
  mode : Mode := .code
  word : List Char := []
  tokens : List Token := []
  deriving DecidableEq, Repr

namespace Reader

/-- Ends the word the reader is in. -/
def flush (r : Reader) : Reader :=
  match r.word with
  | [] => r
  | c :: cs => { r with word := [], tokens := r.tokens ++ [.ofWord (c :: cs)] }

def refuse (r : Reader) : Reader := { r with mode := .refused }

/-- One character outside literals. Only the word `f` may stand right before a quote. -/
def code (r : Reader) (c : Char) : Reader :=
  if isWordChar c then { r with mode := .code, word := r.word ++ [c] }
  else if isQuote c then
    match r.word with
    | [] => { r with mode := .literal c false }
    | ['f'] => { r with mode := .literal c true, word := [] }
    | _ => r.refuse
  else if isLost c then r.refuse
  else if c == ' ' then { r.flush with mode := .code }
  else { r.flush with mode := .code, tokens := r.flush.tokens ++ [.mark c] }

/-- One character. A literal may be followed by neither a word nor another literal, and between
    braces stands a single word. -/
def step (r : Reader) (c : Char) : Reader :=
  match r.mode with
  | .code => r.code c
  | .closed => if isWordChar c || isQuote c then r.refuse else r.code c
  | .literal q formatted =>
    if isBreak c then r.refuse
    else if c == q then { r with mode := .closed, tokens := r.tokens ++ [.literal] }
    else if c == '\\' then { r with mode := .escaped q formatted }
    else if formatted && c == '\x7b' then { r with mode := .field q }
    else if formatted && c == '\x7d' then r.refuse
    else r
  | .escaped q formatted => if isBreak c then r.refuse else { r with mode := .literal q formatted }
  | .field q =>
    if isWordChar c then { r with word := r.word ++ [c] }
    else if c == '\x7d' then { r.flush with mode := .literal q true }
    else r.refuse
  | .refused => r

def run (r : Reader) (cs : List Char) : Reader := cs.foldl step r

/-- What was read, if the line may end here. -/
def finish? (r : Reader) : Option (List Token) :=
  match r.mode with
  | .code => some r.flush.tokens
  | .closed => some r.flush.tokens
  | _ => none

end Reader

/-- The tokens of a line, if it can be read. -/
def tokens? (text : String) : Option (List Token) := (Reader.run {} text.toList).finish?

example : tokens? "a7_sg=f(x, 'a8', f'cp \x7ba9\x7d')" = some
    [.resource "a7_sg", .mark '=', .word "f", .mark '(', .word "x", .mark ',', .literal, .mark ',',
      .resource "a9", .literal, .mark ')'] := by decide +kernel

/-- The resource variable that a line assigns to. -/
def assigned? : List Token → Option String
  | .resource v :: .mark '=' :: t :: _ => if t = .mark '=' then none else some v
  | _ => none

/-- **Lines in which every resource variable is assigned** on the line itself or before it;
    `assigned` are the variables that have been assigned to. -/
def WellScoped : (assigned : List String) → List (List Token) → Prop
  | _, [] => True
  | assigned, ts :: rest =>
    (∀ v, .resource v ∈ ts → assigned? ts = some v ∨ v ∈ assigned) ∧
      WellScoped (assigned ++ (assigned? ts).toList) rest

namespace Reader

/-- A reader that has read more before. -/
def after (ts : List Token) (r : Reader) : Reader := { r with tokens := ts ++ r.tokens }

theorem flush_after (ts : List Token) (r : Reader) : (r.after ts).flush = r.flush.after ts := by
  obtain ⟨m, w, us⟩ := r
  cases w with
  | nil => rfl
  | cons c cs => simp [flush, after]

theorem code_after (ts : List Token) (r : Reader) (c : Char) :
    (r.after ts).code c = (r.code c).after ts := by
  have hw : (r.after ts).word = r.word := rfl
  unfold code
  rw [flush_after, hw]
  split
  · rfl
  · split
    · split <;> rfl
    · split
      · rfl
      · split
        · rfl
        · simp [after]

theorem step_after (ts : List Token) (r : Reader) (c : Char) :
    (r.after ts).step c = (r.step c).after ts := by
  have hm : (r.after ts).mode = r.mode := rfl
  unfold step
  rw [hm, code_after, flush_after]
  cases r.mode with
  | code => rfl
  | closed => simp only; split <;> rfl
  | literal q formatted =>
    simp only
    split
    · rfl
    · split
      · simp [after]
      · split
        · rfl
        · split
          · rfl
          · split <;> rfl
  | escaped q formatted => simp only; split <;> rfl
  | field q =>
    simp only
    split
    · rfl
    · split <;> rfl
  | refused => rfl

theorem run_after (ts : List Token) : ∀ (cs : List Char) (r : Reader),
    (r.after ts).run cs = (r.run cs).after ts
  | [], _ => rfl
  | c :: cs, r => by
      show ((r.after ts).step c).run cs = _
      rw [step_after, run_after ts cs]
      rfl

theorem run_append (r : Reader) (cs ds : List Char) : r.run (cs ++ ds) = (r.run cs).run ds :=
  List.foldl_append

theorem finish?_after (ts : List Token) (r : Reader) :
    (r.after ts).finish? = r.finish?.map (ts ++ ·) := by
  have hm : (r.after ts).mode = r.mode := rfl
  unfold finish?
  rw [hm, flush_after]
  cases r.mode <;> rfl

/-! ## 4. A line does not break -/

theorem step_break (r : Reader) {c : Char} (h : isBreak c = true) : (r.step c).mode = .refused := by
  have e : c = '\n' ∨ c = '\r' := by simpa [isBreak] using h
  obtain ⟨mode, word, tokens⟩ := r
  cases mode <;> rcases e with rfl | rfl <;> rfl

theorem run_refused : ∀ (cs : List Char) {r : Reader}, r.mode = .refused →
    (r.run cs).mode = .refused
  | [], _, h => h
  | c :: cs, r, h => by
      have same : r.step c = r := by rw [step, h]
      show ((r.step c).run cs).mode = .refused
      rw [same]
      exact run_refused cs h

theorem isBreak_of_mem_run {r : Reader} {cs : List Char} (h : (r.run cs).mode ≠ .refused) {c : Char}
    (hc : c ∈ cs) : isBreak c = false := by
  obtain ⟨before, after, rfl⟩ := List.append_of_mem hc
  by_contra hb
  refine h ?_
  rw [run_append]
  exact run_refused after (step_break _ (by simpa using hb))

end Reader

/-- What is read from a mode to the end of a line. -/
def Reads (m : Mode) (s : String) (out : List Token) : Prop :=
  (Reader.run ⟨m, [], []⟩ s.toList).finish? = some out

theorem Reads.after {m m' : Mode} {cs : List Char} {s : String} {ts out : List Token}
    (h : Reader.run ⟨m, [], []⟩ cs = ⟨m', [], ts⟩) (rest : Reads m' s out) :
    Reads m (String.ofList cs ++ s) (ts ++ out) := by
  have more : (⟨m', [], ts⟩ : Reader) = Reader.after ts ⟨m', [], []⟩ := by simp [Reader.after]
  unfold Reads at rest ⊢
  rw [String.toList_append, String.toList_ofList, Reader.run_append, h, more, Reader.run_after,
    Reader.finish?_after, rest]
  rfl

/-- A text that a word can stand before. -/
inductive Breaks : String → Prop where
  | last : Breaks ""
  | fixed {c : Char} {cs : List Char}
      (h : (!isWordChar c && !isQuote c && !isLost c) = true) : Breaks (String.ofList (c :: cs))
  | append {c : Char} {cs : List Char} {s : String}
      (h : (!isWordChar c && !isQuote c && !isLost c) = true) : Breaks (String.ofList (c :: cs) ++ s)

theorem Breaks.cases {s : String} (h : Breaks s) : s.toList = [] ∨
    ∃ c cs, s.toList = c :: cs ∧ isWordChar c = false ∧ isQuote c = false ∧ isLost c = false := by
  cases h with
  | last => exact Or.inl rfl
  | fixed h =>
    simp only [Bool.and_eq_true, Bool.not_eq_true'] at h
    exact Or.inr ⟨_, _, String.toList_ofList, h.1.1, h.1.2, h.2⟩
  | append h =>
    simp only [Bool.and_eq_true, Bool.not_eq_true'] at h
    exact Or.inr ⟨_, _, by rw [String.toList_append, String.toList_ofList]; rfl, h.1.1, h.1.2, h.2⟩

/-- A reader that takes up the characters of words, outside literals or between braces. -/
theorem run_word {m : Mode} (takes : ∀ {w : List Char} {c : Char}, isWordChar c = true →
    Reader.step ⟨m, w, []⟩ c = ⟨m, w ++ [c], []⟩) : ∀ {cs w : List Char},
    (∀ c ∈ cs, isWordChar c = true) → Reader.run ⟨m, w, []⟩ cs = ⟨m, w ++ cs, []⟩
  | [], w, _ => by simp [Reader.run]
  | c :: cs, w, h => by
      obtain ⟨hc, h⟩ := List.forall_mem_cons.mp h
      show Reader.run (Reader.step ⟨m, w, []⟩ c) cs = _
      rw [takes hc, run_word takes h, List.append_assoc]
      rfl

/-- A word is read as one token. -/
theorem Reads.word {v s : String} {out : List Token} (hne : v.toList ≠ [])
    (hv : ∀ c ∈ v.toList, isWordChar c = true) (hs : Breaks s) (rest : Reads .code s out) :
    Reads .code (v ++ s) (.ofWord v.toList :: out) := by
  obtain ⟨d, ds, hd⟩ := List.exists_cons_of_ne_nil hne
  have taken : Reader.run ⟨.code, [], []⟩ v.toList = ⟨.code, v.toList, []⟩ :=
    run_word (fun hc => by simp [Reader.step, Reader.code, hc]) hv
  unfold Reads at rest ⊢
  rw [String.toList_append, Reader.run_append, taken]
  rcases hs.cases with e | ⟨c, cs, e, hword, hquote, hlost⟩
  · rw [e] at rest ⊢
    cases rest
    simp [Reader.run, Reader.finish?, Reader.flush, hd]
  · -- the character after the word ends it, and is then read as if nothing stood before it
    have ends : Reader.step ⟨.code, v.toList, []⟩ c =
        (Reader.step ⟨.code, [], []⟩ c).after [.ofWord v.toList] := by
      rw [hd]
      unfold Reader.step Reader.code
      simp only [hword, hquote, hlost, Bool.false_eq_true, if_false, Reader.flush]
      split <;> simp [Reader.after]
    rw [e] at rest ⊢
    show (Reader.run (Reader.step ⟨.code, v.toList, []⟩ c) cs).finish? = _
    have rest : (Reader.run (Reader.step ⟨.code, [], []⟩ c) cs).finish? = some out := rest
    rw [ends, Reader.run_after, Reader.finish?_after, rest]
    rfl

/-- A word between braces is read as one token. -/
theorem Reads.field {q : Char} {v : String} {cs : List Char} {out : List Token}
    (hne : v.toList ≠ []) (hv : ∀ c ∈ v.toList, isWordChar c = true)
    (rest : Reads (.field q) (String.ofList ('\x7d' :: cs)) out) :
    Reads (.field q) (v ++ String.ofList ('\x7d' :: cs)) (.ofWord v.toList :: out) := by
  obtain ⟨d, ds, hd⟩ := List.exists_cons_of_ne_nil hne
  have taken : Reader.run ⟨.field q, [], []⟩ v.toList = ⟨.field q, v.toList, []⟩ :=
    run_word (fun hc => by simp [Reader.step, hc]) hv
  have ends : Reader.step ⟨.field q, v.toList, []⟩ '\x7d' =
      (Reader.step ⟨.field q, [], []⟩ '\x7d').after [.ofWord v.toList] := by
    rw [hd]
    rfl
  unfold Reads at rest ⊢
  rw [String.toList_append, Reader.run_append, taken]
  rw [String.toList_ofList] at rest ⊢
  show (Reader.run (Reader.step ⟨.field q, v.toList, []⟩ '\x7d') cs).finish? = _
  have rest : (Reader.run (Reader.step ⟨.field q, [], []⟩ '\x7d') cs).finish? = some out := rest
  rw [ends, Reader.run_after, Reader.finish?_after, rest]
  rfl

/-! ## 6. Contents of literals -/

/-- **Content that does not leave its literal.** -/
def Stays (q : Char) (s : String) : Prop :=
  Reader.run ⟨.literal q false, [], []⟩ s.toList = ⟨.literal q false, [], []⟩

theorem Stays.append {q : Char} {s t : String} (hs : Stays q s) (ht : Stays q t) :
    Stays q (s ++ t) := by
  unfold Stays at hs ht ⊢
  rw [String.toList_append, Reader.run_append, hs, ht]

/-- A character that means itself in a literal. -/
def isPlain (q c : Char) : Bool := c != q && c != '\\' && !isBreak c

theorem step_plain {q c : Char} (h : isPlain q c = true) :
    Reader.step ⟨.literal q false, [], []⟩ c = ⟨.literal q false, [], []⟩ := by
  simp only [isPlain, Bool.and_eq_true, bne_iff_ne, Bool.not_eq_true'] at h
  simp [Reader.step, h]

theorem run_stays {q : Char} {f : Char → List Char}
    (h : ∀ c, Reader.run ⟨.literal q false, [], []⟩ (f c) = ⟨.literal q false, [], []⟩) :
    ∀ cs : List Char,
      Reader.run ⟨.literal q false, [], []⟩ (cs.flatMap f) = ⟨.literal q false, [], []⟩
  | [] => rfl
  | c :: cs => by rw [List.flatMap_cons, Reader.run_append, h, run_stays h cs]

theorem stays_of_plain {q : Char} {s : String} (h : ∀ c ∈ s.toList, isPlain q c = true) :
    Stays q s := by
  unfold Stays
  generalize s.toList = cs at h
  induction cs with
  | nil => rfl
  | cons c cs ih =>
    obtain ⟨hc, h⟩ := List.forall_mem_cons.mp h
    show Reader.run (Reader.step _ c) cs = _
    rw [step_plain hc, ih h]

/-- **Escaped text stays inside its literal**, whatever it is. -/
theorem stays_escape {q : Char} (hq : isQuote q = true) (s : String) :
    Stays q (Literal.escape s) := by
  unfold Stays Literal.escape
  rw [String.toList_ofList]
  refine run_stays (fun c => ?_) s.toList
  have hq : q = '\'' ∨ q = '"' := by simpa [isQuote] using hq
  have slash : Reader.step ⟨.literal q false, [], []⟩ '\\' = ⟨.escaped q false, [], []⟩ := by
    rcases hq with rfl | rfl <;> rfl
  have pair : ∀ d, isBreak d = false →
      Reader.run ⟨.literal q false, [], []⟩ ['\\', d] = ⟨.literal q false, [], []⟩ := by
    intro d hd
    show Reader.step (Reader.step _ '\\') d = _
    rw [slash]
    simp [Reader.step, hd]
  unfold Literal.escapeChar
  split
  · rfl
  · split
    · exact pair 'n' rfl
    · split
      · exact pair '\\' rfl
      · split
        · exact pair '"' rfl
        · split
          · exact pair '\'' rfl
          · rename_i h1 h2 h3 h4 h5
            simp only [beq_iff_eq] at h1 h2 h3 h4 h5
            refine step_plain ?_
            rcases hq with rfl | rfl <;> simp [isPlain, isBreak, h1, h2, h3, h4, h5]

theorem Reads.inside {q : Char} {s t : String} {out : List Token} (h : Stays q t)
    (rest : Reads (.literal q false) s out) : Reads (.literal q false) (t ++ s) out := by
  unfold Reads at rest ⊢
  rw [String.toList_append, Reader.run_append, h, rest]

/-! ## 7. Variables and numbers -/

theorem isVariable_cases {cs : List Char} (h : isVariable cs = true) :
    cs ≠ [] ∧ ∀ c ∈ cs, isWordChar c = true := by
  unfold isVariable at h
  split at h
  · rename_i rest
    refine ⟨List.cons_ne_nil _ _, List.forall_mem_cons.mpr ⟨by decide, ?_⟩⟩
    rw [Bool.and_eq_true] at h
    rw [← List.takeWhile_append_dropWhile (p := Char.isDigit) (l := rest), List.forall_mem_append]
    refine ⟨fun c hc => ?_, ?_⟩
    · simp [isWordChar, Char.isAlphanum, List.mem_takeWhile_imp hc]
    · have h := h.2
      split at h
      · rename_i e
        rw [e]
        exact List.forall_mem_nil _
      · rename_i letters e
        rw [Bool.and_eq_true, List.all_eq_true] at h
        rw [e]
        refine List.forall_mem_cons.mpr ⟨by decide, fun c hc => ?_⟩
        simp [isWordChar, Char.isAlphanum, h.2 c hc]
      · cases h
  · cases h

theorem isVariable_variableName (k : Nat) : isVariable (variableName k).toList = true := by
  have digits := @isDigit_of_mem_toDigits k
  have none_left : (Nat.toDigits 10 k).dropWhile Char.isDigit = [] :=
    List.dropWhile_eq_nil_iff.mpr digits
  rw [toList_variableName]
  unfold isVariable
  simp only
  rw [none_left, List.takeWhile_eq_self_iff.mpr digits]
  simp

theorem isVariable_variableName_append (k : Nat) {letters : List Char} (hne : letters ≠ [])
    (h : letters.all Char.isAlpha = true) :
    isVariable (variableName k ++ String.ofList ('_' :: letters)).toList = true := by
  have digits := @isDigit_of_mem_toDigits k
  rw [String.toList_append, toList_variableName, String.toList_ofList]
  unfold isVariable
  simp only [List.cons_append]
  rw [List.dropWhile_append_of_pos digits, List.takeWhile_append_of_pos digits]
  have rest : ('_' :: letters).dropWhile Char.isDigit = '_' :: letters := rfl
  rw [rest]
  simp [hne, h, Nat.toDigits_ne_nil]

theorem ofWord_of_isVariable {v : String} (h : isVariable v.toList = true) :
    Token.ofWord v.toList = .resource v := by
  rw [Token.ofWord, if_pos h, String.ofList_toList]

/-- A variable is read as one token. -/
theorem Reads.name {v s : String} {out : List Token} (hv : isVariable v.toList = true)
    (hs : Breaks s) (rest : Reads .code s out) : Reads .code (v ++ s) (.resource v :: out) := by
  obtain ⟨hne, hword⟩ := isVariable_cases hv
  rw [← ofWord_of_isVariable hv]
  exact rest.word hne hword hs

/-- A number is a word, and neither a variable nor the name of a module. -/
theorem ofWord_toString (n : Nat) : Token.ofWord (toString n).toList = .word (toString n) := by
  obtain ⟨d, ds, hd⟩ : ∃ d ds, Nat.toDigits 10 n = d :: ds :=
    List.exists_cons_of_ne_nil Nat.toDigits_ne_nil
  have digit : d.isDigit = true := isDigit_of_mem_toDigits d (hd ▸ List.mem_cons_self)
  have other : isVariable (toString n).toList = false := by
    rw [Nat.toString_eq_repr, Nat.toList_repr, hd]
    unfold isVariable
    split
    · rename_i e
      cases e
      cases digit
    · rfl
  rw [Token.ofWord, other, if_neg Bool.false_ne_true, String.ofList_toList]

theorem alias_ne_toString (m : Module) (n : Nat) : m.alias ≠ toString n := by
  intro e
  have hlist := congrArg String.toList e
  rw [Nat.toString_eq_repr, Nat.toList_repr] at hlist
  have letter : ∃ c cs, m.alias.toList = c :: cs ∧ c.isDigit = false := by
    cases m <;> exact ⟨_, _, rfl, rfl⟩
  obtain ⟨c, cs, hc, hd⟩ := letter
  rw [hc] at hlist
  rw [isDigit_of_mem_toDigits c (hlist ▸ List.mem_cons_self)] at hd
  cases hd

/-! ## 8. What a text spells -/

/-- **Tokens that name no variables but known ones, and exactly the given modules.** -/
structure Tells (known : List String) (ms : List Module) (out : List Token) : Prop where
  vars : ∀ v, .resource v ∈ out → v ∈ known
  modules : ∀ m : Module, .word m.alias ∈ out ↔ m ∈ ms

section Tells

variable {known : List String} {ms ms' : List Module} {out out' : List Token}

theorem Tells.nil : Tells known [] [] := ⟨by simp, by simp⟩

theorem Tells.append (h : Tells known ms out) (h' : Tells known ms' out') :
    Tells known (ms ++ ms') (out ++ out') := by
  refine ⟨fun v hv => ?_, fun m => ?_⟩
  · exact (List.mem_append.mp hv).elim (h.vars v) (h'.vars v)
  · rw [List.mem_append, List.mem_append, h.modules, h'.modules]

theorem Tells.cons_resource {v : String} (hv : v ∈ known) (h : Tells known ms out) :
    Tells known ms (.resource v :: out) := by
  refine ⟨fun w hw => ?_, fun m => ?_⟩
  · rcases List.mem_cons.mp hw with e | hw
    · exact Token.resource.inj e ▸ hv
    · exact h.vars w hw
  · rw [List.mem_cons, h.modules]
    simp

theorem Tells.cons_number (n : Nat) (h : Tells known ms out) :
    Tells known ms (.word (toString n) :: out) := by
  refine ⟨fun w hw => ?_, fun m => ?_⟩
  · rcases List.mem_cons.mp hw with e | hw
    · cases e
    · exact h.vars w hw
  · have other : Token.word m.alias ≠ .word (toString n) :=
      fun e => alias_ne_toString m n (Token.word.inj e)
    rw [List.mem_cons, h.modules]
    exact or_iff_right other

/-- Whether tokens name no variables and exactly the given modules. -/
def names (ms : List Module) (out : List Token) : Bool :=
  out.all (fun t => !t.isVariable) &&
    Module.all.all fun m => out.contains (.word m.alias) == ms.contains m

theorem tells_of_names (h : names ms out = true) : Tells known ms out := by
  rw [names, Bool.and_eq_true, List.all_eq_true, List.all_eq_true] at h
  refine ⟨fun v hv => ?_, fun m => ?_⟩
  · cases h.1 _ hv
  · have := h.2 m m.mem_all
    rw [beq_iff_eq, Bool.eq_iff_iff, List.contains_iff_mem, List.contains_iff_mem] at this
    exact this

end Tells

/-- What a text spells from a mode to the end of the line. -/
def Spells (known : List String) (m : Mode) (s : String) (ms : List Module) : Prop :=
  ∃ out, Reads m s out ∧ Tells known ms out

/-- Whether a fixed text leads from one mode to another, between words, and names no variables and
    exactly the given modules. -/
def passes (m : Mode) (cs : List Char) (m' : Mode) (ms : List Module) : Bool :=
  let r := Reader.run ⟨m, [], []⟩ cs
  r.mode == m' && r.word.isEmpty && names ms r.tokens

/-- Whether a line may end with a fixed text that names no variables and exactly the given
    modules. -/
def closes (m : Mode) (cs : List Char) (ms : List Module) : Bool :=
  match (Reader.run ⟨m, [], []⟩ cs).finish? with
  | some out => names ms out
  | none => false

section Spells

variable {known : List String} {m : Mode} {cs : List Char} {s v : String} {ms ms' : List Module}

theorem run_of_passes {m' : Mode} (h : passes m cs m' ms = true) :
    ∃ ts, Reader.run ⟨m, [], []⟩ cs = ⟨m', [], ts⟩ ∧ names ms ts = true := by
  unfold passes at h
  generalize Reader.run ⟨m, [], []⟩ cs = r at h
  obtain ⟨mode, word, ts⟩ := r
  simp only [Bool.and_eq_true, beq_iff_eq, List.isEmpty_iff] at h
  obtain ⟨⟨rfl, rfl⟩, hn⟩ := h
  exact ⟨ts, rfl, hn⟩

/-- A fixed text at the end of a line. -/
theorem Spells.lastUsing (ms : List Module) (h : closes m cs ms = true) :
    Spells known m (String.ofList cs) ms := by
  unfold closes at h
  split at h
  · rename_i out e
    exact ⟨out, by rw [Reads, String.toList_ofList]; exact e, tells_of_names h⟩
  · cases h

theorem Spells.last (h : closes m cs [] = true) : Spells known m (String.ofList cs) [] :=
  .lastUsing [] h

/-- A fixed text that names modules. -/
theorem Spells.fixedUsing (m' : Mode) (ms : List Module) (h : passes m cs m' ms = true)
    (rest : Spells known m' s ms') : Spells known m (String.ofList cs ++ s) (ms ++ ms') := by
  obtain ⟨ts, hrun, hn⟩ := run_of_passes h
  obtain ⟨out, hr, ht⟩ := rest
  exact ⟨ts ++ out, hr.after hrun, (tells_of_names hn).append ht⟩

/-- A fixed text that names no modules. -/
theorem Spells.fixed (m' : Mode) (h : passes m cs m' [] = true) (rest : Spells known m' s ms) :
    Spells known m (String.ofList cs ++ s) ms :=
  rest.fixedUsing m' [] h

/-- A variable. -/
theorem Spells.name (hv : isVariable v.toList = true) (mem : v ∈ known) (hs : Breaks s)
    (rest : Spells known .code s ms) : Spells known .code (v ++ s) ms := by
  obtain ⟨out, hr, ht⟩ := rest
  exact ⟨.resource v :: out, hr.name hv hs, ht.cons_resource mem⟩

theorem Spells.nameLast (hv : isVariable v.toList = true) (mem : v ∈ known) :
    Spells known .code v [] := by
  have h : Spells known .code (v ++ "") [] := .name hv mem .last ⟨[], rfl, .nil⟩
  rwa [String.append_empty] at h

/-- A variable between braces. -/
theorem Spells.field {q : Char} (hv : isVariable v.toList = true) (mem : v ∈ known)
    (rest : Spells known (.field q) (String.ofList ('\x7d' :: cs)) ms) :
    Spells known (.field q) (v ++ String.ofList ('\x7d' :: cs)) ms := by
  obtain ⟨out, hr, ht⟩ := rest
  obtain ⟨hne, hword⟩ := isVariable_cases hv
  refine ⟨.resource v :: out, ?_, ht.cons_resource mem⟩
  rw [← ofWord_of_isVariable hv]
  exact hr.field hne hword

/-- A number. -/
theorem Spells.number (n : Nat) (hs : Breaks s) (rest : Spells known .code s ms) :
    Spells known .code (toString n ++ s) ms := by
  obtain ⟨out, hr, ht⟩ := rest
  have hne : (toString n).toList ≠ [] := by
    rw [Nat.toString_eq_repr, Nat.toList_repr]
    exact Nat.toDigits_ne_nil
  have hword : ∀ c ∈ (toString n).toList, isWordChar c = true := by
    intro c hc
    rw [Nat.toString_eq_repr, Nat.toList_repr] at hc
    simp [isWordChar, Char.isAlphanum, isDigit_of_mem_toDigits c hc]
  refine ⟨.word (toString n) :: out, ?_, ht.cons_number n⟩
  rw [← ofWord_toString n]
  exact hr.word hne hword hs

/-- Content of a literal. -/
theorem Spells.inside {q : Char} {t : String} (h : Stays q t)
    (rest : Spells known (.literal q false) s ms) : Spells known (.literal q false) (t ++ s) ms := by
  obtain ⟨out, hr, ht⟩ := rest
  exact ⟨out, hr.inside h, ht⟩

end Spells

/-- What a line says that assigns to a variable. -/
def Assigns (known : List String) (v text : String) (ms : List Module) : Prop :=
  ∃ out, Reads .code text out ∧ Tells known ms out ∧ assigned? out = some v

/-- Whether a fixed text begins with a single equals sign. -/
def opens (cs : List Char) : Bool :=
  match (Reader.run {} cs).tokens with
  | .mark '=' :: t :: _ => t != .mark '='
  | _ => false

/-- A variable and a fixed text that begins with an equals sign. -/
theorem Assigns.fixedUsing {known : List String} {v s : String} {cs : List Char} {ms' : List Module}
    (m' : Mode) (ms : List Module) (hv : isVariable v.toList = true) (mem : v ∈ known)
    (hs : Breaks (String.ofList cs ++ s)) (h : passes .code cs m' ms = true)
    (eq : opens cs = true) (rest : Spells known m' s ms') :
    Assigns known v (v ++ (String.ofList cs ++ s)) (ms ++ ms') := by
  obtain ⟨ts, hrun, hn⟩ := run_of_passes h
  obtain ⟨out, hr, ht⟩ := rest
  refine ⟨.resource v :: (ts ++ out), (hr.after hrun).name hv hs,
    ((tells_of_names hn).append ht).cons_resource mem, ?_⟩
  unfold opens at eq
  rw [hrun] at eq
  split at eq
  · rename_i t rest e
    cases e
    rw [List.cons_append, List.cons_append, assigned?, if_neg (bne_iff_ne.mp eq)]
  · cases eq

/-- A variable, an equals sign and another variable. -/
theorem Assigns.name {known : List String} {v w s : String} {ms : List Module}
    (hv : isVariable v.toList = true) (mem : v ∈ known) (hw : isVariable w.toList = true)
    (mem' : w ∈ known) (hs : Breaks s) (rest : Spells known .code s ms) :
    Assigns known v (v ++ (String.ofList ['='] ++ (w ++ s))) ms := by
  obtain ⟨out, hr, ht⟩ := rest
  have eq : Tells known [] [.mark '='] := tells_of_names (by decide)
  have told : Tells known ms ([.mark '='] ++ .resource w :: out) :=
    eq.append (ht.cons_resource mem')
  exact ⟨_, ((hr.name hw hs).after rfl).name hv (.append rfl), told.cons_resource mem, rfl⟩

end Reading

end InfraDiagram
