import InfraDiagram.Proofs.LiteralsReadBack

/-!
# The lines of a program text

A program is written line by line and read line by line. What is read are the pieces of its text
between line breaks, without their indentation (`sourceLines`). A line that is written is read as
its own pieces, whatever stands on it (`Stack.sourceLines_join`), so a text with a break in it is
read as several lines.

No line of a program begins with a blank (`Stack.Compiled.texts_flush`), and none breaks but that of
a managed policy that leaves its literal. If the policy stays in its literal (`Stack.PolicyStays`),
the lines that are read are those that were written (`Stack.sourceLines_program`), and the rules
among them are those of the edges (`Stack.rulesStand_of_parts`).
-/

namespace InfraDiagram

open Literal Reading

/-! ## 1. Lines of a text -/

def isIndent (c : Char) : Bool := c == ' ' || c == '\t'

/-- **The lines of a text**: its pieces between line breaks, without their indentation. -/
def sourceLines (source : String) : List String :=
  (source.toList.splitOnP isBreak).map fun cs => String.ofList (cs.dropWhile isIndent)

example : sourceLines "a:\n    b\r\tc\n" = ["a:", "b", "c", ""] := by decide

/-- **A line break ends a line.** -/
theorem sourceLines_append_break (s t : String) :
    sourceLines (s ++ "\n" ++ t) = sourceLines s ++ sourceLines t := by
  have chars : (s ++ "\n" ++ t).toList = s.toList ++ '\n' :: t.toList := by
    simp [String.toList_append]
  rw [sourceLines, chars, List.splitOnP_append_cons _ _ (by decide), List.map_append, sourceLines,
    sourceLines]

/-- Indentation is not read. -/
theorem sourceLines_blanks (k : Nat) (s : String) :
    sourceLines (String.ofList (List.replicate k ' ') ++ s) = sourceLines s := by
  unfold sourceLines
  rw [String.toList_append, String.toList_ofList]
  induction k with
  | zero => rfl
  | succ k ih =>
    rw [← ih, List.replicate_succ, List.cons_append, List.splitOnP_cons_eq_if_modifyHead,
      if_neg (by decide)]
    obtain ⟨first, rest, e⟩ := List.exists_cons_of_ne_nil
      (List.splitOnP_ne_nil isBreak (List.replicate k ' ' ++ s.toList))
    rw [e, List.modifyHead_cons, List.map_cons, List.map_cons,
      List.dropWhile_cons_of_pos (by decide)]

/-- A text that is there and does not begin with indentation. -/
def isFlush (s : String) : Bool :=
  match s.toList with
  | [] => false
  | c :: _ => !isIndent c

theorem isFlush_of_begins {w t : String} (h : isFlush w = true) (hw : Text.Begins w t) :
    isFlush t = true := by
  obtain ⟨rest, rfl⟩ := hw
  unfold isFlush at h ⊢
  rw [String.toList_append]
  cases e : w.toList with
  | nil => rw [e] at h; cases h
  | cons c cs => rw [e] at h; exact h

/-- A text that neither breaks nor begins with indentation is one line. -/
theorem sourceLines_single {t : String} (single : ∀ c ∈ t.toList, isBreak c = false)
    (flush : isFlush t = true) : sourceLines t = [t] := by
  have whole : t.toList.dropWhile isIndent = t.toList := by
    unfold isFlush at flush
    cases e : t.toList with
    | nil => rfl
    | cons c cs =>
      rw [e, Bool.not_eq_true'] at flush
      exact List.dropWhile_cons_of_neg (by rw [flush]; decide)
  rw [sourceLines, List.splitOnP_eq_singleton single, List.map_singleton, whole,
    String.ofList_toList]

namespace Stack

/-- One line in front of others: it is read as its own pieces. -/
theorem sourceLines_indented (l : Line) (rest : String) :
    sourceLines (indented l ++ rest) = sourceLines l.text ++ sourceLines rest := by
  rw [indented, sourceLines_append_break, sourceLines_blanks]

/-- **Lines that are written are read one after the other**, each as its own pieces. -/
theorem sourceLines_join (lines : List Line) :
    sourceLines (String.join (lines.map indented)) =
      (lines.map Line.text).flatMap sourceLines ++ [""] := by
  induction lines with
  | nil => rfl
  | cons l lines ih =>
    rw [List.map_cons, String.join_cons, sourceLines_indented, ih, List.map_cons,
      List.flatMap_cons, List.append_assoc]

/-! ## 2. How the lines of a program begin -/

section Flush

open Text

variable {settings : Settings} {g : Graph} {name : String} {p : Parts}

theorem isFlush_variable {k : Nat} {rest t : String} (h : Begins (variableName k ++ rest) t) :
    isFlush t = true := by
  refine isFlush_of_begins ?_ ((Begins.append _ _).trans h)
  rw [isFlush, toList_variableName]
  rfl

theorem isFlush_plain {symbol : Symbol} {k : Nat} (hk : symbol.var = variableName k) {t : String}
    (h : Resource.Plain symbol t) : isFlush t = true := by
  have words : ∀ w ∈ Resource.plainWords, isFlush w = true := by decide +kernel
  rcases h with ⟨w, hw, hb⟩ | ⟨tail, -, hb⟩
  · exact isFlush_of_begins (words w hw) hb
  · rw [hk] at hb
    exact isFlush_variable hb

theorem isFlush_placed {s : Resource.Scope} {n : Node} {symbol : Symbol} {k : Nat}
    (hk : symbol.var = variableName k) {t : String} (h : Resource.Placed s n symbol t) :
    isFlush t = true := by
  cases h with
  | @group net hc within =>
    have begins := Resource.groupLine_begins symbol net.var
    rw [hk] at begins
    exact isFlush_variable begins
  | network hc within => exact isFlush_of_begins (by decide) (Resource.placeLine_begins _ _)
  | subnets hc hp => exact isFlush_of_begins (by decide) Resource.publicSubnets_begins
  | engine hk he => exact isFlush_of_begins (by decide) (Resource.engineLine_begins _)

theorem Compiled.isFlush_rule (c : Compiled settings g name p) {f : Fragment} (hf : f ∈ p.rules)
    {t : String} (ht : t ∈ f.texts) : isFlush t = true := by
  obtain ⟨e, -, r, grants, -, compiles⟩ := exists_match c.run.forall₂.flip hf
  cases compiles.edgeLine ht with
  | opened target _ =>
    obtain ⟨k, hk⟩ := c.var target
    exact isFlush_variable (Access.ruleLine_none_begins hk)
  | joined target _ _ =>
    obtain ⟨k, hk⟩ := c.var target
    exact isFlush_variable (Access.ruleLine_some_begins hk)
  | granted target _ _ =>
    obtain ⟨k, hk⟩ := c.var target
    exact isFlush_variable (Access.grantLine_begins hk _)

theorem Compiled.isFlush_declaration (c : Compiled settings g name p) {f : Fragment}
    (hf : f ∈ p.declarations) {t : String} (ht : t ∈ f.texts) : isFlush t = true := by
  rcases c.declaration_cases hf with ⟨n, -, symbol, steps, hs, declares, rfl⟩ | ⟨symbol, hs, rfl⟩
  · obtain ⟨k, hk⟩ := c.var hs
    rcases declares.mem_texts ht with placed | plain
    · exact isFlush_placed hk placed
    · exact isFlush_plain hk plain
  · obtain ⟨a, ha, numbered⟩ := c.numbered
    obtain ⟨k, hk⟩ := numbered.var_of_network (ha ▸ hs)
    obtain ⟨step, hstep, e⟩ := Fragment.mem_texts_build.mp ht
    exact isFlush_plain hk (Resource.network_plain settings step hstep t e)

theorem isFlush_opening (className : String) (modules : List Module) :
    ∀ l ∈ opening className modules, isFlush l.text = true := by
  have statement : ∀ m : Module, isFlush m.statement = true := by
    intro m
    cases m <;> decide
  simp only [opening, List.forall_mem_append, List.forall_mem_cons, List.forall_mem_map]
  refine ⟨⟨⟨by decide, by decide, by decide, List.forall_mem_nil _⟩, fun m _ => statement m⟩, ?_,
    by decide, by decide, List.forall_mem_nil _⟩
  exact isFlush_of_begins (w := "class ") (by decide)
    ((Begins.append _ _).trans (Begins.append _ _))

theorem isFlush_closing {className : String} (usable : isIdentifier className = true)
    (stackName : String) : ∀ l ∈ closing className stackName, isFlush l.text = true := by
  have named : isFlush className = true := by
    have letters := isAlphanum_of_isIdentifier usable
    unfold isFlush
    cases e : className.toList with
    | nil =>
      have empty : className = "" := String.toList_inj.mp e
      rw [empty] at usable
      revert usable
      decide
    | cons c cs =>
      have letter := letters c (e ▸ List.mem_cons_self)
      have differs : ∀ d, (d.isAlphanum || d == '_') = false → c ≠ d := by
        rintro d hd rfl
        rw [letter] at hd
        cases hd
      simp [isIndent, differs ' ' rfl, differs '\t' rfl]
  simp only [closing, List.forall_mem_cons]
  refine ⟨by decide, ?_, by decide, List.forall_mem_nil _⟩
  exact isFlush_of_begins named
    (((Begins.append _ _).trans (Begins.append _ _)).trans (Begins.append _ _))

/-- **No line of a program begins with a blank.** -/
theorem Compiled.texts_flush (c : Compiled settings g name p) :
    ∀ t ∈ programTexts settings name p, isFlush t = true := by
  have usable := (validate_eq_ok c.admitted.usable).1
  rw [programTexts_eq]
  refine List.forall_mem_append.mpr ⟨List.forall_mem_append.mpr ⟨?_, fun t ht => ?_⟩, ?_⟩
  · exact List.forall_mem_map.mpr (isFlush_opening _ _)
  · obtain ⟨f, hf, ht⟩ := List.mem_flatMap.mp ht
    rcases List.mem_append.mp hf with hf | hf
    · exact c.isFlush_declaration hf ht
    · exact c.isFlush_rule hf ht
  · exact List.forall_mem_map.mpr (isFlush_closing usable name)

end Flush

/-! ## 3. The lines of a program -/

/-- **The managed policy stays in its literal**: it means itself there, or there are no servers that
    have it. -/
def PolicyStays (settings : Settings) (g : Graph) : Prop :=
  (∀ n ∈ g.nodes, n.kind ≠ .server) ∨ isPlainText '\'' settings.managedPolicy = true

instance (settings : Settings) (g : Graph) : Decidable (PolicyStays settings g) :=
  inferInstanceAs (Decidable (_ ∨ _))

/-- **The rules in a text** are the lines of the fragments of edges, one after the other; no line
    before or after them is a rule. -/
def RulesStand (p : Parts) (source : String) : Prop :=
  ∃ before after,
    sourceLines source = before ++ p.edgeFragments.flatMap Fragment.texts ++ after ∧
    ∀ line ∈ before ++ after, ∀ q ∈ Resource.ruleTails, ∀ k,
      ¬ Text.Begins (variableName k ++ q) line

section Lines

variable {settings : Settings} {g : Graph} {name : String} {p : Parts}

/-- The pieces of what is written on a line are lines of the text. -/
theorem mem_sourceLines {t line : String} (ht : t ∈ programTexts settings name p)
    (hl : line ∈ sourceLines t) :
    line ∈ sourceLines (program settings.stackClass name p.fragments) := by
  rw [program, sourceLines_join]
  exact List.mem_append_left _ (List.mem_flatMap.mpr ⟨t, ht, hl⟩)

variable (h : parts settings g name = .ok p)
include h

/-- If the policy stays in its literal, the lines with literals are sound; all others are code. -/
theorem exists_sound (stays : PolicyStays settings g) :
    ∃ ls, Quoting settings g name p ls ∧ ∀ l ∈ ls, l.Sound := by
  obtain ⟨ls, quoting, sound⟩ := exists_quoting h
  refine ⟨ls, quoting, fun l hl => ?_⟩
  rcases sound l hl with sound | ⟨n, hn, kind, symbol, hs, rfl⟩
  · exact sound
  · rcases stays with none | plain
    · exact absurd kind (none n hn)
    · exact Resource.policyLayout_sound ((legible_of_parts h).1 hs) plain

/-- A line that does not break is read as it was written, whatever the other lines are. -/
theorem mem_sourceLines_of_single {t : String} (ht : t ∈ programTexts settings name p)
    (single : ∀ c ∈ t.toList, isBreak c = false) :
    t ∈ sourceLines (program settings.stackClass name p.fragments) := by
  refine mem_sourceLines ht ?_
  rw [sourceLines_single single ((compiled_of_parts h).texts_flush t ht)]
  exact List.mem_singleton_self t

theorem mem_sourceLines_of_fragments {t : String} (ht : t ∈ p.fragments.flatMap Fragment.texts)
    (unbroken : t.toList.any isBreak = false) :
    t ∈ sourceLines (program settings.stackClass name p.fragments) := by
  refine mem_sourceLines_of_single h ?_ fun c hc =>
    eq_false_of_ne_true (List.any_eq_false.mp unbroken c hc)
  rw [programTexts_eq]
  exact List.mem_append_left _ (List.mem_append_right _ ht)

/-- **A program is read line by line as it was written**, if the managed policy stays in its
    literal; after the last line stands an empty one. -/
theorem sourceLines_program (stays : PolicyStays settings g) :
    sourceLines (program settings.stackClass name p.fragments) =
      programTexts settings name p ++ [""] := by
  obtain ⟨ls, quoting, sound⟩ := exists_sound h stays
  have single := quoting.lines.single fun l hl => scan?_written (sound l hl)
  have lines : (programTexts settings name p).flatMap sourceLines =
      programTexts settings name p := by
    have each : ∀ t ∈ programTexts settings name p, sourceLines t = [t] := fun t ht =>
      sourceLines_single (single t ht) ((compiled_of_parts h).texts_flush t ht)
    rw [List.flatMap_congr each, List.flatMap_singleton']
  rw [program, sourceLines_join]
  exact congrArg (· ++ [""]) lines

/-- A line of a program stands in its text as often as it was written, if the managed policy stays in
    its literal. -/
theorem count_sourceLines (stays : PolicyStays settings g) {t : String} (ht : t ≠ "") :
    (sourceLines (program settings.stackClass name p.fragments)).count t =
      (programTexts settings name p).count t := by
  rw [sourceLines_program h stays, List.count_append, List.count_singleton, if_neg, Nat.add_zero]
  rw [beq_iff_eq]
  exact ht.symm

/-- **The rules of a text are those of edges**, if the managed policy stays in its literal. -/
theorem rulesStand_of_parts (stays : PolicyStays settings g) :
    RulesStand p (program settings.stackClass name p.fragments) := by
  have c := compiled_of_parts h
  have usable := (validate_eq_ok c.admitted.usable).1
  refine ⟨(opening settings.stackClass (modulesOf p.fragments)).map Line.text ++
    p.declarations.flatMap Fragment.texts, (closing settings.stackClass name).map Line.text ++ [""],
    ?_, fun line hl q hq k hb => ?_⟩
  · rw [sourceLines_program h stays, programTexts_eq, c.edgeFragments_eq]
    simp only [Parts.fragments, List.flatMap_append, List.append_assoc]
  · simp only [List.mem_append, List.mem_singleton] at hl
    rcases hl with (hl | hl) | hl | rfl
    · exact opening_not_begins line hl ((Text.Begins.append _ _).trans hb)
    · obtain ⟨f, hf, ht⟩ := List.mem_flatMap.mp hl
      exact c.not_rule hf ht hq hb
    · exact closing_not_rule usable hq hl hb
    · cases isFlush_variable hb

end Lines

/-! ## 4. A policy that leaves its literal -/

/-- A managed policy that ends its literal, goes on with a line of its own and begins another
    literal. -/
def injecting (line : String) : String := "x'))\n        " ++ line ++ "\n        print(('"

/-- Settings with such a policy. -/
def injected (line : String) : Settings := { managedPolicy := injecting line }

/-- **Such a policy puts any line into the text of a program** that has a server. -/
theorem mem_sourceLines_injected {g : Graph} {name : String} {p : Parts} {line : String}
    (h : parts (injected line) g name = .ok p) {n : Node} (hn : n ∈ g.nodes)
    (kind : n.kind = .server) (own : sourceLines line = [line]) :
    line ∈ sourceLines (program (injected line).stackClass name p.fragments) := by
  obtain ⟨ls, quoting, -⟩ := exists_quoting h
  obtain ⟨symbol, -, hl⟩ := quoting.exists_policy h hn kind
  refine mem_sourceLines (quoting.lines.mem hl) ?_
  have before : "x'))\n        " = "x'))" ++ "\n" ++ String.ofList (List.replicate 8 ' ') := by decide
  have after : "\n        print(('" = "\n" ++ "        print(('" := rfl
  have cut : (Resource.policyLayout symbol (injected line)).written =
      Resource.policyLead symbol ++ "x'))" ++ "\n" ++
        (String.ofList (List.replicate 8 ' ') ++ line ++ "\n" ++ ("        print(('" ++ "'))")) := by
    simp only [Resource.policyLayout, Layout.written_asIs, Layout.written_nil, injected, injecting,
      before, after, String.append_assoc]
  rw [cut, sourceLines_append_break, sourceLines_append_break, sourceLines_blanks, own]
  simp

end Stack

end InfraDiagram
