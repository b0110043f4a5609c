import InfraDiagram.Proofs.Outcome
import InfraDiagram.Stack.Basic

/-!
# What fragments are made of

A fragment holds what its steps put into it, and nothing else: its lines are those that the steps
write, in their order (`texts_build`), and so are its outputs (`outputs_build`), it defines what a
step defines (`mem_defines_build`), and it refers only to what a step refers to
(`mem_references_build`).

Fragments can be assembled exactly when each of them refers only to what is defined before it
(`Stack.Scoped`).
-/

namespace InfraDiagram

namespace Fragment

/-! ## 1. Lines and outputs -/

/-- The texts of the lines of a fragment. -/
def texts (f : Fragment) : List String := f.lines.map Line.text

/-- The text of the line that a step writes. -/
def Step.text? : Step → Option String
  | .line text => some text
  | .output o => some (outputLine o)
  | _ => none

theorem texts_step (f : Fragment) (s : Step) : (f.step s).texts = f.texts ++ s.text?.toList := by
  cases s with
  | line text => simp [step, addLine, texts, Step.text?]
  | output o => simp [step, addLine, texts, Step.text?]
  | indent => simp [step, texts, Step.text?]
  | dedent => simp [step, texts, Step.text?]
  | use m =>
    simp only [step, Step.text?, Option.toList_none, List.append_nil]
    split <;> rfl
  | define v =>
    simp only [step, Step.text?, Option.toList_none, List.append_nil]
    split <;> rfl
  | reference v =>
    simp only [step, Step.text?, Option.toList_none, List.append_nil]
    split <;> rfl

theorem texts_extend (steps : List Step) : ∀ f : Fragment,
    (f.extend steps).texts = f.texts ++ steps.filterMap Step.text? := by
  induction steps with
  | nil => intro f; simp [extend]
  | cons s steps ih =>
    intro f
    have h : (f.extend (s :: steps)).texts = ((f.step s).extend steps).texts := rfl
    rw [h, ih, texts_step, List.append_assoc]
    cases hs : s.text? <;> simp [hs]

/-- **The lines of a fragment are those of its steps.** -/
theorem texts_build (origin : Origin) (steps : List Step) :
    (build origin steps).texts = steps.filterMap Step.text? :=
  texts_extend steps { origin }

theorem mem_texts_build {origin : Origin} {steps : List Step} {t : String} :
    t ∈ (build origin steps).texts ↔ ∃ s ∈ steps, s.text? = some t := by
  rw [texts_build, List.mem_filterMap]

/-- The output that a step declares. -/
def Step.output? : Step → Option Output
  | .output o => some o
  | _ => none

theorem outputs_step (f : Fragment) (s : Step) :
    (f.step s).outputs = f.outputs ++ s.output?.toList := by
  cases s with
  | output o => rfl
  | line text => simp [step, addLine, Step.output?]
  | indent => simp [step, Step.output?]
  | dedent => simp [step, Step.output?]
  | use m =>
    simp only [step, Step.output?, Option.toList_none, List.append_nil]
    split <;> rfl
  | define v =>
    simp only [step, Step.output?, Option.toList_none, List.append_nil]
    split <;> rfl
  | reference v =>
    simp only [step, Step.output?, Option.toList_none, List.append_nil]
    split <;> rfl

/-- **The outputs of a fragment are those of its steps.** -/
theorem outputs_build (origin : Origin) (steps : List Step) :
    (build origin steps).outputs = steps.filterMap Step.output? := by
  have run : ∀ f : Fragment,
      (f.extend steps).outputs = f.outputs ++ steps.filterMap Step.output? := by
    induction steps with
    | nil => intro f; simp [extend]
    | cons s steps ih =>
      intro f
      have h : (f.extend (s :: steps)).outputs = ((f.step s).extend steps).outputs := rfl
      rw [h, ih, outputs_step, List.append_assoc]
      cases hs : s.output? <;> simp [hs]
  exact run { origin }

/-! ## 2. What the line of a step is like -/

/-- What the line that a step writes is like, if it writes one. -/
def Writes (P : String → Prop) (step : Step) : Prop := ∀ t, step.text? = some t → P t

section Writes

variable {P Q : String → Prop}

theorem Writes.mono {step : Step} (h : Writes P step) (hPQ : ∀ t, P t → Q t) : Writes Q step :=
  fun t ht => hPQ t (h t ht)

theorem writes_line {t : String} : Writes P (.line t) ↔ P t :=
  ⟨fun h => h t rfl, fun h _ e => Option.some.inj e ▸ h⟩

theorem writes_output {o : Output} : Writes P (.output o) ↔ P (Fragment.outputLine o) :=
  ⟨fun h => h _ rfl, fun h _ e => Option.some.inj e ▸ h⟩

theorem writes_indent : Writes P .indent := nofun

theorem writes_dedent : Writes P .dedent := nofun

theorem writes_use {m : Module} : Writes P (.use m) := nofun

theorem writes_define {v : String} : Writes P (.define v) := nofun

theorem writes_reference {v : String} : Writes P (.reference v) := nofun

end Writes

/-! ## 3. Origin, definitions and references -/

theorem origin_step (f : Fragment) (s : Step) : (f.step s).origin = f.origin := by
  cases s <;> simp only [step, addLine] <;> split <;> rfl

theorem origin_build (origin : Origin) (steps : List Step) :
    (build origin steps).origin = origin := by
  have h : ∀ f : Fragment, (f.extend steps).origin = f.origin := by
    induction steps with
    | nil => exact fun _ => rfl
    | cons s steps ih => exact fun f => (ih (f.step s)).trans (origin_step f s)
  exact h { origin }

theorem mem_defines_step {f : Fragment} {s : Step} {v : String} :
    v ∈ (f.step s).defines ↔ v ∈ f.defines ∨ s = .define v := by
  cases s with
  | define w =>
    simp only [step, Step.define.injEq]
    split
    · rename_i hc
      have hw : w ∈ f.defines := by simpa using hc
      exact ⟨Or.inl, fun h => h.elim id fun e => e ▸ hw⟩
    · simp [eq_comm]
  | line text => simp [step, addLine]
  | output o => simp [step, addLine]
  | indent => simp [step]
  | dedent => simp [step]
  | use m =>
    simp only [step, reduceCtorEq, or_false]
    split <;> rfl
  | reference w =>
    simp only [step, reduceCtorEq, or_false]
    split <;> rfl

/-- **A fragment defines what its steps define.** -/
theorem mem_defines_build {origin : Origin} {steps : List Step} {v : String} :
    v ∈ (build origin steps).defines ↔ .define v ∈ steps := by
  have h : ∀ f : Fragment, v ∈ (f.extend steps).defines ↔ v ∈ f.defines ∨ .define v ∈ steps := by
    induction steps with
    | nil => intro f; simp [extend]
    | cons s steps ih =>
      intro f
      have e : (f.extend (s :: steps)).defines = ((f.step s).extend steps).defines := rfl
      rw [e, ih, mem_defines_step, List.mem_cons, or_assoc, eq_comm]
  rw [build, h]
  simp

/-- The variable that a step defines. -/
def Step.define? : Step → Option String
  | .define v => some v
  | _ => none

theorem defines_step (f : Fragment) (s : Step) :
    (f.step s).defines = s.define?.toList.foldl Stack.appendNew f.defines := by
  cases s with
  | define v =>
    show (f.step (.define v)).defines = Stack.appendNew f.defines v
    simp only [step, Stack.appendNew]
    split <;> rfl
  | use m =>
    simp only [step, Step.define?, Option.toList_none, List.foldl_nil]
    split <;> rfl
  | reference v =>
    simp only [step, Step.define?, Option.toList_none, List.foldl_nil]
    split <;> rfl
  | line text => rfl
  | output o => rfl
  | indent => rfl
  | dedent => rfl

/-- The variables of a fragment are those that its steps define, each at its first definition. -/
theorem defines_build (origin : Origin) (steps : List Step) :
    (build origin steps).defines = (steps.filterMap Step.define?).foldl Stack.appendNew [] := by
  have run : ∀ f : Fragment, (f.extend steps).defines =
      (steps.filterMap Step.define?).foldl Stack.appendNew f.defines := by
    induction steps with
    | nil => intro f; rfl
    | cons s steps ih =>
      intro f
      have h : (f.extend (s :: steps)).defines = ((f.step s).extend steps).defines := rfl
      rw [h, ih, defines_step]
      cases hs : s.define? with
      | none => rw [List.filterMap_cons_none hs, Option.toList_none, List.foldl_nil]
      | some v => rw [List.filterMap_cons_some hs, Option.toList_some, List.foldl_cons,
          List.foldl_cons, List.foldl_nil]
  exact run { origin }

theorem mem_imports_step {f : Fragment} {s : Step} {m : Module} :
    m ∈ (f.step s).imports ↔ m ∈ f.imports ∨ s = .use m := by
  cases s with
  | use k =>
    simp only [step, Step.use.injEq]
    split
    · rename_i hc
      have hk : k ∈ f.imports := by simpa using hc
      exact ⟨Or.inl, fun h => h.elim id fun e => e ▸ hk⟩
    · simp [eq_comm]
  | line text => simp [step, addLine]
  | output o => simp [step, addLine]
  | indent => simp [step]
  | dedent => simp [step]
  | define w =>
    simp only [step, reduceCtorEq, or_false]
    split <;> rfl
  | reference w =>
    simp only [step, reduceCtorEq, or_false]
    split <;> rfl

/-- **A fragment needs the modules that its steps use.** -/
theorem mem_imports_build {origin : Origin} {steps : List Step} {m : Module} :
    m ∈ (build origin steps).imports ↔ .use m ∈ steps := by
  have h : ∀ f : Fragment, m ∈ (f.extend steps).imports ↔ m ∈ f.imports ∨ .use m ∈ steps := by
    induction steps with
    | nil => intro f; simp [extend]
    | cons s steps ih =>
      intro f
      have e : (f.extend (s :: steps)).imports = ((f.step s).extend steps).imports := rfl
      rw [e, ih, mem_imports_step, List.mem_cons, or_assoc, eq_comm]
  rw [build, h]
  simp

theorem mem_insertName {name v : String} : ∀ {names : List String},
    v ∈ insertName name names ↔ v = name ∨ v ∈ names
  | [] => by simp [insertName]
  | n :: rest => by
      unfold insertName
      split
      · simp
      · split
        · rename_i h
          have : name = n := by simpa using h
          simp [this]
        · rw [List.mem_cons, mem_insertName, List.mem_cons]
          exact or_left_comm

theorem mem_references_step {f : Fragment} {s : Step} {v : String}
    (h : v ∈ (f.step s).references) : v ∈ f.references ∨ s = .reference v := by
  cases s with
  | reference w =>
    simp only [step] at h
    split at h
    · exact Or.inl h
    · rcases mem_insertName.mp h with rfl | h
      · exact Or.inr rfl
      · exact Or.inl h
  | line text => exact Or.inl h
  | output o => exact Or.inl h
  | indent => exact Or.inl h
  | dedent => exact Or.inl h
  | use m =>
    simp only [step] at h
    split at h <;> exact Or.inl h
  | define w =>
    simp only [step] at h
    split at h <;> exact Or.inl h

/-- **A fragment refers only to what its steps refer to.** -/
theorem mem_references_build {origin : Origin} {steps : List Step} {v : String}
    (h : v ∈ (build origin steps).references) : .reference v ∈ steps := by
  have run : ∀ f : Fragment, v ∈ (f.extend steps).references →
      v ∈ f.references ∨ .reference v ∈ steps := by
    clear h
    induction steps with
    | nil => exact fun _ h => Or.inl h
    | cons s steps ih =>
      intro f h
      rcases ih (f.step s) h with h | h
      · rcases mem_references_step h with h | rfl
        · exact Or.inl h
        · exact Or.inr List.mem_cons_self
      · exact Or.inr (List.mem_cons_of_mem _ h)
  exact (run { origin } h).resolve_left List.not_mem_nil

/-- What a fragment refers to it keeps referring to. -/
theorem mem_references_extend {v : String} : ∀ {steps : List Step} {f : Fragment},
    v ∈ f.references → v ∈ (f.extend steps).references
  | [], _, h => h
  | s :: steps, f, h => by
      have kept : v ∈ (f.step s).references := by
        cases s with
        | reference w =>
          simp only [step]
          split
          · exact h
          · exact mem_insertName.mpr (Or.inr h)
        | use m => simp only [step]; split <;> exact h
        | define w => simp only [step]; split <;> exact h
        | line text => exact h
        | output o => exact h
        | indent => exact h
        | dedent => exact h
      exact mem_references_extend (f := f.step s) kept

end Fragment

/-! ## 4. Assembling -/

namespace Stack

/-- Each fragment refers only to what is defined before it; `defined` is defined already. -/
def Scoped : (defined : List String) → List Fragment → Prop
  | _, [] => True
  | defined, f :: rest => (∀ v ∈ f.references, v ∈ defined) ∧ Scoped (defined ++ f.defines) rest

theorem checkReferences_eq_ok_iff : ∀ {defined : List String} {fs : List Fragment},
    checkReferences defined fs = .ok () ↔ Scoped defined fs
  | _, [] => ⟨fun _ => trivial, fun _ => rfl⟩
  | defined, f :: rest => by
      unfold checkReferences
      split
      · rename_i v hv
        have hm : v ∈ f.references := List.mem_of_find?_eq_some hv
        have hd : v ∉ defined := by simpa using List.find?_some hv
        exact ⟨nofun, fun h => absurd (h.1 v hm) hd⟩
      · rename_i hnone
        have hall : ∀ v ∈ f.references, v ∈ defined := by
          intro v hv
          have := List.find?_eq_none.mp hnone v hv
          simpa using this
        rw [checkReferences_eq_ok_iff]
        exact ⟨fun h => ⟨hall, h⟩, fun h => h.2⟩

theorem scoped_append : ∀ {defined : List String} {fs gs : List Fragment},
    Scoped defined (fs ++ gs) ↔
      Scoped defined fs ∧ Scoped (defined ++ fs.flatMap Fragment.defines) gs
  | defined, [], gs => by simp [Scoped]
  | defined, f :: fs, gs => by
      simp only [List.cons_append, Scoped, List.flatMap_cons]
      rw [scoped_append, List.append_assoc, and_assoc]

/-- Fragments that refer only to what is there from the start. -/
theorem scoped_of_forall : ∀ {defined : List String} {fs : List Fragment},
    (∀ f ∈ fs, ∀ v ∈ f.references, v ∈ defined) → Scoped defined fs
  | _, [], _ => trivial
  | defined, f :: fs, h => by
      refine ⟨h f List.mem_cons_self, scoped_of_forall fun f' hf' v hv => ?_⟩
      exact List.mem_append_left _ (h f' (List.mem_cons_of_mem _ hf') v hv)

/-- The stack that some fragments make, if they are scoped. -/
def assembled (className stackName : String) (fragments : List Fragment) : Stack where
  name := stackName
  source := program className stackName fragments
  declared := declaredBy fragments
  outputs := fragments.flatMap Fragment.outputs

/-- **Assembling succeeds exactly on scoped fragments.** -/
theorem assemble_eq_ok_iff {className stackName : String} {fs : List Fragment} {stack : Stack} :
    assemble className stackName fs = .ok stack ↔
      Scoped [] fs ∧ stack = assembled className stackName fs := by
  unfold assemble
  rw [Outcome.bind_eq_ok]
  constructor
  · rintro ⟨⟨⟩, hc, h⟩
    exact ⟨checkReferences_eq_ok_iff.mp hc, (Except.ok.inj h).symm⟩
  · rintro ⟨hs, rfl⟩
    exact ⟨(), checkReferences_eq_ok_iff.mpr hs, rfl⟩

end Stack

end InfraDiagram
