import InfraDiagram.Proofs.ByteOrder
import InfraDiagram.Proofs.ProgramScope

/-!
# Definition before use

Whether every reference comes after a definition is found out in two places. Building a fragment
drops a reference to what the fragment has defined already, and assembling compares what is left
with what earlier fragments define. Together this is the plain rule on all steps, one after the
other: a reference is unmet if no definition comes before it (`Unmet`), and a reference of a
fragment is unmet exactly if it is unmet within the fragment and nothing before the fragment defines
it (`unmet_iff`).
-/

namespace InfraDiagram

open Fragment (Step)

namespace Fragment

/-! ## 1. Unmet references -/

/-- **An unmet reference**: one to `v` among some steps, with no definition of `v` before it,
    neither among the steps nor among those that came `before` them. -/
def Unmet (before steps : List Step) (v : String) : Prop :=
  ∃ earlier later, steps = earlier ++ .reference v :: later ∧ .define v ∉ before ++ earlier

section Unmet

variable {before steps : List Step} {v : String}

theorem not_unmet_nil : ¬ Unmet before [] v := by
  rintro ⟨earlier, later, split, -⟩
  simp at split

/-- What is unmet within some steps, and not defined before them, is unmet. -/
theorem unmet_iff : Unmet before steps v ↔ .define v ∉ before ∧ Unmet [] steps v := by
  simp only [Unmet, List.mem_append, not_or, List.not_mem_nil, not_false_eq_true, true_and]
  constructor
  · rintro ⟨earlier, later, split, fresh, undefined⟩
    exact ⟨fresh, earlier, later, split, undefined⟩
  · rintro ⟨fresh, earlier, later, split, undefined⟩
    exact ⟨earlier, later, split, fresh, undefined⟩

theorem unmet_append {xs ys : List Step} :
    Unmet before (xs ++ ys) v ↔ Unmet before xs v ∨ Unmet (before ++ xs) ys v := by
  constructor
  · rintro ⟨earlier, later, split, undefined⟩
    rcases List.append_eq_append_iff.mp split with ⟨mid, rfl, hys⟩ | ⟨mid, hxs, rest⟩
    · exact Or.inr ⟨mid, later, hys, by rwa [List.append_assoc]⟩
    · cases mid with
      | nil =>
        rw [List.append_nil] at hxs
        exact Or.inr ⟨[], later, rest.symm, by rwa [List.append_nil, hxs]⟩
      | cons s mid =>
        obtain ⟨rfl, -⟩ := List.cons.inj rest
        exact Or.inl ⟨earlier, mid, hxs, undefined⟩
  · rintro (⟨earlier, later, rfl, undefined⟩ | ⟨earlier, later, rfl, undefined⟩)
    · exact ⟨earlier, later ++ ys, by simp, undefined⟩
    · exact ⟨xs ++ earlier, later, by simp, by rwa [← List.append_assoc]⟩

theorem unmet_singleton {s : Step} :
    Unmet before [s] v ↔ s = .reference v ∧ .define v ∉ before := by
  constructor
  · rintro ⟨earlier, later, split, undefined⟩
    cases earlier with
    | nil => exact ⟨(List.cons.inj split).1, by rwa [List.append_nil] at undefined⟩
    | cons _ _ => simp at split
  · rintro ⟨rfl, undefined⟩
    exact ⟨[], [], rfl, by rwa [List.append_nil]⟩

end Unmet

/-! ## 2. The references of a fragment -/

theorem build_concat (origin : Origin) (steps : List Step) (s : Step) :
    build origin (steps ++ [s]) = (build origin steps).step s := by
  rw [build, build, extend, List.foldl_append]
  rfl

theorem mem_references_step_iff {f : Fragment} {s : Step} {v : String} :
    v ∈ (f.step s).references ↔ v ∈ f.references ∨ s = .reference v ∧ v ∉ f.defines := by
  refine ⟨fun h => ?_, fun h => ?_⟩
  · by_cases hs : s = .reference v
    · subst hs
      by_cases hv : v ∈ f.defines
      · rw [step, if_pos (List.contains_iff_mem.mpr hv)] at h
        exact Or.inl h
      · exact Or.inr ⟨rfl, hv⟩
    · exact Or.inl ((mem_references_step h).resolve_right hs)
  · rcases h with h | ⟨rfl, hv⟩
    · have kept : v ∈ (f.extend [s]).references := mem_references_extend h
      exact kept
    · rw [step, if_neg (by simpa using hv)]
      exact mem_insertName.mpr (Or.inl rfl)

/-- **A fragment refers to what is unmet among its steps.** -/
theorem mem_references_build_iff {origin : Origin} {steps : List Step} {v : String} :
    v ∈ (build origin steps).references ↔ Unmet [] steps v := by
  induction steps using List.reverseRecOn with
  | nil => exact iff_of_false List.not_mem_nil not_unmet_nil
  | append_singleton steps s ih =>
    rw [build_concat, mem_references_step_iff, ih, mem_defines_build, unmet_append, List.nil_append,
      unmet_singleton]

theorem rising_insertName {name : String} : ∀ {names : List String},
    names.Pairwise (· < ·) → (insertName name names).Pairwise (· < ·)
  | [], _ => List.pairwise_singleton _ name
  | n :: rest, h => by
      obtain ⟨first, rising⟩ := List.pairwise_cons.mp h
      unfold insertName
      split
      · rename_i lt
        exact List.pairwise_cons.mpr
          ⟨List.forall_mem_cons.mpr ⟨lt, fun m hm => String.lt_trans lt (first m hm)⟩, h⟩
      · rename_i notLt
        split
        · exact h
        · rename_i ne
          refine List.pairwise_cons.mpr ⟨fun m hm => ?_, rising_insertName rising⟩
          rcases mem_insertName.mp hm with rfl | hm
          · by_contra notGt
            have same := String.le_antisymm (String.not_lt.mp notGt) (String.not_lt.mp notLt)
            exact ne (by simp [same])
          · exact first m hm

theorem rising_references_build (origin : Origin) (steps : List Step) :
    (build origin steps).references.Pairwise (· < ·) := by
  induction steps using List.reverseRecOn with
  | nil => exact .nil
  | append_singleton steps s ih =>
    rw [build_concat]
    cases s with
    | reference v =>
      simp only [step]
      split
      · exact ih
      · exact rising_insertName ih
    | use m => simp only [step]; split <;> exact ih
    | define v => simp only [step]; split <;> exact ih
    | line text => exact ih
    | output o => exact ih
    | indent => exact ih
    | dedent => exact ih

end Fragment

namespace Stack

open Fragment (Unmet unmet_iff unmet_append not_unmet_nil)

/-! ## 3. The check of all fragments -/

/-- The fragments that some steps build, each with its origin. -/
def builtFrom (parts : List (Origin × List Step)) : List Fragment :=
  parts.map fun part => Fragment.build part.1 part.2

/-- All steps, one after the other. -/
def allSteps (parts : List (Origin × List Step)) : List Step := parts.flatMap Prod.snd

/-- **The least unmet reference** of some steps: there is none whose bytes come first. -/
def LeastUnmet (before steps : List Step) (v : String) : Prop :=
  Unmet before steps v ∧
    ∀ w, Unmet before steps w → w = v ∨ List.Lex (· < ·) (Text.bytes v) (Text.bytes w)

/-- **The first unmet reference** of some fragments: the least one of the fragment of `origin`,
    where no earlier fragment has one. -/
def FirstUnmet (before : List Step) (parts : List (Origin × List Step)) (origin : Origin)
    (v : String) : Prop :=
  ∃ earlier steps later, parts = earlier ++ (origin, steps) :: later ∧
    (∀ w, ¬ Unmet before (allSteps earlier) w) ∧ LeastUnmet (before ++ allSteps earlier) steps v

theorem FirstUnmet.head {before steps : List Step} {v : String} (h : LeastUnmet before steps v)
    (origin : Origin) (rest : List (Origin × List Step)) :
    FirstUnmet before ((origin, steps) :: rest) origin v :=
  ⟨[], steps, rest, rfl, fun _ => not_unmet_nil, (List.append_nil before).symm ▸ h⟩

theorem FirstUnmet.cons {before : List Step} {part : Origin × List Step}
    {parts : List (Origin × List Step)} {origin : Origin} {v : String}
    (met : ∀ w, ¬ Unmet before part.2 w) (h : FirstUnmet (before ++ part.2) parts origin v) :
    FirstUnmet before (part :: parts) origin v := by
  obtain ⟨earlier, steps, later, rfl, metLater, least⟩ := h
  refine ⟨part :: earlier, steps, later, rfl, fun w hw => ?_, ?_⟩
  · exact (unmet_append.mp hw).elim (met w) (metLater w)
  · exact List.append_assoc before part.2 _ ▸ least

theorem FirstUnmet.unmet {before : List Step} {parts : List (Origin × List Step)}
    {origin : Origin} {v : String} (h : FirstUnmet before parts origin v) :
    Unmet before (allSteps parts) v := by
  obtain ⟨earlier, steps, later, rfl, -, unmet, -⟩ := h
  rw [allSteps, List.flatMap_append, List.flatMap_cons]
  exact unmet_append.mpr (Or.inr (unmet_append.mpr (Or.inl unmet)))

/-- What the check finds in one fragment, if it finds something. -/
theorem find?_references {before : List Step} {defined : List String}
    (hd : ∀ v, v ∈ defined ↔ .define v ∈ before) {origin : Origin} {steps : List Step} {v : String}
    (found : ((Fragment.build origin steps).references.find? fun v => !defined.contains v) =
      some v) :
    LeastUnmet before steps v := by
  obtain ⟨new, smaller, larger, split, known⟩ := List.find?_eq_some_iff_append.mp found
  have rising := Fragment.rising_references_build origin steps
  have mem : ∀ w, w ∈ smaller ++ v :: larger ↔ Unmet [] steps w := by
    intro w
    rw [← split, Fragment.mem_references_build_iff]
  rw [split] at rising
  refine ⟨unmet_iff.mpr ⟨fun hv => ?_, (mem v).mp (by simp)⟩, fun w hw => ?_⟩
  · rw [← hd] at hv
    simp [hv] at new
  · obtain ⟨undefined, inside⟩ := unmet_iff.mp hw
    rcases List.mem_append.mp ((mem w).mpr inside) with early | late
    · -- What comes before `v` is defined, so it is not unmet.
      have := known w early
      exact absurd ((hd w).mp (by simpa using this)) undefined
    · refine (List.mem_cons.mp late).imp_right fun late => ?_
      have gt := (List.pairwise_cons.mp (List.pairwise_append.mp rising).2.1).1 w late
      exact Text.bytes_lex_of_lt gt

/-- **The check of all fragments finds the first unmet reference, or there is none.** -/
theorem checkReferences_builtFrom : ∀ (parts : List (Origin × List Step)) {before : List Step}
    {defined : List String}, (∀ v, v ∈ defined ↔ .define v ∈ before) →
    (checkReferences defined (builtFrom parts) = .ok () ∧ ∀ v, ¬ Unmet before (allSteps parts) v) ∨
    ∃ origin v, FirstUnmet before parts origin v ∧
      checkReferences defined (builtFrom parts) = .error (.undefinedReference origin v)
  | [], _, _, _ => Or.inl ⟨rfl, fun _ => not_unmet_nil⟩
  | (origin, steps) :: rest, before, defined, hd => by
      have unfolded : checkReferences defined (builtFrom ((origin, steps) :: rest)) =
        checkReferences defined (Fragment.build origin steps :: builtFrom rest) := rfl
      have all : allSteps ((origin, steps) :: rest) = steps ++ allSteps rest := rfl
      rw [unfolded, all]
      unfold checkReferences
      split
      · rename_i v found
        refine Or.inr ⟨origin, v, .head (find?_references hd found) origin rest, ?_⟩
        rw [Fragment.origin_build]
      · rename_i none
        have met : ∀ v, ¬ Unmet before steps v := by
          intro v hv
          obtain ⟨undefined, inside⟩ := unmet_iff.mp hv
          have := List.find?_eq_none.mp none v (Fragment.mem_references_build_iff.mpr inside)
          exact undefined ((hd v).mp (by simpa using this))
        have hd' : ∀ v, v ∈ defined ++ (Fragment.build origin steps).defines ↔
            .define v ∈ before ++ steps := by
          intro v
          rw [List.mem_append, List.mem_append, hd, Fragment.mem_defines_build]
        rcases checkReferences_builtFrom rest hd' with ⟨ok, noneLater⟩ | ⟨origin', v, first, failed⟩
        · refine Or.inl ⟨ok, fun v hv => ?_⟩
          exact (unmet_append.mp hv).elim (met v) (noneLater v)
        · exact Or.inr ⟨origin', v, .cons met first, failed⟩

/-! ## 4. First definitions -/

/-- **The variables that some steps define, in the order of their first definitions.** -/
structure FirstDefinitions (steps : List Step) (vs : List String) : Prop where
  mem : ∀ v, v ∈ vs ↔ .define v ∈ steps
  rising : vs.Pairwise fun v w => steps.idxOf (Step.define v) < steps.idxOf (Step.define w)
  distinct : vs.Nodup

/-- Places of first definitions do not change when steps are added. -/
theorem FirstDefinitions.rising_append {steps : List Step} {vs : List String}
    (h : FirstDefinitions steps vs) (more : List Step) :
    vs.Pairwise fun v w =>
      (steps ++ more).idxOf (Step.define v) < (steps ++ more).idxOf (Step.define w) := by
  refine h.rising.imp_of_mem fun {v w} hv hw lt => ?_
  rwa [List.idxOf_append_of_mem ((h.mem v).mp hv), List.idxOf_append_of_mem ((h.mem w).mp hw)]

theorem FirstDefinitions.concat {steps : List Step} {vs : List String}
    (h : FirstDefinitions steps vs) (s : Step) :
    FirstDefinitions (steps ++ [s]) (s.define?.toList.foldl appendNew vs) := by
  have mem : ∀ v, v ∈ s.define?.toList.foldl appendNew vs ↔ .define v ∈ steps ++ [s] := by
    intro v
    rw [mem_foldl_appendNew, h.mem, List.mem_append, List.mem_singleton]
    cases s <;> simp [Step.define?, eq_comm]
  refine ⟨mem, ?_, nodup_foldl_appendNew _ h.distinct⟩
  cases hs : s.define? with
  | none => exact h.rising_append [s]
  | some v =>
    show (appendNew vs v).Pairwise _
    unfold appendNew
    split
    · exact h.rising_append [s]
    · -- The last step is the first definition of `v`, after those of all others.
      rename_i new
      have fresh : .define v ∉ steps := fun hv => new (List.contains_iff_mem.mpr ((h.mem v).mpr hv))
      refine List.pairwise_append.mpr
        ⟨h.rising_append [s], List.pairwise_singleton _ v, fun w hw x hx => ?_⟩
      have there := (h.mem w).mp hw
      rw [List.mem_singleton.mp hx, List.idxOf_append_of_mem there,
        List.idxOf_append_of_notMem fresh]
      exact Nat.lt_add_right _ (List.idxOf_lt_length_of_mem there)

theorem firstDefinitions (steps : List Step) :
    FirstDefinitions steps ((steps.filterMap Step.define?).foldl appendNew []) := by
  induction steps using List.reverseRecOn with
  | nil => exact ⟨by simp, .nil, .nil⟩
  | append_singleton steps s ih =>
    have last : [s].filterMap Step.define? = s.define?.toList := by
      cases hs : s.define? <;> simp [hs]
    rw [List.filterMap_append, List.foldl_append, last]
    exact ih.concat s

/-- Appending what is new in a list is appending what is new in it, each at its first place. -/
theorem foldl_appendNew_foldl_appendNew : ∀ (ys : List String) {xs zs : List String},
    (ys.foldl appendNew zs).foldl appendNew xs = ys.foldl appendNew (zs.foldl appendNew xs)
  | [], _, _ => rfl
  | y :: ys, xs, zs => by
      rw [List.foldl_cons, foldl_appendNew_foldl_appendNew ys, List.foldl_cons]
      congr 1
      by_cases hy : y ∈ zs
      · have known : y ∈ zs.foldl appendNew xs := mem_foldl_appendNew.mpr (Or.inr hy)
        rw [appendNew, if_pos (List.contains_iff_mem.mpr hy), appendNew,
          if_pos (List.contains_iff_mem.mpr known)]
      · rw [appendNew, if_neg fun h => hy (List.contains_iff_mem.mp h), List.foldl_append]
        rfl

theorem declaredBy_builtFrom (parts : List (Origin × List Step)) :
    declaredBy (builtFrom parts) =
      ((allSteps parts).filterMap Step.define?).foldl appendNew [] := by
  have run : ∀ xs : List String, ((builtFrom parts).flatMap Fragment.defines).foldl appendNew xs =
      ((allSteps parts).filterMap Step.define?).foldl appendNew xs := by
    induction parts with
    | nil => exact fun _ => rfl
    | cons part parts ih =>
      intro xs
      have steps : allSteps (part :: parts) = part.2 ++ allSteps parts := rfl
      have built : builtFrom (part :: parts) =
        Fragment.build part.1 part.2 :: builtFrom parts := rfl
      rw [steps, built, List.flatMap_cons, List.foldl_append, ih, Fragment.defines_build,
        foldl_appendNew_foldl_appendNew, List.filterMap_append, List.foldl_append]
      rfl
  exact run []

/-! ## 5. Assembling -/

/-- Every reference comes after a definition. -/
def DefinedBeforeUse (steps : List Step) : Prop :=
  ∀ earlier v later, steps = earlier ++ .reference v :: later → .define v ∈ earlier

theorem definedBeforeUse_iff {steps : List Step} :
    DefinedBeforeUse steps ↔ ∀ v, ¬ Unmet [] steps v := by
  constructor
  · rintro h v ⟨earlier, later, split, undefined⟩
    exact undefined (h earlier v later split)
  · intro h earlier v later split
    by_contra undefined
    exact h v ⟨earlier, later, split, undefined⟩

/-- **Definition before use is decided exactly.** Fragments can be assembled exactly if, in all
    their steps one after the other, every reference comes after a definition. Otherwise the error
    names the origin of the first fragment with an unmet reference, and of its unmet references the
    one whose bytes come first. What the stack declares are the first definitions, in their
    order. -/
theorem assemble_defined_before_use (className stackName : String)
    (parts : List (Origin × List Step)) :
    ((∃ stack, assemble className stackName (builtFrom parts) = .ok stack) ↔
      DefinedBeforeUse (allSteps parts)) ∧
    (∀ error, assemble className stackName (builtFrom parts) = .error error →
      ∃ origin v, FirstUnmet [] parts origin v ∧ error = .undefinedReference origin v) ∧
    ∀ stack, assemble className stackName (builtFrom parts) = .ok stack →
      FirstDefinitions (allSteps parts) stack.declared := by
  have start : ∀ v : String, v ∈ ([] : List String) ↔ Step.define v ∈ ([] : List Step) := by simp
  rw [definedBeforeUse_iff]
  rcases checkReferences_builtFrom parts start with ⟨ok, met⟩ | ⟨origin, v, first, failed⟩
  · have done : assemble className stackName (builtFrom parts) =
        .ok (assembled className stackName (builtFrom parts)) := by
      rw [assemble, ok]
      rfl
    refine ⟨iff_of_true ⟨_, done⟩ met, by simp [done], fun stack h => ?_⟩
    rw [done] at h
    cases h
    show FirstDefinitions _ (declaredBy (builtFrom parts))
    rw [declaredBy_builtFrom]
    exact firstDefinitions _
  · have stopped : assemble className stackName (builtFrom parts) =
        .error (.undefinedReference origin v) := by
      rw [assemble, failed]
      rfl
    refine ⟨iff_of_false (by simp [stopped]) fun met => ?_, fun error h => ?_, by simp [stopped]⟩
    · exact met v first.unmet
    · rw [stopped] at h
      exact ⟨origin, v, first, (Except.error.inj h).symm⟩

/-- A definition that follows in the same fragment does not meet a reference. -/
example : assemble "Web" "web" (builtFrom [(.node "net", [.define "vpc"]),
    (.node "web", [.reference "vpc", .reference "role", .reference "ami", .define "ami"])]) =
    .error (.undefinedReference (.node "web") "ami") := by cbv

end Stack

end InfraDiagram
