import InfraDiagram.File.Tree
import InfraDiagram.Proofs.Outcome
import Mathlib.Data.List.Basic
import Mathlib.Data.List.Induction

/-!
# Places in a tree

What changes to a tree keep. Nothing in a tree ever goes away, and no file becomes a directory or the
other way round (`Grows`); making directories changes nothing that was there (`Adds`). So a way
through directories stays one (`enter_of_grows`). In a tree where everything stands in a directory
(`Sound`), which no change undoes, all places before one that is taken are directories.
-/

namespace InfraDiagram.File.Tree

open Outcome (bind_eq_ok)

variable {t t' t'' : Tree} {p q place names : List String} {name : String} {e : Entry}

/-! ## 1. Putting something at a place -/

theorem not_anchor_of_ne (h : t.find? p ≠ some .directory) : isAnchor p = false := by
  refine Bool.eq_false_iff.mpr fun anchor => h ?_
  unfold find?
  rw [if_pos anchor]

theorem ne_directory_of_free (h : t.find? p = none) : t.find? p ≠ some .directory := by
  rw [h]
  exact (Option.some_ne_none _).symm

theorem isAnchor_of_concat (h : isAnchor (p ++ [name]) = true) : isAnchor p = true := by
  unfold isAnchor at h ⊢
  rw [Bool.or_eq_true_iff] at h ⊢
  rcases h with root | tops
  · have same : p ++ [name] = [] ++ ["/"] := beq_iff_eq.mp root
    rw [(List.append_inj' same rfl).1]
    exact Or.inr rfl
  · rw [List.all_append, Bool.and_eq_true_iff] at tops
    exact Or.inr tops.1

theorem find?_put (free : t.find? p ≠ some .directory) (q : List String) :
    (t.put p e).find? q = if q = p then some e else t.find? q := by
  have anchor := not_anchor_of_ne free
  unfold find? put
  by_cases here : q = p
  · subst here
    have gone : (t.entries.filter fun x => x.1 != q).lookup q = none := by
      rw [List.lookup_eq_none_iff]
      intro x hx
      rw [bne_comm]
      exact (List.mem_filter.mp hx).2
    simp [anchor, List.lookup_append, gone]
  · have apart : (q == p) = false := beq_eq_false_iff_ne.mpr here
    have other : (t.entries.filter fun x => x.1 != p).lookup q = t.entries.lookup q :=
      Outcome.lookup_filter_of_ne here t.entries
    simp [here, List.lookup_append, List.lookup_cons, apart, other]

/-! ## 2. Growth -/

/-- **What was there stays**: a directory as one, and a file as a file. -/
structure Grows (t t' : Tree) : Prop where
  directory : ∀ {p}, t.find? p = some .directory → t'.find? p = some .directory
  file : ∀ {p c}, t.find? p = some (.file c) → ∃ c', t'.find? p = some (.file c')

theorem Grows.refl (t : Tree) : t.Grows t := ⟨id, fun h => ⟨_, h⟩⟩

theorem Grows.trans (h : t.Grows t') (h' : t'.Grows t'') : t.Grows t'' where
  directory there := h'.directory (h.directory there)
  file there := by
    obtain ⟨c, there'⟩ := h.file there
    exact h'.file there'

/-- What is free was so before. -/
theorem Grows.free (h : t.Grows t') (nothing : t'.find? p = none) : t.find? p = none := by
  cases there : t.find? p with
  | none => rfl
  | some e =>
    cases e with
    | directory =>
      rw [h.directory there] at nothing
      cases nothing
    | file c =>
      obtain ⟨c', there'⟩ := h.file there
      rw [there'] at nothing
      cases nothing

/-- A file put where no directory is. -/
theorem Grows.put_file {c : Content} (h : t.find? p ≠ some .directory) :
    t.Grows (t.put p (.file c)) where
  directory {q} there := by
    rw [find?_put h, if_neg, there]
    rintro rfl
    exact h there
  file {q c'} there := by
    rw [find?_put h]
    by_cases here : q = p
    · exact ⟨c, if_pos here⟩
    · exact ⟨c', (if_neg here).trans there⟩

/-! ## 3. Everything stands in a directory -/

/-- **Everything in the tree stands in a directory.** -/
def Sound (t : Tree) : Prop := ∀ x ∈ t.entries, t.find? x.1.dropLast = some .directory

instance (t : Tree) : Decidable t.Sound :=
  inferInstanceAs (Decidable (∀ x ∈ t.entries, t.find? x.1.dropLast = some .directory))

theorem Sound.around (sound : t.Sound) (h : t.find? (p ++ [name]) = some e) :
    t.find? p = some .directory := by
  by_cases anchor : isAnchor (p ++ [name]) = true
  · unfold find?
    rw [if_pos (isAnchor_of_concat anchor)]
  · unfold find? at h
    rw [if_neg anchor, List.lookup_eq_some_iff] at h
    obtain ⟨before, after, entries, -⟩ := h
    have there : (p ++ [name], e) ∈ t.entries := entries ▸ List.mem_append_cons_self
    have found := sound _ there
    rwa [List.dropLast_concat] at found

/-- All places before one that is taken are directories. -/
theorem Sound.outer (sound : t.Sound) (h : t.find? (p ++ q) = some e) (inner : q ≠ []) :
    t.find? p = some .directory := by
  induction q using List.reverseRecOn generalizing e with
  | nil => exact absurd rfl inner
  | append_singleton q name ih =>
    rw [← List.append_assoc] at h
    have around := sound.around h
    by_cases last : q = []
    · rwa [last, List.append_nil] at around
    · exact ih around last

/-- Nothing stands below a place that is free. -/
theorem Sound.free_below (sound : t.Sound) (free : t.find? p = none) (q : List String) :
    t.find? (p ++ q) = none := by
  by_cases here : q = []
  · rwa [here, List.append_nil]
  · refine Option.eq_none_iff_forall_ne_some.mpr fun e there => ?_
    rw [sound.outer there here] at free
    cases free

/-- Something put in a directory, where no directory is. -/
theorem Sound.put (sound : t.Sound) (around : t.find? place = some .directory)
    (free : t.find? (place ++ [name]) ≠ some .directory) : (t.put (place ++ [name]) e).Sound := by
  intro x hx
  have there : t.find? x.1.dropLast = some .directory := by
    rcases List.mem_append.mp hx with old | new
    · exact sound x (List.mem_filter.mp old).1
    · rw [List.mem_singleton.mp new, List.dropLast_concat]
      exact around
  rw [find?_put free, if_neg, there]
  intro same
  exact free (same ▸ there)

/-! ## 4. Steps -/

theorem next_of_isName (h : isName name = true) : next place name = place ++ [name] := by
  unfold isName at h
  unfold next
  simp only [Bool.and_eq_true, bne_iff_ne, ne_eq] at h
  simp [h.1.1, h.1.2]

/-- The place above a directory is one. -/
theorem Sound.above (sound : t.Sound) (h : t.find? place = some .directory) :
    t.find? (above place) = some .directory := by
  unfold Tree.above
  split
  · exact h
  · split
    · rename_i root anchor
      have tops : place.all (fun name => name == "..") = true := by
        unfold isAnchor at anchor
        rcases Bool.or_eq_true_iff.mp anchor with e | e
        · exact absurd e root
        · exact e
      have up : isAnchor (place ++ [".."]) = true := by
        unfold isAnchor
        rw [List.all_append, tops]
        exact Bool.or_true _
      unfold find?
      rw [if_pos up]
    · rename_i anchor
      have taken : place ≠ [] := by
        rintro rfl
        exact anchor rfl
      obtain ⟨outer, name, rfl⟩ := List.eq_nil_or_concat place |>.resolve_left taken
      rw [List.concat_eq_append] at h ⊢
      rw [List.dropLast_concat]
      exact sound.around h

/-- A step from a directory leads to a directory or to a name in it. -/
theorem Sound.next_cases (sound : t.Sound) (h : t.find? place = some .directory) (step : String) :
    t.find? (next place step) = some .directory ∨ next place step = place ++ [step] := by
  unfold next
  split
  · exact Or.inl h
  · split
    · exact Or.inl (sound.above h)
    · exact Or.inr rfl

theorem enter_append (place xs ys : List String) :
    t.enter place (xs ++ ys) = t.enter place xs >>= fun q => t.enter q ys := by
  induction xs generalizing place with
  | nil => rfl
  | cons x xs ih =>
    simp only [List.cons_append, enter]
    cases look place x with
    | error f => rfl
    | ok there =>
      simp only [Outcome.ok_bind]
      split
      · exact ih there
      · rfl
      · rfl

theorem enter_directory {steps : List String} (h : t.enter place steps = .ok q)
    (dir : t.find? place = some .directory) : t.find? q = some .directory := by
  induction steps generalizing place with
  | nil =>
    cases h
    exact dir
  | cons step rest ih =>
    obtain ⟨there, -, entered⟩ := bind_eq_ok.mp h
    split at entered
    · rename_i found
      exact ih entered found
    · cases entered
    · cases entered

/-- **A way through directories stays one.** -/
theorem enter_of_grows (grows : t.Grows t') {steps : List String}
    (h : t.enter place steps = .ok q) : t'.enter place steps = .ok q := by
  induction steps generalizing place with
  | nil => exact h
  | cons step rest ih =>
    obtain ⟨there, looked, entered⟩ := bind_eq_ok.mp h
    split at entered
    · rename_i found
      unfold enter
      rw [looked, Outcome.ok_bind, grows.directory found]
      exact ih entered
    · cases entered
    · cases entered

theorem enter_names {names : List String} (proper : ∀ name ∈ names, isName name = true)
    (h : t.enter place names = .ok q) : q = place ++ names := by
  induction names generalizing place with
  | nil =>
    cases h
    exact (List.append_nil _).symm
  | cons name rest ih =>
    obtain ⟨there, looked, entered⟩ := bind_eq_ok.mp h
    have at_name : there = place ++ [name] := by
      unfold look at looked
      split at looked
      · cases looked
      · rw [← Except.ok.inj looked, next_of_isName (proper name List.mem_cons_self)]
    split at entered
    · rw [ih (fun n hn => proper n (List.mem_cons_of_mem _ hn)) entered, at_name,
        List.append_assoc]
      rfl
    · cases entered
    · cases entered

/-- The way to what is there stays the same. -/
theorem enter_eq_of_grows (sound : t.Sound) (grows : t.Grows t') {names : List String}
    (proper : ∀ name ∈ names, isName name = true) (inner : q ≠ [])
    (h : t.find? (place ++ (names ++ q)) = some e) :
    t'.enter place names = t.enter place names := by
  induction names generalizing place with
  | nil => rfl
  | cons name rest ih =>
    have split_place : place ++ (name :: rest ++ q) = place ++ [name] ++ (rest ++ q) := by simp
    rw [split_place] at h
    have there := sound.outer h (List.append_ne_nil_of_right_ne_nil _ inner)
    unfold enter look
    rw [next_of_isName (proper name List.mem_cons_self)]
    split
    · rfl
    · simp only [Outcome.ok_bind, there, grows.directory there]
      exact ih (fun n hn => proper n (List.mem_cons_of_mem _ hn)) h

/-- A directory that a text leads to can be entered. -/
theorem enter_of_directory? {given : String} (h : t.directory? ⟨given, []⟩ = some place) :
    t.enter [] (Path.steps ⟨given, []⟩) = .ok place := by
  unfold directory? at h
  split at h
  · rename_i names placed
    split at h
    · rename_i found
      cases h
      obtain ⟨around, aroundOk, placed⟩ := bind_eq_ok.mp placed
      obtain ⟨-, -, entered⟩ := bind_eq_ok.mp aroundOk
      split at entered
      · cases entered
      · cases last : (Path.steps ⟨given, []⟩).getLast? with
        | none =>
          rw [last] at placed
          cases placed
          rwa [List.getLast?_eq_none_iff.mp last] at entered ⊢
        | some step =>
          rw [last] at placed
          have looked : look around step = .ok place := placed
          rw [← List.dropLast_append_getLast? step last, enter_append, entered, Outcome.ok_bind]
          unfold enter
          rw [looked, Outcome.ok_bind, beq_iff_eq.mp found]
          rfl
    · cases h
  · cases h

/-! ## 5. Making directories -/

/-- **Directories were made, and nothing else**: what was there is unchanged. -/
structure Adds (t t' : Tree) : Prop where
  kept : ∀ {p e}, t.find? p = some e → t'.find? p = some e
  new : ∀ {p}, t.find? p = none → t'.find? p = none ∨ t'.find? p = some .directory
  sound : t.Sound → t'.Sound

namespace Adds

theorem refl (t : Tree) : t.Adds t := ⟨id, Or.inl, id⟩

theorem trans (h : t.Adds t') (h' : t'.Adds t'') : t.Adds t'' where
  kept there := h'.kept (h.kept there)
  new free := by
    rcases h.new free with still | made
    · exact h'.new still
    · exact Or.inr (h'.kept made)
  sound s := h'.sound (h.sound s)

theorem grows (h : t.Adds t') : t.Grows t' := ⟨h.kept, fun there => ⟨_, h.kept there⟩⟩

theorem file_iff (h : t.Adds t') {c : Content} :
    t'.find? p = some (.file c) ↔ t.find? p = some (.file c) := by
  refine ⟨fun there => ?_, h.kept⟩
  cases before : t.find? p with
  | none => rcases h.new before with e | e <;> rw [e] at there <;> cases there
  | some e => rw [← h.kept before, there]

theorem put (free : t.find? p = none) (sound : t.Sound → (t.put p .directory).Sound) :
    t.Adds (t.put p .directory) := by
  have found := find?_put (e := .directory) (ne_directory_of_free free)
  refine ⟨fun {q e} there => ?_, fun {q} nothing => ?_, sound⟩
  · rw [found, if_neg, there]
    rintro rfl
    rw [free] at there
    cases there
  · rw [found]
    by_cases here : q = p
    · exact Or.inr (if_pos here)
    · exact Or.inl ((if_neg here).trans nothing)

end Adds

/-- The top is a directory. -/
theorem find?_top : t.find? [] = some .directory := rfl

theorem makeDirectory_adds {steps : List String} (h : t.makeDirectory steps = .ok t') :
    t.Adds t' := by
  obtain ⟨around, entered, h⟩ := bind_eq_ok.mp h
  cases last : steps.getLast? with
  | none =>
    rw [last] at h
    cases h
    exact .refl t
  | some step =>
    rw [last] at h
    obtain ⟨there, looked, h⟩ := bind_eq_ok.mp h
    split at h
    · cases h
      exact .refl t
    · cases h
    · rename_i free
      cases h
      refine .put free fun sound => ?_
      unfold look at looked
      split at looked
      · cases looked
      · cases looked
        have dir := enter_directory entered find?_top
        rcases sound.next_cases dir step with there | there
        · rw [there] at free
          cases free
        · rw [there] at free ⊢
          exact sound.put dir (ne_directory_of_free free)

theorem after_adds {x : Except Fault Tree} (h : ∀ {made}, x = .ok made → t.Adds made) :
    t.Adds (t.after x).1 := by
  cases x with
  | ok made => exact h rfl
  | error f => exact .refl t

theorem makeWays_adds (t : Tree) (ways : List (List String)) : t.Adds (t.makeWays ways).1 := by
  induction ways with
  | nil => exact .refl t
  | cons way outer ih =>
    unfold makeWays
    split
    · split
      · rename_i made outward
        rw [outward] at ih
        exact ih.trans (after_adds makeDirectory_adds)
      · exact ih
    · exact after_adds makeDirectory_adds

theorem makeDirectories_adds (t : Tree) (path : Path) : t.Adds (t.makeDirectories path).1 := by
  unfold makeDirectories
  split
  · exact t.makeWays_adds _
  · exact .refl t

/-- A directory that was made can be entered. -/
theorem enter_of_makeDirectory {steps : List String} (h : t.makeDirectory steps = .ok t') :
    ∃ place, t'.enter [] steps = .ok place := by
  have grows := (makeDirectory_adds h).grows
  obtain ⟨around, entered, h⟩ := bind_eq_ok.mp h
  have entered' := enter_of_grows grows entered
  cases last : steps.getLast? with
  | none =>
    rw [List.getLast?_eq_none_iff.mp last]
    exact ⟨[], rfl⟩
  | some step =>
    rw [last] at h
    obtain ⟨there, looked, h⟩ := bind_eq_ok.mp h
    have made : t'.find? there = some .directory := by
      split at h
      · rename_i found
        exact grows.directory found
      · cases h
      · rename_i free
        cases h
        rw [find?_put (ne_directory_of_free free), if_pos rfl]
    refine ⟨there, ?_⟩
    rw [← List.dropLast_append_getLast? step last, enter_append, entered', Outcome.ok_bind]
    unfold enter
    rw [looked, Outcome.ok_bind, made]
    rfl

/-- A directory that was made with all directories around it can be entered. -/
theorem enter_of_makeDirectories {path : Path} (h : t.makeDirectories path = (t', none)) :
    ∃ place, t'.enter [] path.steps = .ok place := by
  have of_after : ∀ {t₁ : Tree}, t₁.after (t₁.makeDirectory path.steps) = (t', none) →
      ∃ place, t'.enter [] path.steps = .ok place := by
    intro t₁ h
    cases made : t₁.makeDirectory path.steps with
    | error f =>
      rw [made] at h
      cases h
    | ok t₂ =>
      rw [made] at h
      cases h
      exact enter_of_makeDirectory made
  unfold makeDirectories at h
  split at h
  · unfold Path.ways makeWays at h
    split at h
    · split at h
      · exact of_after h
      · rename_i stopped _ other
        exact absurd h (fun e => other _ e)
    · exact of_after h
  · cases h

end InfraDiagram.File.Tree
