/-!
# Computations that may fail

A chain of computations that succeeds has succeeded at every link; two chains whose links have the
same outcomes have the same outcome (`Rel.bind`); a list on which a property fails somewhere has a
first member on which it fails; and a look-up by a key fails or not whatever other keys are dropped.
-/

namespace InfraDiagram.Outcome

variable {ε ε' α β : Type}

/-! ## 1. Links of a chain -/

theorem ok_bind (a : α) (f : α → Except ε β) : (Except.ok a >>= f) = f a := rfl

theorem bind_eq_ok {x : Except ε α} {f : α → Except ε β} {b : β} :
    (x >>= f) = .ok b ↔ ∃ a, x = .ok a ∧ f a = .ok b := by
  constructor
  · intro h
    cases x with
    | error e => cases h
    | ok a => exact ⟨a, rfl, h⟩
  · rintro ⟨a, rfl, h⟩
    exact h

theorem bind_eq_error {x : Except ε α} {f : α → Except ε β} {e : ε} :
    (x >>= f) = .error e ↔ x = .error e ∨ ∃ a, x = .ok a ∧ f a = .error e := by
  constructor
  · intro h
    cases x with
    | error e' => exact Or.inl (congrArg Except.error (Except.error.inj h))
    | ok a => exact Or.inr ⟨a, rfl, h⟩
  · rintro (rfl | ⟨a, rfl, h⟩)
    · rfl
    · exact h

theorem map_eq_ok {x : Except ε α} {f : α → β} {b : β} :
    x.map f = .ok b ↔ ∃ a, x = .ok a ∧ f a = b := by
  constructor
  · intro h
    cases x with
    | error e => cases h
    | ok a => exact ⟨a, rfl, Except.ok.inj h⟩
  · rintro ⟨a, rfl, rfl⟩
    rfl

theorem mapError_eq_ok {x : Except ε α} {f : ε → ε'} {a : α} :
    x.mapError f = .ok a ↔ x = .ok a := by
  constructor
  · intro h
    cases x with
    | error e => cases h
    | ok a' => rw [Except.ok.inj h]
  · rintro rfl
    rfl

theorem exists_of_isOk {x : Except ε α} (h : x.isOk = true) : ∃ a, x = .ok a := by
  cases x with
  | error e => cases h
  | ok a => exact ⟨a, rfl⟩

/-! ## 2. Two computations -/

/-- **Computations with one outcome**: both fail with the same error, or both succeed with results
    that are related. -/
inductive Rel (R : α → β → Prop) : Except ε α → Except ε β → Prop where
  | ok {a : α} {b : β} (h : R a b) : Rel R (.ok a) (.ok b)
  | error {e : ε} : Rel R (.error e) (.error e)

theorem Rel.refl (x : Except ε α) : Rel Eq x x := by
  cases x with
  | error e => exact .error
  | ok a => exact .ok rfl

theorem Rel.bind {γ δ : Type} {R : α → β → Prop} {S : γ → δ → Prop} {x : Except ε α}
    {y : Except ε β} {f : α → Except ε γ} {g : β → Except ε δ} (h : Rel R x y)
    (hfg : ∀ {a b}, R a b → Rel S (f a) (g b)) : Rel S (x >>= f) (y >>= g) := by
  cases h with
  | ok h => exact hfg h
  | error => exact .error

theorem Rel.map {γ δ : Type} {R : α → β → Prop} {S : γ → δ → Prop} {x : Except ε α}
    {y : Except ε β} {f : α → γ} {g : β → δ} (h : Rel R x y)
    (hfg : ∀ {a b}, R a b → S (f a) (g b)) : Rel S (x.map f) (y.map g) := by
  cases h with
  | ok h => exact .ok (hfg h)
  | error => exact .error

/-- The results that are related are those of the computations. -/
theorem Rel.results {R : α → β → Prop} {x : Except ε α} {y : Except ε β} (h : Rel R x y) :
    Rel (fun a b => R a b ∧ x = .ok a ∧ y = .ok b) x y := by
  cases h with
  | ok h => exact .ok ⟨h, rfl, rfl⟩
  | error => exact .error

/-- What is seen of two computations is the same exactly if they have one outcome, of which the same
    is seen. -/
theorem map_eq_map_iff {γ : Type} {x : Except ε α} {y : Except ε β} {f : α → γ} {g : β → γ} :
    x.map f = y.map g ↔ Rel (fun a b => f a = g b) x y := by
  constructor
  · intro h
    cases x with
    | error e =>
      cases y with
      | error e' =>
        cases h
        exact .error
      | ok b => cases h
    | ok a =>
      cases y with
      | error e => cases h
      | ok b => exact .ok (Except.ok.inj h)
  · intro h
    cases h with
    | ok h => exact congrArg Except.ok h
    | error => rfl

/-! ## 3. The first failure in a list -/

/-- `x` is the first member of a list that lacks a property. -/
def FirstFailing (p : α → Prop) (xs : List α) (x : α) : Prop :=
  ∃ before after, xs = before ++ x :: after ∧ (∀ y ∈ before, p y) ∧ ¬ p x

theorem FirstFailing.head {p : α → Prop} {x : α} {xs : List α} (h : ¬ p x) :
    FirstFailing p (x :: xs) x :=
  ⟨[], xs, rfl, fun _ hy => absurd hy List.not_mem_nil, h⟩

theorem FirstFailing.cons {p : α → Prop} {x y : α} {xs : List α} (hy : p y)
    (h : FirstFailing p xs x) : FirstFailing p (y :: xs) x := by
  obtain ⟨before, after, rfl, hb, hx⟩ := h
  refine ⟨y :: before, after, rfl, fun z hz => ?_, hx⟩
  rcases List.mem_cons.mp hz with rfl | hz
  · exact hy
  · exact hb z hz

theorem FirstFailing.mem {p : α → Prop} {x : α} {xs : List α} (h : FirstFailing p xs x) :
    x ∈ xs := by
  obtain ⟨before, after, rfl, -, -⟩ := h
  exact List.mem_append_right _ List.mem_cons_self

theorem FirstFailing.fails {p : α → Prop} {x : α} {xs : List α} (h : FirstFailing p xs x) :
    ¬ p x := by
  obtain ⟨before, after, -, -, hx⟩ := h
  exact hx

/-! ## 4. Look-ups by keys -/

/-- A key that is dropped makes no difference for the others. -/
theorem lookup_filter_of_ne {κ ν : Type} [BEq κ] [LawfulBEq κ] {key other : κ} (h : other ≠ key)
    (entries : List (κ × ν)) :
    (entries.filter fun x => x.1 != key).lookup other = entries.lookup other := by
  have apart : (other == key) = false := beq_eq_false_iff_ne.mpr h
  induction entries with
  | nil => rfl
  | cons x entries ih =>
    obtain ⟨k, v⟩ := x
    by_cases dropped : k = key
    · subst dropped
      simp [List.lookup_cons, apart, ih]
    · simp [List.lookup_cons, dropped, ih]

end InfraDiagram.Outcome
