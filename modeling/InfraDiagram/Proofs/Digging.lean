import InfraDiagram.Proofs.TreePlaces

/-!
# Making directories inwards

A directory is made with all directories around it by trying the innermost one first, and the outer
ones where something on the way is missing. In a tree where everything stands in a directory this is
`dig`, which goes inwards from a directory and makes what is missing (`makeDirectories_eq_dig`).

Digging asks of the places on its way only whether they are files, so it goes on in a tree that has
grown as it did before, unless a file got in its way (`dig_carried`).
-/

namespace InfraDiagram.File

/-! ## 1. Steps and components -/

namespace Path

theorem pieces_ne_nil : ∀ (cs current : List Char), pieces cs current ≠ []
  | [], _ => List.cons_ne_nil _ _
  | c :: cs, current => by
      unfold pieces
      split
      · exact List.cons_ne_nil _ _
      · exact pieces_ne_nil cs _

theorem steps_append (given : String) (names : List String) :
    steps ⟨given, names⟩ = steps ⟨given, []⟩ ++ names := by
  unfold steps
  rw [List.append_nil]

theorem components_append (given : String) (names : List String) :
    components ⟨given, names⟩ = components ⟨given, []⟩ ++ names := by
  unfold components
  rw [List.append_nil]

/-- A first piece that is empty and not the only one stands before a slash. -/
theorem head_of_pieces {second : String} {others : List String} :
    ∀ {cs current : List Char}, pieces cs current = "" :: second :: others →
      current = [] ∧ cs.head? = some '/'
  | [], _, h => by cases (List.cons.inj h).2
  | c :: cs, current, h => by
      unfold pieces at h
      split at h
      · rename_i slash
        have empty : current.reverse = [] := by
          simpa using congrArg String.toList (List.cons.inj h).1
        exact ⟨List.reverse_eq_nil_iff.mp empty, congrArg some (beq_iff_eq.mp slash)⟩
      · cases (head_of_pieces h).1

/-- The components of a text are its steps, but for dots. -/
theorem components_dotless (s : String) :
    (components ⟨s, []⟩).filter (fun step => step != ".") =
      (steps ⟨s, []⟩).filter (fun step => step != ".") := by
  have names : ((pieces s.toList []).filter fun piece => piece != "").filter
      (fun step => step != ".") =
      (pieces s.toList []).filter fun piece => piece != "" && piece != "." := by
    rw [List.filter_filter]
    exact List.filter_congr fun piece _ => Bool.and_comm _ _
  have again : ((pieces s.toList []).filter fun piece => piece != "" && piece != ".").filter
      (fun step => step != ".") =
      (pieces s.toList []).filter fun piece => piece != "" && piece != "." := by
    rw [List.filter_filter]
    refine List.filter_congr fun piece _ => ?_
    cases piece != "" <;> cases piece != "." <;> rfl
  have slash : (s.toList.head? == some '/') = true →
      ∃ others, pieces s.toList [] = "" :: others ∧ others ≠ [] := by
    intro h
    obtain ⟨cs, e⟩ := List.head?_eq_some_iff.mp (beq_iff_eq.mp h)
    exact ⟨pieces cs [], by rw [e]; rfl, pieces_ne_nil _ _⟩
  unfold components componentsOf steps
  simp only [List.append_nil]
  split
  · rename_i second others e
    have head := (head_of_pieces e).2
    rw [if_pos (beq_iff_eq.mpr head), List.filter_cons_of_pos (by decide),
      List.filter_cons_of_pos (by decide), again, names]
  · rename_i others e
    have head : ¬ (s.toList.head? == some '/') = true := by
      intro h
      obtain ⟨others', e', -⟩ := slash h
      rw [e] at e'
      exact absurd (List.cons.inj e').1 (by decide)
    rw [if_neg head, List.filter_cons_of_neg (by decide), again, names]
  · rename_i other _
    have head : ¬ (s.toList.head? == some '/') = true := by
      intro h
      obtain ⟨others', e', more⟩ := slash h
      obtain ⟨second, rest, rfl⟩ := List.exists_cons_of_ne_nil more
      exact other _ _ e'
    rw [if_neg head, again, names]

/-- Steps and ever fewer of the first of them. -/
def outward (steps : List String) : List (List String) :=
  (List.range steps.length).reverse.map fun n => steps.take (n + 1)

theorem ways_eq (p : Path) : p.ways = p.steps :: outward p.components.dropLast := rfl

theorem outward_concat (steps : List String) (step : String) :
    outward (steps ++ [step]) = (steps ++ [step]) :: outward steps := by
  unfold outward
  rw [List.length_append, List.length_singleton, List.range_succ, List.reverse_append,
    List.reverse_singleton, List.singleton_append, List.map_cons]
  congr 1
  · exact List.take_of_length_le (by simp)
  · refine List.map_congr_left fun n hn => ?_
    have inside : n < steps.length := List.mem_range.mp (List.mem_reverse.mp hn)
    exact List.take_append_of_le_length inside

end Path

namespace Tree

variable {t t' made : Tree} {place q names : List String} {name : String} {f : Fault}

/-! ## 2. One step inwards -/

/-- What can be found at a name: it is too long, or it is that of a directory, that of a file, or
    free. -/
theorem ahead (t : Tree) (place : List String) (name : String) :
    maxNameBytes < name.utf8ByteSize ∨ ¬ maxNameBytes < name.utf8ByteSize ∧
      (t.find? (place ++ [name]) = some .directory ∨
        (∃ c, t.find? (place ++ [name]) = some (.file c)) ∨ t.find? (place ++ [name]) = none) := by
  by_cases long : maxNameBytes < name.utf8ByteSize
  · exact Or.inl long
  · refine Or.inr ⟨long, ?_⟩
    cases found : t.find? (place ++ [name]) with
    | none => exact Or.inr (Or.inr rfl)
    | some e =>
      cases e with
      | directory => exact Or.inl rfl
      | file c => exact Or.inr (Or.inl ⟨c, rfl⟩)

/-- A dot is a step that leads nowhere. -/
theorem enter_dotless (dir : t.find? place = some .directory) (steps : List String) :
    t.enter place (steps.filter fun step => step != ".") = t.enter place steps := by
  induction steps generalizing place with
  | nil => rfl
  | cons step rest ih =>
    by_cases dot : step = "."
    · subst dot
      have stay : look place "." = .ok place := rfl
      rw [List.filter_cons_of_neg (by decide), ih dir, enter, stay, Outcome.ok_bind, dir]
    · rw [List.filter_cons_of_pos (by simpa using dot), enter, enter]
      refine congrArg (look place step >>= ·) (funext fun there => ?_)
      cases found : t.find? there with
      | none => rfl
      | some e =>
        cases e with
        | directory => exact ih found
        | file c => rfl

/-- Makes the directories with some names, each in the one before, from a place inwards. -/
def dig (t : Tree) : (place : List String) → (names : List String) → Tree × Option Fault
  | _, [] => (t, none)
  | place, name :: rest =>
    match look place name with
    | .error f => (t, some f)
    | .ok there =>
      match t.find? there with
      | some .directory => t.dig there rest
      | some (.file _) => (t, some (if rest.isEmpty then .alreadyExists else .notDirectory))
      | none => (t.put there .directory).dig there rest

theorem look_long (long : maxNameBytes < name.utf8ByteSize) :
    look place name = .error .nameTooLong := by
  unfold look
  rw [if_pos long]

theorem enter_long (rest : List String) (long : maxNameBytes < name.utf8ByteSize) :
    t.enter place (name :: rest) = .error .nameTooLong := by
  rw [enter, look_long long]
  rfl

theorem dig_long (rest : List String) (long : maxNameBytes < name.utf8ByteSize) :
    t.dig place (name :: rest) = (t, some .nameTooLong) := by
  rw [dig, look_long long]

section Step

variable (proper : isName name = true) (short : ¬ maxNameBytes < name.utf8ByteSize)
  (rest : List String)
include proper short

theorem look_name : look place name = .ok (place ++ [name]) := by
  unfold look
  rw [if_neg short, next_of_isName proper]

theorem enter_into (found : t.find? (place ++ [name]) = some .directory) :
    t.enter place (name :: rest) = t.enter (place ++ [name]) rest := by
  rw [enter, look_name proper short, Outcome.ok_bind, found]

theorem enter_against {c : Content} (found : t.find? (place ++ [name]) = some (.file c)) :
    t.enter place (name :: rest) = .error .notDirectory := by
  rw [enter, look_name proper short, Outcome.ok_bind, found]

theorem enter_missing (found : t.find? (place ++ [name]) = none) :
    t.enter place (name :: rest) = .error .notFound := by
  rw [enter, look_name proper short, Outcome.ok_bind, found]

theorem dig_into (found : t.find? (place ++ [name]) = some .directory) :
    t.dig place (name :: rest) = t.dig (place ++ [name]) rest := by
  rw [dig, look_name proper short]
  simp only [found]

theorem dig_against {c : Content} (found : t.find? (place ++ [name]) = some (.file c)) :
    t.dig place (name :: rest) =
      (t, some (if rest.isEmpty then .alreadyExists else .notDirectory)) := by
  rw [dig, look_name proper short]
  simp only [found]

theorem dig_missing (found : t.find? (place ++ [name]) = none) :
    t.dig place (name :: rest) =
      (t.put (place ++ [name]) .directory).dig (place ++ [name]) rest := by
  rw [dig, look_name proper short]
  simp only [found]

end Step

/-! ## 3. Where digging gets -/

theorem find?_put_new (free : t.find? q = none) {e : Entry} : (t.put q e).find? q = some e := by
  rw [find?_put (ne_directory_of_free free), if_pos rfl]

theorem dig_adds (dir : t.find? place = some .directory)
    (proper : ∀ name ∈ names, isName name = true) : t.Adds (t.dig place names).1 := by
  induction names generalizing t place with
  | nil => exact .refl t
  | cons name rest ih =>
    obtain ⟨here, inside⟩ := List.forall_mem_cons.mp proper
    rcases t.ahead place name with long | ⟨short, found | ⟨c, found⟩ | found⟩
    · rw [dig_long rest long]
      exact .refl t
    · rw [dig_into here short rest found]
      exact ih found inside
    · rw [dig_against here short rest found]
      exact .refl t
    · rw [dig_missing here short rest found]
      exact (Adds.put found fun sound => sound.put dir (ne_directory_of_free found)).trans
        (ih (find?_put_new found) inside)

/-- Directories that were made can be entered. -/
theorem enter_of_dig (proper : ∀ name ∈ names, isName name = true)
    (h : t.dig place names = (made, none)) : made.enter place names = .ok (place ++ names) := by
  induction names generalizing t place with
  | nil =>
    rw [List.append_nil]
    rfl
  | cons name rest ih =>
    obtain ⟨here, inside⟩ := List.forall_mem_cons.mp proper
    -- once the first directory is there, the others are made in it
    have onwards : ¬ maxNameBytes < name.utf8ByteSize → ∀ {t₁ : Tree},
        t₁.find? (place ++ [name]) = some .directory →
        t₁.dig (place ++ [name]) rest = (made, none) →
        made.enter place (name :: rest) = .ok (place ++ name :: rest) := by
      intro short t₁ found dug
      have adds := dig_adds found inside
      rw [dug] at adds
      rw [enter_into here short rest (adds.kept found), ih inside dug, List.append_assoc]
      rfl
    rcases t.ahead place name with long | ⟨short, found | ⟨c, found⟩ | found⟩
    · rw [dig_long rest long] at h
      cases h
    · rw [dig_into here short rest found] at h
      exact onwards short found h
    · rw [dig_against here short rest found] at h
      cases h
    · rw [dig_missing here short rest found] at h
      exact onwards short (find?_put_new found) h

/-- Digging goes through directories that are there. -/
theorem dig_of_enter (proper : ∀ name ∈ names, isName name = true)
    (h : t.enter place names = .ok q) (more : List String) :
    t.dig place (names ++ more) = t.dig q more := by
  induction names generalizing place with
  | nil =>
    cases h
    rfl
  | cons name rest ih =>
    obtain ⟨here, inside⟩ := List.forall_mem_cons.mp proper
    rw [List.cons_append]
    rcases t.ahead place name with long | ⟨short, found | ⟨c, found⟩ | found⟩
    · rw [enter_long rest long] at h
      cases h
    · rw [enter_into here short rest found] at h
      rw [dig_into here short _ found, ih inside h]
    · rw [enter_against here short rest found] at h
      cases h
    · rw [enter_missing here short rest found] at h
      cases h

/-- Digging is stopped by what stops a walk. -/
theorem dig_of_refused (proper : ∀ name ∈ names, isName name = true)
    (h : t.enter place names = .error f) (known : f ≠ .notFound) {more : List String}
    (further : more ≠ []) : t.dig place (names ++ more) = (t, some f) := by
  induction names generalizing place with
  | nil => cases h
  | cons name rest ih =>
    obtain ⟨here, inside⟩ := List.forall_mem_cons.mp proper
    rw [List.cons_append]
    rcases t.ahead place name with long | ⟨short, found | ⟨c, found⟩ | found⟩
    · rw [enter_long rest long] at h
      rw [dig_long _ long, Except.error.inj h]
    · rw [enter_into here short rest found] at h
      rw [dig_into here short _ found, ih inside h]
    · rw [enter_against here short rest found] at h
      have inner : (rest ++ more).isEmpty = false := by simp [further]
      rw [dig_against here short _ found, inner, ← Except.error.inj h]
      rfl
    · rw [enter_missing here short rest found] at h
      exact absurd (Except.error.inj h).symm known

theorem dig_append_of_done (proper : ∀ name ∈ names, isName name = true)
    (h : t.dig place names = (made, none)) (more : List String) :
    t.dig place (names ++ more) = made.dig (place ++ names) more := by
  induction names generalizing t place with
  | nil =>
    cases h
    rw [List.append_nil]
    rfl
  | cons name rest ih =>
    obtain ⟨here, inside⟩ := List.forall_mem_cons.mp proper
    have inwards : place ++ name :: rest = place ++ [name] ++ rest := by simp
    rw [List.cons_append, inwards]
    rcases t.ahead place name with long | ⟨short, found | ⟨c, found⟩ | found⟩
    · rw [dig_long rest long] at h
      cases h
    · rw [dig_into here short rest found] at h
      rw [dig_into here short _ found, ih inside h]
    · rw [dig_against here short rest found] at h
      cases h
    · rw [dig_missing here short rest found] at h
      rw [dig_missing here short _ found, ih inside h]

/-- What stops digging before its last name stops it also if it is to go on. -/
theorem dig_append_of_stopped (proper : ∀ name ∈ names, isName name = true)
    (h : t.dig place names = (made, some f)) (early : f ≠ .alreadyExists) (more : List String) :
    t.dig place (names ++ more) = (made, some f) := by
  induction names generalizing t place with
  | nil => cases h
  | cons name rest ih =>
    obtain ⟨here, inside⟩ := List.forall_mem_cons.mp proper
    rw [List.cons_append]
    rcases t.ahead place name with long | ⟨short, found | ⟨c, found⟩ | found⟩
    · rw [dig_long rest long] at h
      rw [dig_long _ long, h]
    · rw [dig_into here short rest found] at h
      rw [dig_into here short _ found, ih inside h]
    · rw [dig_against here short rest found] at h
      have inner : rest.isEmpty = false := by
        refine Bool.eq_false_iff.mpr fun last => early ?_
        rw [if_pos last] at h
        cases h
        rfl
      rw [inner] at h
      rw [dig_against here short _ found, ← h]
      have inner' : (rest ++ more).isEmpty = false := by
        rw [List.isEmpty_eq_false_iff] at inner ⊢
        exact List.append_ne_nil_of_left_ne_nil inner more
      rw [inner']
    · rw [dig_missing here short rest found] at h
      rw [dig_missing here short _ found, ih inside h]

/-- Where nothing is, only a name can stop digging. -/
theorem fault_of_bare (bare : ∀ inner, inner ≠ [] → t.find? (place ++ inner) = none)
    (proper : ∀ name ∈ names, isName name = true) (h : t.dig place names = (made, some f)) :
    f = .nameTooLong := by
  induction names generalizing t place with
  | nil => cases h
  | cons name rest ih =>
    obtain ⟨here, inside⟩ := List.forall_mem_cons.mp proper
    have found : t.find? (place ++ [name]) = none := bare _ (List.cons_ne_nil _ _)
    by_cases long : maxNameBytes < name.utf8ByteSize
    · rw [dig_long rest long] at h
      cases h
      rfl
    · rw [dig_missing here long rest found] at h
      refine ih (fun inner below => ?_) inside h
      have apart : place ++ [name] ++ inner ≠ place ++ [name] := by simpa using below
      rw [find?_put (ne_directory_of_free found), if_neg apart, List.append_assoc]
      exact bare _ (List.append_ne_nil_of_left_ne_nil (List.cons_ne_nil _ _) _)

/-- Where something is missing on the way, no file is. -/
theorem fault_of_missing (sound : t.Sound) (proper : ∀ name ∈ names, isName name = true)
    (missing : t.enter place names = .error .notFound) (h : t.dig place names = (made, some f)) :
    f = .nameTooLong := by
  induction names generalizing place with
  | nil => cases missing
  | cons name rest ih =>
    obtain ⟨here, inside⟩ := List.forall_mem_cons.mp proper
    rcases t.ahead place name with long | ⟨short, found | ⟨c, found⟩ | found⟩
    · rw [enter_long rest long] at missing
      cases missing
    · rw [enter_into here short rest found] at missing
      rw [dig_into here short rest found] at h
      exact ih inside missing h
    · rw [enter_against here short rest found] at missing
      cases missing
    · rw [dig_missing here short rest found] at h
      refine fault_of_bare (fun inner below => ?_) inside h
      have apart : place ++ [name] ++ inner ≠ place ++ [name] := by simpa using below
      rw [find?_put (ne_directory_of_free found), if_neg apart]
      exact sound.free_below found inner

/-- Digging changes the places on its way only. -/
theorem dig_frame (t : Tree) (place : List String)
    (proper : ∀ name ∈ names, isName name = true) (p : List String) :
    (t.dig place names).1.find? p = t.find? p ∨ ∃ outer, outer <+: names ∧ p = place ++ outer := by
  induction names generalizing t place with
  | nil => exact Or.inl rfl
  | cons name rest ih =>
    obtain ⟨here, inside⟩ := List.forall_mem_cons.mp proper
    have inwards : (∃ outer, outer <+: rest ∧ p = place ++ [name] ++ outer) →
        ∃ outer, outer <+: name :: rest ∧ p = place ++ outer := by
      rintro ⟨outer, before, rfl⟩
      exact ⟨name :: outer, List.cons_prefix_cons.mpr ⟨rfl, before⟩, by simp⟩
    rcases t.ahead place name with long | ⟨short, found | ⟨c, found⟩ | found⟩
    · rw [dig_long rest long]
      exact Or.inl rfl
    · rw [dig_into here short rest found]
      exact (ih t _ inside).imp_right inwards
    · rw [dig_against here short rest found]
      exact Or.inl rfl
    · rw [dig_missing here short rest found]
      rcases ih (t.put (place ++ [name]) .directory) (place ++ [name]) inside with same | inner
      · rw [find?_put (ne_directory_of_free found)] at same
        by_cases at_name : p = place ++ [name]
        · exact Or.inr ⟨[name], List.cons_prefix_cons.mpr ⟨rfl, List.nil_prefix⟩, at_name⟩
        · rw [if_neg at_name] at same
          exact Or.inl same
      · exact Or.inr (inwards inner)

theorem ne_file_of_directory (h : t.find? q = some .directory) (c : Content) :
    t.find? q ≠ some (.file c) := by
  rw [h]
  exact fun e => by cases e

/-- **The way inwards is open**: no name is too long, and no file is on the way. -/
structure WayOpen (t : Tree) (place names : List String) : Prop where
  sizes : ∀ name ∈ names, name.utf8ByteSize ≤ maxNameBytes
  clear : ∀ outer, outer <+: names → ∀ c, t.find? (place ++ outer) ≠ some (.file c)

theorem wayOpen_cons {rest : List String} :
    t.WayOpen place (name :: rest) ↔ (∀ c, t.find? place ≠ some (.file c)) ∧
      name.utf8ByteSize ≤ maxNameBytes ∧ t.WayOpen (place ++ [name]) rest := by
  constructor
  · intro way
    refine ⟨fun c => ?_, way.sizes name List.mem_cons_self,
      fun n hn => way.sizes n (List.mem_cons_of_mem _ hn), fun outer before c => ?_⟩
    · have here := way.clear [] List.nil_prefix c
      rwa [List.append_nil] at here
    · have there := way.clear (name :: outer) (List.cons_prefix_cons.mpr ⟨rfl, before⟩) c
      rwa [List.append_cons] at there
  · rintro ⟨here, short, way⟩
    refine ⟨fun n hn => ?_, fun outer before c => ?_⟩
    · rcases List.mem_cons.mp hn with rfl | hn
      · exact short
      · exact way.sizes n hn
    · rcases List.prefix_cons_iff.mp before with rfl | ⟨inner, rfl, before'⟩
      · rw [List.append_nil]
        exact here c
      · rw [List.append_cons]
        exact way.clear inner before' c

/-- **Digging succeeds exactly if the way inwards is open.** -/
theorem dig_succeeds_iff (dir : t.find? place = some .directory)
    (proper : ∀ name ∈ names, isName name = true) :
    (t.dig place names).2 = none ↔ t.WayOpen place names := by
  induction names generalizing t place with
  | nil =>
    refine iff_of_true rfl ⟨List.forall_mem_nil _, fun outer before c => ?_⟩
    rw [List.prefix_nil.mp before, List.append_nil]
    exact ne_file_of_directory dir c
  | cons name rest ih =>
    obtain ⟨named, inside⟩ := List.forall_mem_cons.mp proper
    rw [wayOpen_cons]
    rcases t.ahead place name with long | ⟨short, found | ⟨c, found⟩ | found⟩
    · rw [dig_long rest long]
      exact iff_of_false (fun e => by cases e) fun way => Nat.not_le.mpr long way.2.1
    · rw [dig_into named short rest found, ih found inside]
      exact ⟨fun way => ⟨ne_file_of_directory dir, Nat.not_lt.mp short, way⟩, fun way => way.2.2⟩
    · rw [dig_against named short rest found]
      refine iff_of_false (fun e => by cases e) fun way => ?_
      have there := way.2.2.clear [] List.nil_prefix c
      rw [List.append_nil] at there
      exact there found
    · have put := find?_put (e := .directory) (ne_directory_of_free found)
      rw [dig_missing named short rest found, ih (find?_put_new found) inside]
      -- the directory that is made is no file, and was none before
      have same : ∀ outer c, (t.put (place ++ [name]) .directory).find? (place ++ [name] ++ outer) =
          some (.file c) ↔ t.find? (place ++ [name] ++ outer) = some (.file c) := by
        intro outer c
        rw [put]
        by_cases at_name : outer = []
        · rw [at_name, List.append_nil, if_pos rfl, found]
          exact iff_of_false (fun e => by cases e) (fun e => by cases e)
        · rw [if_neg (by simpa using at_name)]
      constructor
      · intro way
        refine ⟨ne_file_of_directory dir, Nat.not_lt.mp short, way.sizes, fun outer before c => ?_⟩
        exact fun e => way.clear outer before c ((same outer c).mpr e)
      · rintro ⟨-, -, way⟩
        exact ⟨way.sizes, fun outer before c e => way.clear outer before c ((same outer c).mp e)⟩

/-! ## 4. From the inside out and from the outside in -/

section Ways

variable {steps way : List String} {outer : List (List String)}

theorem makeDirectory_of_refused (h : t.enter [] steps = .error f) (name : String) :
    t.makeDirectory (steps ++ [name]) = .error f := by
  unfold makeDirectory
  rw [List.dropLast_concat, h]
  rfl

/-- A directory that is there need not be made. -/
theorem makeDirectory_of_enter (h : t.enter [] steps = .ok place) :
    t.makeDirectory steps = .ok t := by
  rcases List.eq_nil_or_concat steps with rfl | ⟨before, step, rfl⟩
  · rfl
  · rw [List.concat_eq_append] at h ⊢
    rw [enter_append] at h
    obtain ⟨around, entered, last⟩ := Outcome.bind_eq_ok.mp h
    obtain ⟨there, looked, found⟩ := Outcome.bind_eq_ok.mp last
    unfold makeDirectory
    rw [List.dropLast_concat, entered, Outcome.ok_bind, List.getLast?_concat]
    simp only [looked, Outcome.ok_bind]
    split at found
    · rfl
    · cases found
    · cases found

/-- In a directory that is there, making one is digging. -/
theorem makeDirectory_concat (entered : t.enter [] steps = .ok place)
    (proper : isName name = true) :
    t.makeDirectory (steps ++ [name]) ≠ .error .notFound ∧
      t.after (t.makeDirectory (steps ++ [name])) = t.dig place [name] := by
  unfold makeDirectory
  rw [List.dropLast_concat, entered, Outcome.ok_bind, List.getLast?_concat]
  rcases t.ahead place name with long | ⟨short, found | ⟨c, found⟩ | found⟩
  · simp only [look_long long, dig_long [] long]
    exact ⟨(fun e => by cases e), rfl⟩
  · simp only [look_name proper short, Outcome.ok_bind, dig_into proper short [] found, found]
    exact ⟨(fun e => by cases e), rfl⟩
  · simp only [look_name proper short, Outcome.ok_bind, dig_against proper short [] found, found]
    exact ⟨(fun e => by cases e), rfl⟩
  · simp only [look_name proper short, Outcome.ok_bind, dig_missing proper short [] found, found]
    exact ⟨(fun e => by cases e), rfl⟩

theorem makeWays_settled (h : t.makeDirectory way ≠ .error .notFound) :
    t.makeWays (way :: outer) = t.after (t.makeDirectory way) := by
  unfold makeWays
  split
  · rename_i missing
    exact absurd missing h
  · rfl

theorem makeWays_of_enter (h : t.enter [] way = .ok place) :
    t.makeWays (way :: outer) = (t, none) := by
  have there := makeDirectory_of_enter h
  rw [makeWays_settled (fun e => by rw [there] at e; cases e), there]
  rfl

theorem makeWays_of_done (missing : t.makeDirectory way = .error .notFound)
    (done : t.makeWays outer = (made, none)) :
    t.makeWays (way :: outer) = made.after (made.makeDirectory way) := by
  rw [makeWays, missing]
  simp only [done]

theorem makeWays_of_stopped (missing : t.makeDirectory way = .error .notFound)
    (stopped : t.makeWays outer = (made, some f)) :
    t.makeWays (way :: outer) = (made, some f) := by
  rw [makeWays, missing]
  simp only [stopped]

/-- If the outer ways dig, so do all. -/
theorem makeWays_inward (sound : t.Sound) (entered : t.enter [] steps = .ok place)
    (proper : ∀ name ∈ names, isName name = true) (last : isName name = true)
    (outwards : t.makeWays outer = t.dig place names) :
    t.makeWays ((steps ++ names ++ [name]) :: outer) = t.dig place (names ++ [name]) := by
  cases walk : t.enter place names with
  | ok there =>
    have whole : t.enter [] (steps ++ names) = .ok there := by
      rw [enter_append, entered, Outcome.ok_bind, walk]
    have make := makeDirectory_concat whole last
    rw [makeWays_settled make.1, make.2, dig_of_enter proper walk]
  | error f =>
    have whole : t.enter [] (steps ++ names) = .error f := by
      rw [enter_append, entered, Outcome.ok_bind, walk]
    by_cases missing : f = .notFound
    · subst missing
      have refused := makeDirectory_of_refused whole name
      cases dug : t.dig place names with
      | mk made fault =>
        rw [dug] at outwards
        cases fault with
        | none =>
          have dir := enter_directory entered find?_top
          have adds := dig_adds dir proper
          rw [dug] at adds
          have whole' : made.enter [] (steps ++ names) = .ok (place ++ names) := by
            rw [enter_append, enter_of_grows adds.grows entered, Outcome.ok_bind,
              enter_of_dig proper dug]
          rw [makeWays_of_done refused outwards, (makeDirectory_concat whole' last).2,
            dig_append_of_done proper dug]
        | some f =>
          have early : f ≠ .alreadyExists := by
            rw [fault_of_missing sound proper walk dug]
            decide
          rw [makeWays_of_stopped refused outwards, dig_append_of_stopped proper dug early]
    · have refused := makeDirectory_of_refused whole name
      have settled : t.makeDirectory (steps ++ names ++ [name]) ≠ .error .notFound := by
        rw [refused]
        exact fun e => missing (Except.error.inj e)
      rw [makeWays_settled settled, refused,
        dig_of_refused proper walk missing (List.cons_ne_nil _ _)]
      rfl

theorem makeWays_outward (sound : t.Sound) (entered : t.enter [] steps = .ok place)
    (proper : ∀ name ∈ names, isName name = true) :
    t.makeWays (Path.outward (steps ++ names)) = t.dig place names := by
  induction names using List.reverseRecOn with
  | nil =>
    rw [List.append_nil]
    rcases List.eq_nil_or_concat steps with rfl | ⟨before, step, rfl⟩
    · rfl
    · rw [List.concat_eq_append] at entered ⊢
      rw [Path.outward_concat, makeWays_of_enter entered]
      rfl
  | append_singleton names name ih =>
    obtain ⟨before, last⟩ := List.forall_mem_append.mp proper
    rw [← List.append_assoc, Path.outward_concat]
    exact makeWays_inward sound entered before (last name List.mem_cons_self) (ih before)

/-- **Making a directory with all directories around it is digging**, from what its path starts
    with. -/
theorem makeDirectories_eq_dig {given : String} (sound : t.Sound)
    (accepted : accept ⟨given, names⟩ = .ok ())
    (entered : t.enter [] (Path.steps ⟨given, []⟩) = .ok place)
    (proper : ∀ name ∈ names, isName name = true) :
    t.makeDirectories ⟨given, names⟩ = t.dig place names := by
  have components : t.enter [] (Path.components ⟨given, []⟩) = .ok place := by
    rw [← enter_dotless find?_top, Path.components_dotless, enter_dotless find?_top, entered]
  unfold makeDirectories
  rw [accepted]
  simp only [Path.ways_eq]
  rcases List.eq_nil_or_concat names with rfl | ⟨before, name, rfl⟩
  · rw [makeWays_of_enter entered]
    rfl
  · rw [List.concat_eq_append] at proper ⊢
    obtain ⟨inside, last⟩ := List.forall_mem_append.mp proper
    rw [Path.steps_append, Path.components_append, ← List.append_assoc, ← List.append_assoc,
      List.dropLast_concat]
    exact makeWays_inward sound entered inside (last name List.mem_cons_self)
      (makeWays_outward sound components inside)

end Ways

/-! ## 5. Digging elsewhere -/

/-- No place holds a file in one tree and a directory in the other. -/
structure Agrees (t t' : Tree) : Prop where
  file : ∀ {p c}, t.find? p = some (.file c) → t'.find? p ≠ some .directory
  directory : ∀ {p c}, t.find? p = some .directory → t'.find? p ≠ some (.file c)

/-- **A change carried over**: what differs after a change of one tree is the same in another, and
    what does not differ is as it was there. -/
def Carried (before after other other' : Tree) : Prop :=
  ∀ p, other'.find? p =
    if after.find? p = before.find? p then other.find? p else after.find? p

theorem Agrees.of_grows {t₁ : Tree} (agrees : t.Agrees t₁) (grows : t'.Grows t₁) : t.Agrees t' where
  file there dir := agrees.file there (grows.directory dir)
  directory there file := by
    obtain ⟨c, there'⟩ := grows.file file
    exact agrees.directory there there'

/-- A change that is carried over leaves what the change has left. -/
theorem Carried.grows {after other' : Tree} (carried : Carried t after t' other')
    (grows : t.Grows t') : after.Grows other' := by
  refine ⟨fun {p} there => ?_, fun {p c} there => ?_⟩
  · rw [carried p]
    split
    · rename_i same
      exact grows.directory (same.symm.trans there)
    · exact there
  · rw [carried p]
    split
    · rename_i same
      exact grows.file (same.symm.trans there)
    · exact ⟨c, there⟩

theorem Grows.of_put (grows : t.Grows t') (free : t.find? q = none)
    (there : t'.find? q = some .directory) : (t.put q .directory).Grows t' := by
  have found := find?_put (e := .directory) (ne_directory_of_free free)
  refine ⟨fun {p} h => ?_, fun {p c} h => ?_⟩
  · rw [found] at h
    split at h
    · rename_i here
      rwa [here]
    · exact grows.directory h
  · rw [found] at h
    split at h
    · cases h
    · exact grows.file h

/-- **Digging goes on as before in a tree that has grown**, if that agrees with what it makes. -/
theorem dig_carried (grows : t.Grows t') (dir : t.find? place = some .directory)
    (proper : ∀ name ∈ names, isName name = true) (agrees : t'.Agrees (t.dig place names).1) :
    (t'.dig place names).2 = (t.dig place names).2 ∧
      Carried t (t.dig place names).1 t' (t'.dig place names).1 := by
  induction names generalizing t t' place with
  | nil => exact ⟨rfl, fun p => (if_pos rfl).symm⟩
  | cons name rest ih =>
    obtain ⟨here, inside⟩ := List.forall_mem_cons.mp proper
    rcases t.ahead place name with long | ⟨short, found | ⟨c, found⟩ | found⟩
    · rw [dig_long rest long, dig_long rest long]
      exact ⟨rfl, fun p => (if_pos rfl).symm⟩
    · rw [dig_into here short rest found] at agrees ⊢
      rw [dig_into here short rest (grows.directory found)]
      exact ih grows found inside agrees
    · obtain ⟨c', found'⟩ := grows.file found
      rw [dig_against here short rest found, dig_against here short rest found']
      exact ⟨rfl, fun p => (if_pos rfl).symm⟩
    · rw [dig_missing here short rest found] at agrees ⊢
      have put := find?_put (e := .directory) (ne_directory_of_free found)
      have made := (dig_adds (find?_put_new found) inside).kept (find?_put_new found)
      -- from here on both trees have the directory, and digging goes on in it
      have onwards : ∀ {t₁ : Tree}, t₁.find? (place ++ [name]) = some .directory →
          (∀ p, p ≠ place ++ [name] → t₁.find? p = t'.find? p) → t'.Grows t₁ →
          (t₁.dig (place ++ [name]) rest).2 =
              ((t.put (place ++ [name]) .directory).dig (place ++ [name]) rest).2 ∧
            Carried t ((t.put (place ++ [name]) .directory).dig (place ++ [name]) rest).1 t'
              (t₁.dig (place ++ [name]) rest).1 := by
        intro t₁ there same grows₁
        have agrees₁ : t₁.Agrees
            ((t.put (place ++ [name]) .directory).dig (place ++ [name]) rest).1 := by
          refine ⟨fun {p c} h => ?_, fun {p c} h => ?_⟩
          · refine agrees.file ((same p ?_).symm.trans h)
            rintro rfl
            rw [there] at h
            cases h
          · by_cases at_name : p = place ++ [name]
            · rw [at_name, made]
              exact fun e => by cases e
            · exact agrees.directory ((same p at_name).symm.trans h)
        obtain ⟨fault, carried⟩ :=
          ih ((grows.trans grows₁).of_put found there) (find?_put_new found) inside agrees₁
        refine ⟨fault, fun p => ?_⟩
        rw [carried p, put]
        by_cases at_name : p = place ++ [name]
        · subst at_name
          simp only [made, found, there, if_true, reduceCtorEq, if_false]
        · rw [if_neg at_name, same p at_name]
      cases there : t'.find? (place ++ [name]) with
      | none =>
        rw [dig_missing here short rest there]
        have put' := find?_put (e := .directory) (ne_directory_of_free there)
        refine onwards (find?_put_new there) (fun p other => by rw [put', if_neg other]) ?_
        exact (Adds.put there fun sound => sound.put (grows.directory dir)
          (ne_directory_of_free there)).grows
      | some e =>
        cases e with
        | directory =>
          rw [dig_into here short rest there]
          exact onwards there (fun _ _ => rfl) (.refl t')
        | file c => exact absurd made (agrees.file there)

end Tree

end InfraDiagram.File
