import InfraDiagram.Proofs.Digging

/-!
# Files in a tree

A file that is written in directories that are made for it (`store`): what such a write can do
(`store_cases`), when it succeeds (`store_succeeds_iff`), and that it does the same in a tree that has
grown, unless that holds a file where a directory is needed or the other way round
(`store_carried`). A file that is still there is read as before (`readText_eq_of_grows`).
-/

namespace InfraDiagram.File

/-! ## 1. Texts of paths -/

namespace Path

variable {given name : String} {dirs : List String}

theorem text_concat : text ⟨given, dirs ++ [name]⟩ = append (text ⟨given, dirs⟩) name := by
  unfold text
  rw [List.foldl_append]
  rfl

/-- The text of a path with a name below starts with that of the path and ends in the name. -/
theorem append_eq (text name : String) :
    ∃ between, append text name = text ++ (between ++ name) := by
  unfold append
  split
  · rename_i empty
    refine ⟨"", ?_⟩
    rw [String.isEmpty_iff.mp empty, String.empty_append, String.empty_append]
  · split
    · exact ⟨"", by rw [String.empty_append]⟩
    · exact ⟨"/", String.append_assoc⟩

theorem text_concat_ne_empty (proper : name ≠ "") :
    (text ⟨given, dirs ++ [name]⟩).isEmpty = false := by
  obtain ⟨between, e⟩ := append_eq (text ⟨given, dirs⟩) name
  rw [String.isEmpty_eq_false_iff, text_concat, e]
  intro empty
  exact proper (String.append_eq_empty_iff.mp (String.append_eq_empty_iff.mp empty).2).2

end Path

namespace Tree

open Outcome (bind_eq_ok)

/-- A path that can be one has a directory around it that can be one. -/
theorem accept_parent {given name : String} {dirs : List String}
    (h : accept ⟨given, dirs ++ [name]⟩ = .ok ()) : accept ⟨given, dirs⟩ = .ok () := by
  obtain ⟨between, e⟩ := Path.append_eq (Path.text ⟨given, dirs⟩) name
  unfold accept at h ⊢
  rw [Path.text_concat, e] at h
  split at h
  · cases h
  · rename_i clean
    split at h
    · cases h
    · rename_i short
      rw [String.utf8ByteSize_append] at short
      have clean' : ¬ (Path.text ⟨given, dirs⟩).toList.contains '\x00' = true := by
        intro found
        refine clean ?_
        rw [List.contains_iff_mem, String.toList_append] at *
        exact List.mem_append_left _ found
      rw [if_neg clean', if_neg (by omega)]

variable {t t' made : Tree} {p place dirs : List String} {path : Path} {given name : String}
  {content c : Content} {f : Fault}

/-! ## 2. Writing -/

theorem around_directory (h : t.around path = .ok p) : t.find? p = some .directory := by
  obtain ⟨-, -, h⟩ := bind_eq_ok.mp h
  split at h
  · cases h
  · exact enter_directory h find?_top

/-- **What a write does**: it puts a file where a step from a directory leads, unless there is a
    directory. -/
theorem write_cases (h : t.write path content = .ok t') :
    ∃ around step, t.find? around = some .directory ∧
      t.find? (next around step) ≠ some .directory ∧
      t' = t.put (next around step) (.file content) := by
  obtain ⟨-, -, h⟩ := bind_eq_ok.mp h
  split at h
  · cases h
  · obtain ⟨names, placed, h⟩ := bind_eq_ok.mp h
    split at h
    · cases h
    · rename_i free
      have free' : t.find? names ≠ some .directory := fun e => free (beq_iff_eq.mpr e)
      obtain ⟨around, aroundOk, placed⟩ := bind_eq_ok.mp placed
      have dir := around_directory aroundOk
      split at placed
      · rename_i step _
        unfold look at placed
        split at placed
        · cases placed
        · cases placed
          exact ⟨around, step, dir, free', (Except.ok.inj h).symm⟩
      · cases placed
        exact absurd dir free'

theorem grows_of_write (h : t.write path content = .ok t') : t.Grows t' := by
  obtain ⟨around, step, -, free, rfl⟩ := write_cases h
  exact .put_file free

theorem sound_of_write (sound : t.Sound) (h : t.write path content = .ok t') : t'.Sound := by
  obtain ⟨around, step, dir, free, rfl⟩ := write_cases h
  rcases sound.next_cases dir step with there | there
  · exact absurd there free
  · rw [there] at free ⊢
    exact sound.put dir free

/-- Puts a file with a name in a directory. -/
def plant (t : Tree) (place : List String) (name : String) (content : Content) :
    Except Fault Tree := do
  let there ← look place name
  if t.find? there == some .directory then .error .isDirectory
  else .ok (t.put there (.file content))

theorem write_of_refused (h : accept path = .error f) : t.write path content = .error f := by
  unfold write around
  rw [h]
  rfl

/-- The place of a path, where the directory around it is known. -/
theorem place_concat (accepted : accept ⟨given, dirs ++ [name]⟩ = .ok ()) (named : name ≠ "")
    (entered : t.enter [] (Path.steps ⟨given, []⟩ ++ dirs) = .ok place) :
    t.around ⟨given, dirs ++ [name]⟩ = .ok place ∧
      t.place ⟨given, dirs ++ [name]⟩ = look place name := by
  have steps : Path.steps ⟨given, dirs ++ [name]⟩ = Path.steps ⟨given, []⟩ ++ dirs ++ [name] := by
    rw [Path.steps_append, List.append_assoc]
  have aroundOk : t.around ⟨given, dirs ++ [name]⟩ = .ok place := by
    unfold around
    rw [accepted, Outcome.ok_bind, Path.text_concat_ne_empty named, steps, List.dropLast_concat]
    exact entered
  refine ⟨aroundOk, ?_⟩
  unfold Tree.place
  rw [aroundOk, Outcome.ok_bind, steps, List.getLast?_concat]

theorem endsInSlash_concat : Path.endsInSlash ⟨given, dirs ++ [name]⟩ = false := by
  unfold Path.endsInSlash
  simp

theorem write_eq_plant (accepted : accept ⟨given, dirs ++ [name]⟩ = .ok ()) (named : name ≠ "")
    (entered : t.enter [] (Path.steps ⟨given, []⟩ ++ dirs) = .ok place) :
    t.write ⟨given, dirs ++ [name]⟩ content = t.plant place name content := by
  obtain ⟨aroundOk, placed⟩ := place_concat accepted named entered
  unfold write
  rw [aroundOk, Outcome.ok_bind, endsInSlash_concat, placed]
  rfl

theorem plant_long (long : maxNameBytes < name.utf8ByteSize) :
    t.plant place name content = .error .nameTooLong := by
  unfold plant
  rw [look_long long]
  rfl

/-- The directory above cannot be written to. -/
theorem plant_up (sound : t.Sound) (dir : t.find? place = some .directory) :
    t.plant place ".." content = .error .isDirectory := by
  have up : look place ".." = .ok (above place) := rfl
  unfold plant
  rw [up, Outcome.ok_bind, sound.above dir]
  rfl

theorem plant_against (proper : isName name = true) (short : ¬ maxNameBytes < name.utf8ByteSize)
    (found : t.find? (place ++ [name]) = some .directory) :
    t.plant place name content = .error .isDirectory := by
  unfold plant
  rw [look_name proper short, Outcome.ok_bind, found]
  rfl

theorem plant_free (proper : isName name = true) (short : ¬ maxNameBytes < name.utf8ByteSize)
    (free : t.find? (place ++ [name]) ≠ some .directory) :
    t.plant place name content = .ok (t.put (place ++ [name]) (.file content)) := by
  unfold plant
  rw [look_name proper short, Outcome.ok_bind, if_neg]
  exact fun e => free (beq_iff_eq.mp e)

theorem Carried.put_file {made' : Tree} (carried : Carried t made t' made')
    (free : made.find? p ≠ some .directory) (free' : made'.find? p ≠ some .directory)
    (kept : t.find? p = some (.file content) → t'.find? p = some (.file content)) :
    Carried t (made.put p (.file content)) t' (made'.put p (.file content)) := by
  intro q
  rw [find?_put free, find?_put free']
  by_cases here : q = p
  · subst here
    rw [if_pos rfl, if_pos rfl]
    split
    · rename_i same
      exact (kept same.symm).symm
    · rfl
  · rw [if_neg here, if_neg here, carried q]

/-- Putting a file in a directory is carried over, if the other tree agrees with it. -/
theorem plant_carried {made' : Tree} (grows : t.Grows t') (carried : Carried t made t' made')
    (sound : made.Sound) (sound' : made'.Sound) (dir : made.find? place = some .directory)
    (named : name = ".." ∨ isName name = true)
    (agrees : t'.Agrees (made.after (made.plant place name content)).1)
    (kept : isName name = true → ∀ {c}, t.find? (place ++ [name]) = some (.file c) →
      t'.find? (place ++ [name]) = some (.file c)) :
    (made'.after (made'.plant place name content)).2 =
        (made.after (made.plant place name content)).2 ∧
      Carried t (made.after (made.plant place name content)).1 t'
        (made'.after (made'.plant place name content)).1 := by
  have grows' := carried.grows grows
  by_cases long : maxNameBytes < name.utf8ByteSize
  · rw [plant_long long, plant_long long]
    exact ⟨rfl, carried⟩
  · rcases named with rfl | named
    · rw [plant_up sound dir, plant_up sound' (grows'.directory dir)]
      exact ⟨rfl, carried⟩
    · by_cases there : made.find? (place ++ [name]) = some .directory
      · rw [plant_against named long there, plant_against named long (grows'.directory there)]
        exact ⟨rfl, carried⟩
      · rw [plant_free named long there] at agrees ⊢
        have file : (made.put (place ++ [name]) (.file content)).find? (place ++ [name]) =
            some (.file content) := by
          rw [find?_put there, if_pos rfl]
        have there' : made'.find? (place ++ [name]) ≠ some .directory := by
          rw [carried]
          split
          · exact fun other => agrees.directory other file
          · exact there
        rw [plant_free named long there']
        exact ⟨rfl, carried.put_file there there' (kept named)⟩

/-! ## 3. Storing -/

/-- Puts a file in directories that are made for it from a place inwards, if its path is accepted. -/
def store (t : Tree) (place dirs : List String) (accepted : Except Fault Unit) (name : String)
    (content : Content) : Tree × Option Fault :=
  match t.dig place dirs with
  | (made, none) => made.after (accepted >>= fun _ => made.plant (place ++ dirs) name content)
  | stopped => stopped

section Store

variable (accepted : Except Fault Unit) (name : String) (content : Content)

theorem store_of_stopped (h : t.dig place dirs = (made, some f)) :
    t.store place dirs accepted name content = (made, some f) := by
  unfold store
  simp only [h]

theorem store_of_done (h : t.dig place dirs = (made, none)) :
    t.store place dirs accepted name content =
      made.after (accepted >>= fun _ => made.plant (place ++ dirs) name content) := by
  unfold store
  simp only [h]

variable {name} (sound : t.Sound) (dir : t.find? place = some .directory)
  (proper : ∀ name ∈ dirs, isName name = true) (named : name = ".." ∨ isName name = true)
include sound dir proper named

/-- **What storing does.** It fails and makes directories at most, or it makes all directories and
    puts the file where no directory is. -/
theorem store_cases :
    (∃ f, t.store place dirs accepted name content = ((t.dig place dirs).1, some f)) ∨
      ∃ made, t.dig place dirs = (made, none) ∧ accepted = .ok () ∧ isName name = true ∧
        ¬ maxNameBytes < name.utf8ByteSize ∧
        made.find? (place ++ dirs ++ [name]) ≠ some .directory ∧
        t.store place dirs accepted name content =
          (made.put (place ++ dirs ++ [name]) (.file content), none) := by
  cases dug : t.dig place dirs with
  | mk made fault =>
    cases fault with
    | some f => exact Or.inl ⟨f, store_of_stopped accepted name content dug⟩
    | none =>
      rw [store_of_done accepted name content dug]
      have adds := dig_adds dir proper
      rw [dug] at adds
      have inner : made.find? (place ++ dirs) = some .directory :=
        enter_directory (enter_of_dig proper dug) (adds.kept dir)
      cases accepted with
      | error f => exact Or.inl ⟨f, rfl⟩
      | ok done =>
        rw [Outcome.ok_bind]
        by_cases long : maxNameBytes < name.utf8ByteSize
        · rw [plant_long long]
          exact Or.inl ⟨_, rfl⟩
        · rcases named with rfl | named
          · rw [plant_up (adds.sound sound) inner]
            exact Or.inl ⟨_, rfl⟩
          · by_cases free : made.find? (place ++ dirs ++ [name]) = some .directory
            · rw [plant_against named long free]
              exact Or.inl ⟨_, rfl⟩
            · rw [plant_free named long free]
              exact Or.inr ⟨made, rfl, rfl, named, long, free, rfl⟩

theorem dig_grows_store :
    (t.dig place dirs).1.Grows (t.store place dirs accepted name content).1 := by
  rcases store_cases accepted content sound dir proper named with
    ⟨f, e⟩ | ⟨made, dug, -, -, -, free, e⟩
  · rw [e]
    exact .refl _
  · rw [e, dug]
    exact .put_file free

/-- Storing changes no file but its own. -/
theorem store_file (h : (t.store place dirs accepted name content).1.find? p = some (.file c)) :
    t.find? p = some (.file c) ∨ p = place ++ dirs ++ [name] := by
  have adds := dig_adds dir proper
  rcases store_cases accepted content sound dir proper named with
    ⟨f, e⟩ | ⟨made, dug, -, -, -, free, e⟩
  · rw [e] at h
    exact Or.inl (adds.file_iff.mp h)
  · rw [dug] at adds
    rw [e, find?_put free] at h
    split at h
    · rename_i here
      exact Or.inr here
    · exact Or.inl (adds.file_iff.mp h)

/-- Storing makes directories on its way only. -/
theorem store_directory
    (h : (t.store place dirs accepted name content).1.find? p = some .directory) :
    t.find? p = some .directory ∨ ∃ outer, outer <+: dirs ∧ p = place ++ outer := by
  have frame : (t.dig place dirs).1.find? p = some .directory →
      t.find? p = some .directory ∨ ∃ outer, outer <+: dirs ∧ p = place ++ outer := by
    intro there
    rcases dig_frame t place proper p with same | inner
    · exact Or.inl (same.symm.trans there)
    · exact Or.inr inner
  rcases store_cases accepted content sound dir proper named with
    ⟨f, e⟩ | ⟨made, dug, -, -, -, free, e⟩
  · rw [e] at h
    exact frame h
  · rw [e, find?_put free] at h
    rw [dug] at frame
    split at h
    · cases h
    · exact frame h

/-- What storing leaves if it succeeds. -/
theorem store_done (h : (t.store place dirs accepted name content).2 = none) :
    (t.store place dirs accepted name content).1.find? (place ++ dirs ++ [name]) =
        some (.file content) ∧
      (t.store place dirs accepted name content).1.enter place dirs = .ok (place ++ dirs) := by
  rcases store_cases accepted content sound dir proper named with
    ⟨f, e⟩ | ⟨made, dug, -, -, -, free, e⟩
  · rw [e] at h
    cases h
  · rw [e]
    refine ⟨?_, enter_of_grows (.put_file free) (enter_of_dig proper dug)⟩
    rw [find?_put free, if_pos rfl]

/-- **Storing succeeds exactly if the path is accepted, the way to the file is open, and its name is
    free for a file.** -/
theorem store_succeeds_iff : (t.store place dirs accepted name content).2 = none ↔
    accepted = .ok () ∧ t.WayOpen place dirs ∧ name.utf8ByteSize ≤ maxNameBytes ∧ name ≠ ".." ∧
      t.find? (place ++ dirs ++ [name]) ≠ some .directory := by
  have adds := dig_adds dir proper
  constructor
  · intro h
    rcases store_cases accepted content sound dir proper named with
      ⟨f, e⟩ | ⟨made, dug, accepts, named', short, free, -⟩
    · rw [e] at h
      cases h
    · have way := (dig_succeeds_iff dir proper).mp (congrArg Prod.snd dug)
      rw [dug] at adds
      refine ⟨accepts, way, Nat.not_lt.mp short, ?_, fun there => free (adds.kept there)⟩
      rintro rfl
      cases named'
  · rintro ⟨rfl, way, short, down, free⟩
    have dug := (dig_succeeds_iff dir proper).mpr way
    cases done : t.dig place dirs with
    | mk made fault =>
      rw [done] at dug
      cases dug
      have free' : made.find? (place ++ dirs ++ [name]) ≠ some .directory := by
        have frame := dig_frame t place proper (place ++ dirs ++ [name])
        rw [done] at frame
        rcases frame with same | ⟨outer, before, same⟩
        · rwa [same]
        · rw [List.append_assoc, List.append_cancel_left_eq] at same
          have longer := before.length_le
          rw [← same, List.length_append, List.length_singleton] at longer
          omega
      rw [store_of_done _ _ _ done, Outcome.ok_bind,
        plant_free (named.resolve_left down) (Nat.not_lt.mpr short) free']
      rfl

/-- **Storing does the same in a tree that has grown**, if that agrees with what it leaves and still
    has the file, if there was one. -/
theorem store_carried (grows : t.Grows t') (sound' : t'.Sound)
    (agrees : t'.Agrees (t.store place dirs accepted name content).1)
    (kept : isName name = true → ∀ {c}, t.find? (place ++ dirs ++ [name]) = some (.file c) →
      t'.find? (place ++ dirs ++ [name]) = some (.file c)) :
    (t'.store place dirs accepted name content).2 = (t.store place dirs accepted name content).2 ∧
      Carried t (t.store place dirs accepted name content).1 t'
        (t'.store place dirs accepted name content).1 := by
  obtain ⟨fault, carried⟩ := dig_carried grows dir proper
    (agrees.of_grows (dig_grows_store accepted content sound dir proper named))
  have adds := dig_adds dir proper
  have adds' := dig_adds (grows.directory dir) proper
  cases done : t.dig place dirs with
  | mk made stop =>
    cases done' : t'.dig place dirs with
    | mk made' stop' =>
      rw [done, done'] at fault carried
      rw [done] at adds
      rw [done'] at adds'
      cases fault
      cases stop with
      | some f =>
        rw [store_of_stopped _ _ _ done, store_of_stopped _ _ _ done']
        exact ⟨rfl, carried⟩
      | none =>
        rw [store_of_done _ _ _ done] at agrees ⊢
        rw [store_of_done _ _ _ done']
        have inner : made.find? (place ++ dirs) = some .directory :=
          enter_directory (enter_of_dig proper done) (adds.kept dir)
        cases accepted with
        | error f => exact ⟨rfl, carried⟩
        | ok accepts =>
          exact plant_carried grows carried (adds.sound sound) (adds'.sound sound') inner named
            agrees kept

end Store

/-! ## 4. Reading -/

theorem readText_of_found (accepted : accept ⟨given, dirs ++ [name]⟩ = .ok ())
    (entered : t.enter [] (Path.steps ⟨given, []⟩ ++ dirs) = .ok place) (named : name ≠ "")
    (proper : isName name = true) (short : ¬ maxNameBytes < name.utf8ByteSize) {s : String}
    (found : t.find? (place ++ [name]) = some (.file (.text s))) :
    t.readText ⟨given, dirs ++ [name]⟩ = .ok s := by
  unfold readText
  rw [(place_concat accepted named entered).2, look_name proper short, Outcome.ok_bind, found,
    endsInSlash_concat]
  rfl

/-- **A file that is still there is read as before.** -/
theorem readText_eq_of_grows {e : Entry} (sound : t.Sound) (grows : t.Grows t')
    (entered : t.enter [] (Path.steps ⟨given, []⟩) = .ok place)
    (proper : ∀ name ∈ dirs, isName name = true) (named : isName name = true)
    (found : t.find? (place ++ (dirs ++ [name])) = some e)
    (same : t'.find? (place ++ (dirs ++ [name])) = some e) :
    t'.readText ⟨given, dirs ++ [name]⟩ = t.readText ⟨given, dirs ++ [name]⟩ := by
  have steps : Path.steps ⟨given, dirs ++ [name]⟩ = Path.steps ⟨given, []⟩ ++ dirs ++ [name] := by
    rw [Path.steps_append, List.append_assoc]
  have walk : t.enter [] (Path.steps ⟨given, []⟩ ++ dirs) = t.enter place dirs := by
    rw [enter_append, entered, Outcome.ok_bind]
  have walk' : t'.enter [] (Path.steps ⟨given, []⟩ ++ dirs) = t.enter place dirs := by
    rw [enter_append, enter_of_grows grows entered, Outcome.ok_bind,
      enter_eq_of_grows sound grows proper (List.cons_ne_nil _ _) found]
  have around_eq : t'.around ⟨given, dirs ++ [name]⟩ = t.around ⟨given, dirs ++ [name]⟩ := by
    unfold around
    rw [steps, List.dropLast_concat, walk, walk']
  unfold readText Tree.place
  rw [around_eq, steps, List.getLast?_concat]
  cases h : t.around ⟨given, dirs ++ [name]⟩ with
  | error f => rfl
  | ok q =>
    obtain ⟨-, -, h⟩ := bind_eq_ok.mp h
    split at h
    · cases h
    · rw [steps, List.dropLast_concat, walk] at h
      obtain rfl := enter_names proper h
      simp only [Outcome.ok_bind]
      by_cases long : maxNameBytes < name.utf8ByteSize
      · rw [look_long long]
        rfl
      · rw [look_name named long, Outcome.ok_bind, Outcome.ok_bind, List.append_assoc, found, same]

end Tree

end InfraDiagram.File
