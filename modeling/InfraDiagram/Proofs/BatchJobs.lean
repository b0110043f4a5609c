import InfraDiagram.Command.Batch
import InfraDiagram.Proofs.TreeFiles

/-!
# Jobs of a batch

A job of a batch reads a diagram below the input directory and stores its stack below the output
directory (`run_of_ready`). It changes no file but its output and makes directories only on the way
there (`run_file`, `run_directory`); a job that fails changes no file (`run_failed`). A job succeeds
exactly if its diagram compiles and its output can be written (`run_succeeds_iff`), and it does the
same in a tree that has grown and agrees with what it leaves (`run_carried`). All this holds in any
formats of diagrams.
-/

namespace InfraDiagram

/-! ## 1. Names of diagrams and of stacks -/

namespace File

theorem toList_of_splitExtension {name before after : String}
    (h : splitExtension name = some (before, after)) :
    name.toList = before.toList ++ '.' :: after.toList := by
  unfold splitExtension at h
  simp only at h
  split at h
  · rename_i front e
    split at h
    · cases h
    · cases h
      have whole := List.prefix_iff_eq_append.mp
        (List.takeWhile_prefix (l := name.toList.reverse) fun c => c != '.')
      rw [e] at whole
      have flipped := congrArg List.reverse whole
      simpa using flipped.symm
  · cases h

/-- The extension of a path is that of the last name below. -/
theorem extension?_of_below {directory name ext : String} {dirs : List String}
    (h : Path.extension? ⟨directory, dirs ++ [name]⟩ = some ext) : extension? name = some ext := by
  have last : (Path.components ⟨directory, dirs ++ [name]⟩).getLast? = some name := by
    unfold Path.components
    rw [← List.append_assoc, List.getLast?_concat]
  obtain ⟨fileName, named, found⟩ := Option.bind_eq_some_iff.mp h
  unfold Path.fileName? at named
  rw [last] at named
  simp only at named
  split at named
  · cases named
  · cases named
    exact found

/-- The name of a stack ends in its extension, or leads to the directory above. -/
theorem withExtension_py (name : String) :
    withExtension "py" name = ".." ∨ (withExtension "py" name).toList.getLast? = some 'y' := by
  unfold withExtension
  split
  · exact Or.inl rfl
  · have last : "py".toList.getLast? = some 'y' := by decide
    refine Or.inr ?_
    rw [String.toList_append, List.getLast?_append, last]
    rfl

theorem isName_of_getLast {name : String} (h : name.toList.getLast? = some 'y') :
    Tree.isName name = true := by
  have other : ∀ {s : String}, s.toList.getLast? ≠ some 'y' → (name != s) = true := by
    intro s hs
    refine bne_iff_ne.mpr ?_
    rintro rfl
    exact hs h
  unfold Tree.isName
  rw [other (by decide), other (by decide), other (by decide)]
  rfl

end File

/-- A diagram has one of three extensions. -/
theorem Graph.extension_of_isGraphFile {p : File.Path} (h : Graph.isGraphFile p = true) :
    ∃ ext ∈ ["json", "yaml", "yml"], p.extension? = some ext := by
  unfold Graph.isGraphFile at h
  split at h
  · rename_i found
    exact ⟨"json", by decide, found⟩
  · rename_i found
    exact ⟨"yaml", by decide, found⟩
  · rename_i found
    exact ⟨"yml", by decide, found⟩
  · cases h

/-- The name of a diagram does not end as that of a stack does. -/
theorem Graph.last_of_isGraphFile {names : List String}
    (h : Graph.isGraphFile ⟨"", names⟩ = true) :
    ∃ dirs name, names = dirs ++ [name] ∧ name.toList.getLast? ≠ some 'y' := by
  have endings : ∀ ext ∈ ["json", "yaml", "yml"],
      ('.' :: ext.toList).getLast? = some 'n' ∨ ('.' :: ext.toList).getLast? = some 'l' := by
    decide
  rcases List.eq_nil_or_concat names with rfl | ⟨dirs, name, rfl⟩
  · cases h
  · rw [List.concat_eq_append] at *
    obtain ⟨ext, known, found⟩ := Graph.extension_of_isGraphFile h
    obtain ⟨⟨before, after⟩, split, rfl⟩ :=
      Option.map_eq_some_iff.mp (File.extension?_of_below found)
    refine ⟨dirs, name, rfl, ?_⟩
    rw [File.toList_of_splitExtension split, List.getLast?_append]
    rcases endings after known with ending | ending
    · rw [ending, Option.some_or]
      decide
    · rw [ending, Option.some_or]
      decide

namespace Command

open File (Tree Path Content Fault)
open File.Tree (accept isName maxNameBytes Carried find?_top)

/-! ## 2. Any job -/

/-- **What delivering does.** It fails and makes directories at most, or it makes directories and
    writes the output. -/
theorem deliver_cases (t : Tree) (job : Job) (source : String) :
    (∃ made f, job.deliver t source = (made, some f) ∧ t.Adds made) ∨
      ∃ made t', job.deliver t source = (t', none) ∧ t.Adds made ∧
        made.writeText job.output source = .ok t' := by
  have adds := t.makeDirectories_adds job.output.parent
  unfold Job.deliver
  split
  · rename_i made done
    rw [done] at adds
    cases written : made.writeText job.output source with
    | error f => exact Or.inl ⟨made, f, rfl, adds⟩
    | ok t' => exact Or.inr ⟨made, t', rfl, adds, written⟩
  · rename_i stopped
    cases result : t.makeDirectories job.output.parent with
    | mk made stop =>
      rw [result] at adds
      cases stop with
      | none => exact absurd result (stopped made)
      | some f => exact Or.inl ⟨made, f, rfl, adds⟩

section Any

variable [Graph.Formats] (settings : Settings) (t : Tree) (job : Job)

theorem run_of_program {source : String} (h : job.program settings t = .ok source) :
    job.run settings t = ((job.deliver t source).1, (job.deliver t source).2.map .write) := by
  unfold Job.run
  rw [h]
  rfl

theorem run_of_refused {e : JobError} (h : job.program settings t = .error e) :
    job.run settings t = (t, some e) := by
  unfold Job.run
  rw [h]

/-- **A job that fails changes no file**: it makes directories at most. -/
theorem run_failed {e : JobError} (h : (job.run settings t).2 = some e) :
    t.Adds (job.run settings t).1 := by
  cases program : job.program settings t with
  | error e' =>
    rw [run_of_refused settings t job program]
    exact .refl t
  | ok source =>
    rw [run_of_program settings t job program] at h ⊢
    rcases deliver_cases t job source with ⟨made, f, delivered, adds⟩ | ⟨made, t', delivered, -, -⟩
    · rw [delivered]
      exact adds
    · rw [delivered] at h
      cases h

theorem run_grows : t.Grows (job.run settings t).1 := by
  cases program : job.program settings t with
  | error e =>
    rw [run_of_refused settings t job program]
    exact .refl t
  | ok source =>
    rw [run_of_program settings t job program]
    rcases deliver_cases t job source with
      ⟨made, f, delivered, adds⟩ | ⟨made, t', delivered, adds, written⟩
    · rw [delivered]
      exact adds.grows
    · rw [delivered]
      exact adds.grows.trans (File.Tree.grows_of_write written)

theorem run_sound (sound : t.Sound) : (job.run settings t).1.Sound := by
  cases program : job.program settings t with
  | error e =>
    rw [run_of_refused settings t job program]
    exact sound
  | ok source =>
    rw [run_of_program settings t job program]
    rcases deliver_cases t job source with
      ⟨made, f, delivered, adds⟩ | ⟨made, t', delivered, adds, written⟩
    · rw [delivered]
      exact adds.sound sound
    · rw [delivered]
      exact File.Tree.sound_of_write (adds.sound sound) written

end Any

/-! ## 3. Jobs for diagrams below a directory -/

/-- Everything stands in a directory; the input directory is at one place, and the output directory
    at another. -/
structure Site (t : Tree) (input output : String) (source target : List String) : Prop where
  sound : t.Sound
  reads : t.enter [] (Path.steps ⟨input, []⟩) = .ok source
  writes : t.enter [] (Path.steps ⟨output, []⟩) = .ok target

/-- A diagram with a name in directories below a place. -/
structure Listed (t : Tree) (source dirs : List String) (name : String) : Prop where
  proper : ∀ name ∈ dirs, isName name = true
  named : isName name = true
  last : name.toList.getLast? ≠ some 'y'
  found : ∃ e, t.find? (source ++ (dirs ++ [name])) = some e

variable {settings : Settings} {t t' : Tree} {input output : String}
  {source target dirs names p : List String} {name program : String} {e : JobError} {c : Content}

theorem Site.of_grows (site : Site t input output source target) (grows : t.Grows t')
    (sound : t'.Sound) : Site t' input output source target :=
  ⟨sound, File.Tree.enter_of_grows grows site.reads, File.Tree.enter_of_grows grows site.writes⟩

theorem Site.directory (site : Site t input output source target) :
    t.find? target = some .directory :=
  File.Tree.enter_directory site.writes find?_top

theorem Listed.of_grows (listed : Listed t source dirs name) (grows : t.Grows t') :
    Listed t' source dirs name := by
  refine ⟨listed.proper, listed.named, listed.last, ?_⟩
  obtain ⟨e, found⟩ := listed.found
  cases e with
  | directory => exact ⟨_, grows.directory found⟩
  | file c =>
    obtain ⟨c', found'⟩ := grows.file found
    exact ⟨_, found'⟩

/-- The names that a walk lists are those of diagrams. -/
theorem listed_of_mem (h : names ∈ diagramNames t source) :
    ∃ dirs name, names = dirs ++ [name] ∧ Listed t source dirs name := by
  obtain ⟨found, graph⟩ := List.mem_filter.mp h
  obtain ⟨dirs, name, rfl, last⟩ := Graph.last_of_isGraphFile graph
  refine ⟨dirs, name, rfl, ?_⟩
  unfold File.Tree.filesBelow at found
  rw [List.mem_mergeSort] at found
  obtain ⟨⟨place, e⟩, entry, found⟩ := List.mem_filterMap.mp found
  cases e with
  | directory => cases found
  | file c =>
    simp only [Option.ite_none_right_eq_some, Bool.and_eq_true, beq_iff_eq, List.all_eq_true,
      Option.some.injEq] at found
    obtain ⟨⟨⟨start, -⟩, proper⟩, below⟩ := found
    rw [below] at proper
    obtain ⟨inside, named⟩ := List.forall_mem_append.mp proper
    refine ⟨inside, named name List.mem_cons_self, last, ?_⟩
    have place_eq : source ++ (dirs ++ [name]) = place := by
      rw [← start, ← below, List.take_append_drop]
    rw [place_eq]
    unfold File.Tree.find?
    split
    · exact ⟨_, rfl⟩
    · refine Option.isSome_iff_exists.mp (List.lookup_isSome_iff.mpr ⟨(place, .file c), entry, ?_⟩)
      exact beq_self_eq_true place

/-! ## 4. What a job stores -/

/-- The program of a job, if the directory of its output can be asked for. -/
def Job.ready [Graph.Formats] (settings : Settings) (t : Tree) (job : Job) :
    Except JobError String := do
  let program ← job.program settings t
  (accept job.output.parent).mapError .write
  .ok program

/-- What is left when a program is stored for a diagram. -/
def stored (t : Tree) (output : String) (target dirs : List String) (name program : String) :
    Tree × Option Fault :=
  t.store target dirs (accept ⟨output, dirs ++ [File.withExtension "py" name]⟩)
    (File.withExtension "py" name) (.text program)

theorem outputNames_concat (dirs : List String) (name : String) :
    outputNames (dirs ++ [name]) = dirs ++ [File.withExtension "py" name] := by
  unfold outputNames
  rw [List.dropLast_concat, List.getLast?_concat]
  rfl

theorem stackName_cases (name : String) : File.withExtension "py" name = ".." ∨
    isName (File.withExtension "py" name) = true :=
  (File.withExtension_py name).imp_right File.isName_of_getLast

theorem stackName_ne_empty (name : String) : File.withExtension "py" name ≠ "" := by
  intro empty
  rcases File.withExtension_py name with e | e <;> rw [empty] at e <;> exact absurd e (by decide)

theorem parent_output : (jobOf input output (dirs ++ [name])).output.parent = ⟨output, dirs⟩ := by
  unfold jobOf Path.parent
  rw [outputNames_concat, List.dropLast_concat]

theorem run_of_unready [Graph.Formats] {job : Job} (h : job.ready settings t = .error e) :
    job.run settings t = (t, some e) := by
  unfold Job.ready at h
  cases program : job.program settings t with
  | error e' =>
    rw [program] at h
    cases h
    exact run_of_refused settings t job program
  | ok source =>
    rw [program, Outcome.ok_bind] at h
    cases accepted : accept job.output.parent with
    | ok done =>
      rw [accepted] at h
      cases h
    | error f =>
      rw [accepted] at h
      cases h
      have refused : job.deliver t source = (t, some f) := by
        unfold Job.deliver File.Tree.makeDirectories
        rw [accepted]
      rw [run_of_program settings t job program, refused]
      rfl

section Stored

variable (site : Site t input output source target) (proper : ∀ name ∈ dirs, isName name = true)
include site proper

/-- Delivering is storing, from the output directory on. -/
theorem deliver_eq_stored (accepted : accept ⟨output, dirs⟩ = .ok ()) :
    (jobOf input output (dirs ++ [name])).deliver t program =
      stored t output target dirs name program := by
  have adds := File.Tree.dig_adds site.directory proper
  unfold Job.deliver stored
  rw [parent_output, File.Tree.makeDirectories_eq_dig site.sound accepted site.writes proper]
  unfold jobOf
  rw [outputNames_concat]
  cases done : t.dig target dirs with
  | mk made stop =>
    cases stop with
    | some f => rw [File.Tree.store_of_stopped _ _ _ done]
    | none =>
      rw [done] at adds
      have entered : made.enter [] (Path.steps ⟨output, []⟩ ++ dirs) = .ok (target ++ dirs) := by
        rw [File.Tree.enter_append, File.Tree.enter_of_grows adds.grows site.writes,
          Outcome.ok_bind, File.Tree.enter_of_dig proper done]
      rw [File.Tree.store_of_done _ _ _ done]
      unfold File.Tree.writeText
      cases whole : accept ⟨output, dirs ++ [File.withExtension "py" name]⟩ with
      | error f =>
        simp only [File.Tree.write_of_refused whole]
        rfl
      | ok accepts =>
        simp only [File.Tree.write_eq_plant whole (stackName_ne_empty name) entered,
          Outcome.ok_bind]

variable [Graph.Formats]

/-- **A job that is ready stores its program**, from the output directory on. -/
theorem run_of_ready
    (ready : (jobOf input output (dirs ++ [name])).ready settings t = .ok program) :
    (jobOf input output (dirs ++ [name])).run settings t =
      ((stored t output target dirs name program).1,
        (stored t output target dirs name program).2.map .write) := by
  obtain ⟨program', compiled, h⟩ := Outcome.bind_eq_ok.mp ready
  obtain ⟨accepts, accepted, h⟩ := Outcome.bind_eq_ok.mp h
  cases h
  rw [Outcome.mapError_eq_ok, parent_output] at accepted
  rw [run_of_program _ _ _ compiled, deliver_eq_stored site proper accepted]

/-- **A job changes no file but its output.** -/
theorem run_file
    (h : ((jobOf input output (dirs ++ [name])).run settings t).1.find? p = some (.file c)) :
    t.find? p = some (.file c) ∨ p = target ++ outputNames (dirs ++ [name]) := by
  cases ready : (jobOf input output (dirs ++ [name])).ready settings t with
  | error e =>
    rw [run_of_unready ready] at h
    exact Or.inl h
  | ok program =>
    rw [run_of_ready site proper ready] at h
    rw [outputNames_concat, ← List.append_assoc]
    exact File.Tree.store_file _ _ site.sound site.directory proper (stackName_cases name) h

/-- **A job makes directories on the way to its output only.** -/
theorem run_directory
    (h : ((jobOf input output (dirs ++ [name])).run settings t).1.find? p = some .directory) :
    t.find? p = some .directory ∨ ∃ outer, outer <+: dirs ∧ p = target ++ outer := by
  cases ready : (jobOf input output (dirs ++ [name])).ready settings t with
  | error e =>
    rw [run_of_unready ready] at h
    exact Or.inl h
  | ok program =>
    rw [run_of_ready site proper ready] at h
    exact File.Tree.store_directory _ _ site.sound site.directory proper (stackName_cases name) h

/-- A job leaves what is no stack as it was. -/
theorem run_keeps_diagram {q : List String} {other : String} {e : File.Entry}
    (named : isName other = true) (last : other.toList.getLast? ≠ some 'y')
    (found : t.find? (q ++ [other]) = some e) :
    ((jobOf input output (dirs ++ [name])).run settings t).1.find? (q ++ [other]) = some e := by
  have grows := run_grows settings t (jobOf input output (dirs ++ [name]))
  cases e with
  | directory => exact grows.directory found
  | file c =>
    obtain ⟨c', found'⟩ := grows.file found
    rcases run_file site proper found' with same | here
    · rw [found', ← same, found]
    · rw [outputNames_concat, ← List.append_assoc] at here
      obtain ⟨-, same⟩ := List.append_inj' here rfl
      rcases File.withExtension_py name with up | ending
      · rw [← (List.cons.inj same).1] at up
        rw [up] at named
        cases named
      · rw [← (List.cons.inj same).1] at ending
        exact absurd ending last

/-- What a job leaves if it succeeds. -/
theorem run_done {job : Job} (is : job = jobOf input output (dirs ++ [name]))
    (compiled : job.program settings t = .ok program) (h : (job.run settings t).2 = none) :
    (job.run settings t).1.find? (target ++ job.output.below) = some (.file (.text program)) ∧
      (job.run settings t).1.enter target dirs = .ok (target ++ dirs) := by
  subst is
  cases ready : (jobOf input output (dirs ++ [name])).ready settings t with
  | error e =>
    rw [run_of_unready ready] at h
    cases h
  | ok program' =>
    obtain ⟨program'', compiled', rest⟩ := Outcome.bind_eq_ok.mp ready
    obtain ⟨accepts, -, rest⟩ := Outcome.bind_eq_ok.mp rest
    rw [compiled] at compiled'
    cases compiled'
    cases rest
    rw [run_of_ready site proper ready] at h ⊢
    have done := Option.map_eq_none_iff.mp h
    have left := File.Tree.store_done _ _ site.sound site.directory proper
      (stackName_cases name) done
    unfold jobOf
    rw [outputNames_concat, ← List.append_assoc]
    exact left

end Stored

/-- **The output of a job can be written**: its path is accepted, the way to it is open, and its name
    is free for a file. -/
structure Job.Writable (t : Tree) (job : Job) : Prop where
  accepted : accept job.output = .ok ()
  named : ∀ name ∈ job.output.below.getLast?, name.utf8ByteSize ≤ maxNameBytes ∧ name ≠ ".."
  reached : ∃ place, t.enter [] (Path.steps ⟨job.output.given, []⟩) = .ok place ∧
    t.WayOpen place job.output.below.dropLast ∧
    t.find? (place ++ job.output.below) ≠ some .directory

/-- **A job succeeds exactly if its diagram compiles and its output can be written.** -/
theorem run_succeeds_iff [Graph.Formats] (site : Site t input output source target)
    (proper : ∀ name ∈ dirs, isName name = true) {job : Job}
    (is : job = jobOf input output (dirs ++ [name])) :
    (job.run settings t).2 = none ↔
      (∃ program, job.program settings t = .ok program) ∧ job.Writable t := by
  subst is
  have below : (jobOf input output (dirs ++ [name])).output =
      ⟨output, dirs ++ [File.withExtension "py" name]⟩ := by
    unfold jobOf
    rw [outputNames_concat]
  cases compiled : (jobOf input output (dirs ++ [name])).program settings t with
  | error e =>
    rw [run_of_refused _ _ _ compiled]
    refine iff_of_false (fun h => by cases h) ?_
    rintro ⟨⟨program, h⟩, -⟩
    cases h
  | ok program =>
    cases accepted : accept ⟨output, dirs⟩ with
    | error f =>
      have unready : (jobOf input output (dirs ++ [name])).ready settings t = .error (.write f) := by
        unfold Job.ready
        rw [compiled, Outcome.ok_bind, parent_output, accepted]
        rfl
      rw [run_of_unready unready]
      refine iff_of_false (fun h => by cases h) ?_
      rintro ⟨-, writable⟩
      have whole := writable.accepted
      rw [below] at whole
      rw [File.Tree.accept_parent whole] at accepted
      cases accepted
    | ok accepts =>
      have ready : (jobOf input output (dirs ++ [name])).ready settings t = .ok program := by
        unfold Job.ready
        rw [compiled, Outcome.ok_bind, parent_output, accepted]
        rfl
      rw [run_of_ready site proper ready]
      refine Option.map_eq_none_iff.trans ((File.Tree.store_succeeds_iff _ _ site.sound
        site.directory proper (stackName_cases name)).trans ?_)
      constructor
      · rintro ⟨whole, way, short, down, free⟩
        refine ⟨⟨program, rfl⟩, ?_, ?_, ?_⟩
        · rw [below]
          exact whole
        · rw [below, List.getLast?_concat]
          intro last h
          cases h
          exact ⟨short, down⟩
        · rw [below, List.dropLast_concat]
          refine ⟨target, site.writes, way, ?_⟩
          rwa [← List.append_assoc]
      · rintro ⟨-, writable⟩
        obtain ⟨whole, named, place, entered, way, free⟩ := writable
        rw [below] at whole named entered way free
        rw [List.getLast?_concat] at named
        rw [List.dropLast_concat] at way
        cases site.writes.symm.trans entered
        obtain ⟨short, down⟩ := named _ rfl
        rw [← List.append_assoc] at free
        exact ⟨whole, way, short, down, free⟩

/-! ## 5. Jobs in a tree that has grown -/

section Grown

variable [Graph.Formats] (site : Site t input output source target)
  (listed : Listed t source dirs name) (grows : t.Grows t')
  (diagram : t'.find? (source ++ (dirs ++ [name])) = t.find? (source ++ (dirs ++ [name])))
include site listed grows diagram

/-- A diagram that is still there compiles as before. -/
theorem ready_eq_of_grows : (jobOf input output (dirs ++ [name])).ready settings t' =
    (jobOf input output (dirs ++ [name])).ready settings t := by
  obtain ⟨e, found⟩ := listed.found
  have text : t'.readText (jobOf input output (dirs ++ [name])).input =
      t.readText (jobOf input output (dirs ++ [name])).input :=
    File.Tree.readText_eq_of_grows site.sound grows site.reads listed.proper listed.named found
      (diagram.trans found)
  unfold Job.ready Job.program Graph.ofFile
  rw [text]

/-- **A job does the same in a tree that has grown**, if that agrees with what the job leaves and still
    has the output, if there was one. -/
theorem run_carried (sound' : t'.Sound)
    (agrees : t'.Agrees ((jobOf input output (dirs ++ [name])).run settings t).1)
    (kept : ∀ {c}, t.find? (target ++ outputNames (dirs ++ [name])) = some (.file c) →
      t'.find? (target ++ outputNames (dirs ++ [name])) = some (.file c)) :
    ((jobOf input output (dirs ++ [name])).run settings t').2 =
        ((jobOf input output (dirs ++ [name])).run settings t).2 ∧
      Carried t ((jobOf input output (dirs ++ [name])).run settings t).1 t'
        ((jobOf input output (dirs ++ [name])).run settings t').1 := by
  have site' := site.of_grows grows sound'
  have same : (jobOf input output (dirs ++ [name])).ready settings t' =
      (jobOf input output (dirs ++ [name])).ready settings t :=
    ready_eq_of_grows site listed grows diagram
  rw [outputNames_concat, ← List.append_assoc] at kept
  cases ready : (jobOf input output (dirs ++ [name])).ready settings t with
  | error e =>
    rw [run_of_unready ready, run_of_unready (same.trans ready)]
    exact ⟨rfl, fun p => (if_pos rfl).symm⟩
  | ok program =>
    rw [run_of_ready site listed.proper ready] at agrees ⊢
    rw [run_of_ready site' listed.proper (same.trans ready)]
    obtain ⟨fault, carried⟩ := File.Tree.store_carried _ _ site.sound site.directory listed.proper
      (stackName_cases name) grows sound' agrees fun _ => kept
    exact ⟨congrArg (Option.map JobError.write) fault, carried⟩

end Grown

end Command

end InfraDiagram
