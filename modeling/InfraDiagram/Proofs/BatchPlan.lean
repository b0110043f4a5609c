import InfraDiagram.Proofs.BatchOrder
import Mathlib.Data.List.TakeWhile

/-!
# Plans of a batch

The stack of a diagram stands below the output directory where the diagram stands below the input
directory, with another extension. So two diagrams get one output exactly if they differ in their last
extension at most (`outputNames_eq_iff`); a plan refuses the first diagram for which that is so, and
names the earlier one (`checkShared_error`).

A name is split at its last dot, unless that is its first character (`splitExtension_eq_some_iff`).
One name is not given its new extension: what is left of `..json` without its last extension is the
directory itself, and its output is `..`.
-/

namespace InfraDiagram

/-! ## 1. Extensions -/

namespace File

/-- **A name with an extension**: a stem, and what is after the last dot. -/
structure Dotted (name stem ext : String) : Prop where
  whole : name = stem ++ "." ++ ext
  begun : stem ≠ ""
  last : '.' ∉ ext.toList

variable {name stem stem' ext ext' : String}

theorem dotted_of_splitExtension (h : splitExtension name = some (stem, ext)) :
    Dotted name stem ext := by
  have whole : name = stem ++ "." ++ ext := by
    rw [← String.toList_inj, toList_of_splitExtension h]
    simp
  unfold splitExtension at h
  simp only at h
  split at h
  · split at h
    · cases h
    · rename_i nonempty
      cases h
      refine ⟨whole, by simpa using nonempty, fun dot => ?_⟩
      rw [String.toList_ofList, List.mem_reverse] at dot
      have other := List.mem_takeWhile_imp dot
      cases other
  · cases h

theorem Dotted.splitExtension (h : Dotted name stem ext) :
    splitExtension name = some (stem, ext) := by
  obtain ⟨rfl, begun, last⟩ := h
  have reversed : (stem ++ "." ++ ext).toList.reverse =
      ext.toList.reverse ++ '.' :: stem.toList.reverse := by
    simp
  have inside : ∀ c ∈ ext.toList.reverse, (c != '.') = true := by
    intro c hc
    refine bne_iff_ne.mpr ?_
    rintro rfl
    exact last (List.mem_reverse.mp hc)
  have after : (stem ++ "." ++ ext).toList.reverse.takeWhile (fun c => c != '.') =
      ext.toList.reverse := by
    rw [reversed, List.takeWhile_append_of_pos inside]
    simp
  unfold File.splitExtension
  simp only
  rw [after, reversed, List.drop_left]
  simp [begun]

/-- **A name is split at its last dot**, unless that is its first character. -/
theorem splitExtension_eq_some_iff :
    splitExtension name = some (stem, ext) ↔ Dotted name stem ext :=
  ⟨dotted_of_splitExtension, Dotted.splitExtension⟩

theorem Dotted.unique (h : Dotted name stem ext) (h' : Dotted name stem' ext') :
    stem = stem' ∧ ext = ext' := by
  rw [← splitExtension_eq_some_iff] at h h'
  exact Prod.mk.inj (Option.some.inj (h.symm.trans h'))

/-- The name of a stack, by what is left of the name of its diagram without the extension. -/
def stackName (stem : String) : String := if stem = "." then ".." else stem ++ "." ++ "py"

theorem Dotted.stackName (h : Dotted name stem ext) : withExtension "py" name = stackName stem := by
  have left : File.stem name = stem := by
    unfold File.stem
    rw [splitExtension_eq_some_iff.mpr h]
    rfl
  unfold withExtension File.stackName
  rw [left]
  simp only [beq_iff_eq]

theorem dotted_stackName (begun : stem ≠ "") (other : stem ≠ ".") :
    Dotted (stackName stem) stem "py" := by
  refine ⟨?_, begun, by decide⟩
  unfold stackName
  rw [if_neg other]

/-- The directory above, taken for a name, has an empty extension. -/
theorem dotted_up : Dotted ".." "." "" := ⟨by decide, by decide, by decide⟩

theorem not_dotted_up : ¬ Dotted ".." stem "py" := by
  intro h
  have empty := (h.unique dotted_up).2
  exact absurd empty (by decide)

/-- **The name of a stack tells the stem of its diagram.** -/
theorem stackName_inj (begun : stem ≠ "") (begun' : stem' ≠ "")
    (h : stackName stem = stackName stem') : stem = stem' := by
  have up : stackName "." = ".." := rfl
  by_cases dot : stem = "." <;> by_cases dot' : stem' = "."
  · rw [dot, dot']
  · have dotted := dotted_stackName begun' dot'
    rw [← h, dot, up] at dotted
    exact absurd dotted not_dotted_up
  · have dotted := dotted_stackName begun dot
    rw [h, dot', up] at dotted
    exact absurd dotted not_dotted_up
  · have dotted := dotted_stackName begun dot
    rw [h] at dotted
    exact (dotted.unique (dotted_stackName begun' dot')).1

/-- The name of a stack has its extension, or an empty one. -/
theorem extension_of_stackName (begun : stem ≠ "") (h : Dotted (stackName stem) stem' ext) :
    ext = "py" ∨ ext = "" := by
  by_cases dot : stem = "."
  · subst dot
    exact Or.inr (h.unique dotted_up).2
  · exact Or.inl (h.unique (dotted_stackName begun dot)).2

end File

/-! ## 2. Diagrams and their outputs -/

namespace Command

open File (Path Tree Dotted stackName)

/-- **A path with its last extension replaced**: in the same directories, with the same stem. -/
def Replaced (ext : String) (names names' : List String) : Prop :=
  ∃ dirs name name' stem old, names = dirs ++ [name] ∧ names' = dirs ++ [name'] ∧
    Dotted name stem old ∧ Dotted name' stem ext

/-- **Paths that agree without their last extensions.** -/
def SameStem (names names' : List String) : Prop := ∃ ext, Replaced ext names names'

/-- The path of a diagram that is named `.`, apart from its extension. -/
def Unnamed (names : List String) : Prop :=
  ∃ dirs name ext, names = dirs ++ [name] ∧ Dotted name "." ext

/-- The names of a diagram file below a directory. -/
def IsDiagram (directory : String) (names : List String) : Prop :=
  names ≠ [] ∧ Graph.isGraphFile ⟨directory, names⟩ = true

instance (directory : String) (names : List String) : Decidable (IsDiagram directory names) :=
  inferInstanceAs (Decidable (_ ∧ _))

variable {input output : String} {names names' : List String}

/-- A diagram has a name with one of three extensions. -/
theorem IsDiagram.dotted (h : IsDiagram input names) :
    ∃ dirs name stem ext, names = dirs ++ [name] ∧ Dotted name stem ext ∧
      ext ∈ ["json", "yaml", "yml"] := by
  obtain ⟨below, graph⟩ := h
  obtain ⟨dirs, name, rfl⟩ := (List.eq_nil_or_concat names).resolve_left below
  rw [List.concat_eq_append] at graph ⊢
  obtain ⟨ext, known, found⟩ := Graph.extension_of_isGraphFile graph
  obtain ⟨⟨stem, ext'⟩, split, rfl⟩ :=
    Option.map_eq_some_iff.mp (File.extension?_of_below found)
  exact ⟨dirs, name, stem, ext', rfl, File.splitExtension_eq_some_iff.mp split, known⟩

theorem outputNames_of_dotted {dirs : List String} {name stem ext : String}
    (h : Dotted name stem ext) : outputNames (dirs ++ [name]) = dirs ++ [stackName stem] := by
  rw [outputNames_concat, h.stackName]

/-- **Two diagrams get one output exactly if they agree without their last extensions.** -/
theorem outputNames_eq_iff (h : IsDiagram input names) (h' : IsDiagram input names') :
    outputNames names = outputNames names' ↔ SameStem names names' := by
  obtain ⟨dirs, name, stem, ext, rfl, dotted, -⟩ := h.dotted
  obtain ⟨dirs', name', stem', ext', rfl, dotted', -⟩ := h'.dotted
  rw [outputNames_of_dotted dotted, outputNames_of_dotted dotted', List.append_singleton_inj]
  constructor
  · rintro ⟨rfl, same⟩
    obtain rfl := File.stackName_inj dotted.begun dotted'.begun same
    exact ⟨ext', dirs, name, name', stem, ext, rfl, rfl, dotted, dotted'⟩
  · rintro ⟨_, around, _, _, left, _, e, e', d, d'⟩
    obtain ⟨rfl, rfl⟩ := List.append_singleton_inj.mp e
    obtain ⟨rfl, rfl⟩ := List.append_singleton_inj.mp e'
    rw [(dotted.unique d).1, (dotted'.unique d').1]
    exact ⟨rfl, rfl⟩

/-- **What the output of a diagram is**: the path with the extension of stacks, or the directory above
    if the diagram is named `.`. -/
theorem outputNames_cases (h : IsDiagram input names) :
    ¬ Unnamed names ∧ Replaced "py" names (outputNames names) ∨
      Unnamed names ∧ outputNames names = names.dropLast ++ [".."] := by
  obtain ⟨dirs, name, stem, ext, rfl, dotted, -⟩ := h.dotted
  rw [outputNames_of_dotted dotted]
  by_cases dot : stem = "."
  · right
    subst dot
    rw [List.dropLast_concat]
    exact ⟨⟨dirs, name, ext, rfl, dotted⟩, rfl⟩
  · left
    refine ⟨?_, dirs, name, _, stem, ext, rfl, rfl, dotted, File.dotted_stackName dotted.begun dot⟩
    rintro ⟨around, other, ext', e, d⟩
    obtain ⟨-, rfl⟩ := List.append_singleton_inj.mp e
    exact dot (dotted.unique d).1

/-- **No output is where a diagram is**: the extensions differ, whatever the directories are. -/
theorem output_ne_input (h : IsDiagram input names) (h' : IsDiagram input names') :
    Path.components ⟨output, outputNames names⟩ ≠ Path.components ⟨input, names'⟩ := by
  obtain ⟨dirs, name, stem, ext, rfl, dotted, -⟩ := h.dotted
  obtain ⟨dirs', name', stem', ext', rfl, dotted', known⟩ := h'.dotted
  rw [outputNames_of_dotted dotted]
  unfold Path.components
  simp only
  rw [← List.append_assoc, ← List.append_assoc]
  intro same
  obtain ⟨-, rfl⟩ := List.append_singleton_inj.mp same
  rcases File.extension_of_stackName dotted.begun dotted' with rfl | rfl
  · exact absurd known (by decide)
  · exact absurd known (by decide)

/-! ## 3. The search for a shared output -/

section Shared

variable {earlier jobs : List Job} {f : Failure}

/-- **One step of the search**: a job is refused if an earlier one has its output, and is one of the
    earlier ones for the rest if not. -/
theorem checkShared_step (earlier : List Job) (job : Job) (rest : List Job) :
    (∃ j ∈ earlier, j.output = job.output ∧ checkShared earlier (job :: rest) =
        .error (.sharedOutput j.input.text job.input.text job.output.text)) ∨
      (∀ j ∈ earlier, j.output ≠ job.output) ∧
        checkShared earlier (job :: rest) = checkShared (job :: earlier) rest := by
  rw [checkShared]
  cases found : earlier.find? fun j => j.output == job.output with
  | some j =>
    have same := List.find?_some found
    exact Or.inl ⟨j, List.mem_of_find?_eq_some found, beq_iff_eq.mp same, rfl⟩
  | none =>
    refine Or.inr ⟨fun j hj same => ?_, rfl⟩
    exact List.find?_eq_none.mp found j hj (beq_iff_eq.mpr same)

/-- Jobs with outputs of their own are not refused. -/
theorem checkShared_of_outputs (before : ∀ a ∈ earlier, ∀ b ∈ jobs, a.output ≠ b.output)
    (apart : (jobs.map Job.output).Nodup) : checkShared earlier jobs = .ok () := by
  induction jobs generalizing earlier with
  | nil => rfl
  | cons job rest ih =>
    obtain ⟨fresh, apart⟩ := List.nodup_cons.mp apart
    rcases checkShared_step earlier job rest with ⟨j, hj, same, -⟩ | ⟨-, next⟩
    · exact absurd same (before j hj job List.mem_cons_self)
    · rw [next]
      refine ih (fun a ha b hb same => ?_) apart
      rcases List.mem_cons.mp ha with rfl | ha
      · exact fresh (List.mem_map.mpr ⟨b, hb, same.symm⟩)
      · exact before a ha b (List.mem_cons_of_mem job hb) same

/-- **The first job whose output is another's is refused**, and that other one is named. -/
theorem checkShared_error (h : checkShared earlier jobs = .error f) :
    ∃ before job after j, jobs = before ++ job :: after ∧ checkShared earlier before = .ok () ∧
      (j ∈ earlier ∨ j ∈ before) ∧ j.output = job.output ∧
      f = .sharedOutput j.input.text job.input.text job.output.text := by
  induction jobs generalizing earlier with
  | nil => cases h
  | cons job rest ih =>
    rcases checkShared_step earlier job rest with ⟨j, hj, same, refused⟩ | ⟨free, next⟩
    · rw [refused] at h
      cases h
      exact ⟨[], job, rest, j, rfl, rfl, Or.inl hj, same, rfl⟩
    · rw [next] at h
      obtain ⟨before, job', after, j, rfl, passed, claimed, same, rfl⟩ := ih h
      refine ⟨job :: before, job', after, j, rfl, ?_, ?_, same, rfl⟩
      · rcases checkShared_step earlier job before with ⟨j', hj', same', -⟩ | ⟨-, next'⟩
        · exact absurd same' (free j' hj')
        · rw [next', passed]
      · rcases claimed with claimed | claimed
        · rcases List.mem_cons.mp claimed with rfl | claimed
          · exact Or.inr List.mem_cons_self
          · exact Or.inl claimed
        · exact Or.inr (List.mem_cons_of_mem job claimed)

end Shared

/-! ## 4. Plans -/

section Plan

variable {diagrams : List (List String)} {jobs : List Job} {f : Failure}

theorem map_output_jobOf (input output : String) (diagrams : List (List String)) :
    (diagrams.map (jobOf input output)).map Job.output =
      diagrams.map fun names => ⟨output, outputNames names⟩ := by
  rw [List.map_map]
  rfl

/-- Outputs are apart exactly if no two diagrams agree without their last extensions. -/
theorem outputs_nodup_iff (output : String) (hd : ∀ names ∈ diagrams, IsDiagram input names) :
    ((diagrams.map (jobOf input output)).map Job.output).Nodup ↔
      diagrams.Pairwise fun names names' => ¬ SameStem names names' := by
  rw [map_output_jobOf]
  unfold List.Nodup
  rw [List.pairwise_map]
  refine List.Pairwise.iff_of_mem fun {names names'} h h' => not_congr ?_
  -- all outputs are below one directory, so they differ in their names
  rw [← outputNames_eq_iff (hd names h) (hd names' h'), File.Path.mk.injEq]
  exact and_iff_right rfl

/-- A plan has a job for each diagram, if their outputs are apart. -/
theorem plan_eq_ok_iff : plan input output diagrams = .ok jobs ↔
    ((diagrams.map (jobOf input output)).map Job.output).Nodup ∧
      jobs = diagrams.map (jobOf input output) := by
  unfold plan
  constructor
  · intro h
    obtain ⟨done, passed, h⟩ := Outcome.bind_eq_ok.mp h
    exact ⟨(outputs_of_checkShared passed).2, (Except.ok.inj h).symm⟩
  · rintro ⟨apart, rfl⟩
    have passed : checkShared [] (diagrams.map (jobOf input output)) = .ok () :=
      checkShared_of_outputs (fun a ha => (List.not_mem_nil ha).elim) apart
    exact Outcome.bind_eq_ok.mpr ⟨(), passed, rfl⟩

/-- **The first diagram whose output is claimed**, and the one that claims it. -/
structure Claimed (diagrams before : List (List String)) (first second : List String) : Prop where
  split : before ++ [second] <+: diagrams
  apart : before.Pairwise fun names names' => ¬ SameStem names names'
  earlier : first ∈ before
  same : SameStem first second

/-- A plan that fails names the first diagram whose output is claimed. -/
theorem claimed_of_plan (hd : ∀ names ∈ diagrams, IsDiagram input names)
    (h : plan input output diagrams = .error f) :
    ∃ before first second, Claimed diagrams before first second ∧
      f = .sharedOutput (Path.text ⟨input, first⟩) (Path.text ⟨input, second⟩)
        (Path.text ⟨output, outputNames second⟩) := by
  have refused : checkShared [] (diagrams.map (jobOf input output)) = .error f := by
    rcases Outcome.bind_eq_error.mp h with refused | ⟨done, -, h⟩
    · exact refused
    · cases h
  obtain ⟨front, job, back, j, whole, passed, claimed, same, rfl⟩ := checkShared_error refused
  obtain ⟨before, rest, rfl, rfl, tail⟩ := List.map_eq_append_iff.mp whole
  obtain ⟨second, after, rfl, rfl, -⟩ := List.map_eq_cons_iff.mp tail
  obtain ⟨first, hfirst, rfl⟩ := List.mem_map.mp (claimed.resolve_left List.not_mem_nil)
  obtain ⟨hbefore, hrest⟩ := List.forall_mem_append.mp hd
  have hsecond := hrest second List.mem_cons_self
  refine ⟨before, first, second, ⟨?_, ?_, hfirst, ?_⟩, rfl⟩
  · exact ⟨after, (List.append_cons before second after).symm⟩
  · exact (outputs_nodup_iff output hbefore).mp (outputs_of_checkShared passed).2
  · exact (outputNames_eq_iff (hbefore first hfirst) hsecond).mp (congrArg Path.below same)

/-- **Jobs that mirror diagrams**: one for each, in order, with an output that stands below the output
    directory as the diagram stands below the input directory, with the extension of stacks (or with
    the directory above as its name, for a diagram that is named `.`). No two outputs are one, and
    none is a diagram. -/
structure Mirrors (input output : String) (diagrams : List (List String)) (jobs : List Job) :
    Prop where
  inputs : jobs.map Job.input = diagrams.map (File.Path.mk input)
  outputs : ∀ job ∈ jobs, job.output.given = output ∧
    (¬ Unnamed job.input.below ∧ Replaced "py" job.input.below job.output.below ∨
      Unnamed job.input.below ∧ job.output.below = job.input.below.dropLast ++ [".."])
  distinct : (jobs.map fun job => job.output.components).Nodup
  apart : ∀ a ∈ jobs, ∀ b ∈ jobs, a.output.components ≠ b.input.components

theorem mirrors_of_plan (hd : ∀ names ∈ diagrams, IsDiagram input names)
    (h : plan input output diagrams = .ok jobs) : Mirrors input output diagrams jobs := by
  obtain ⟨nodup, rfl⟩ := plan_eq_ok_iff.mp h
  refine ⟨?_, ?_, ?_, ?_⟩
  · rw [List.map_map]
    rfl
  · intro job hjob
    obtain ⟨names, hn, rfl⟩ := List.mem_map.mp hjob
    exact ⟨rfl, outputNames_cases (hd names hn)⟩
  · rw [map_output_jobOf, List.Nodup, List.pairwise_map] at nodup
    rw [List.map_map, List.Nodup, List.pairwise_map]
    refine nodup.imp fun {names names'} other same => other ?_
    exact congrArg (File.Path.mk output) (List.append_cancel_left same)
  · intro a ha b hb
    obtain ⟨names, hn, rfl⟩ := List.mem_map.mp ha
    obtain ⟨names', hn', rfl⟩ := List.mem_map.mp hb
    exact output_ne_input (hd names hn) (hd names' hn')

end Plan

/-- **A plan is exact.** It succeeds exactly if no two diagrams below the input directory agree
    without their last extensions, and then its jobs mirror the diagrams; if it fails, it names the
    first diagram whose output is claimed and the one that claims it. -/
theorem plan_exact (input output : String) (diagrams : List (List String))
    (hd : ∀ names ∈ diagrams, IsDiagram input names) :
    ((∃ jobs, plan input output diagrams = .ok jobs) ↔
        diagrams.Pairwise fun names names' => ¬ SameStem names names') ∧
      (∀ jobs, plan input output diagrams = .ok jobs → Mirrors input output diagrams jobs) ∧
      ∀ f, plan input output diagrams = .error f →
        ∃ before first second, Claimed diagrams before first second ∧
          f = .sharedOutput (Path.text ⟨input, first⟩) (Path.text ⟨input, second⟩)
            (Path.text ⟨output, outputNames second⟩) := by
  refine ⟨?_, fun jobs => mirrors_of_plan hd, fun f => claimed_of_plan hd⟩
  rw [← outputs_nodup_iff output hd]
  constructor
  · rintro ⟨jobs, h⟩
    exact (plan_eq_ok_iff.mp h).1
  · intro nodup
    exact ⟨_, plan_eq_ok_iff.mpr ⟨nodup, rfl⟩⟩

/-- Diagrams with hidden files, several dots and several directories. -/
def gallery : List (List String) :=
  [["a.json"], ["a.b.yaml"], [".a.yml"], ["a", "a.json"], ["..json"]]

theorem gallery_is_mirrored :
    (∀ names ∈ gallery ++ [["a.b.json"]], IsDiagram "in" names) ∧
      Mirrors "in" "out" gallery (gallery.map (jobOf "in" "out")) ∧
      ∃ before first second, Claimed (gallery ++ [["a.b.json"]]) before first second := by
  have drawn : ∀ names ∈ gallery ++ [["a.b.json"]], IsDiagram "in" names := by decide +kernel
  have planned : plan "in" "out" gallery = .ok (gallery.map (jobOf "in" "out")) := by
    decide +kernel
  have refused : plan "in" "out" (gallery ++ [["a.b.json"]]) =
      .error (.sharedOutput "in/a.b.yaml" "in/a.b.json" "out/a.b.py") := by
    decide +kernel
  obtain ⟨before, first, second, claimed, -⟩ := (plan_exact "in" "out" _ drawn).2.2 _ refused
  refine ⟨drawn, ?_, before, first, second, claimed⟩
  exact (plan_exact "in" "out" gallery (List.forall_mem_append.mp drawn).1).2.1 _ planned

/-- A diagram that is named `.`, apart from its extension. -/
def unnamedDiagram : Tree where
  entries := [(["in"], .directory), (["in", "..json"], .file (.text emptyShop)),
    (["out"], .directory)]

/-- **The stack of a diagram that is named `.` is lost**: its output is the directory above and not a
    path with the extension of stacks, so the program cannot be written. -/
theorem unnamed_stack_is_lost :
    IsDiagram "in" ["..json"] ∧
      plan "in" "out" [["..json"]] = .ok [⟨⟨"in", ["..json"]⟩, ⟨"out", [".."]⟩⟩] ∧
      ¬ Replaced "py" ["..json"] [".."] ∧
      ((jobOf "in" "out" ["..json"]).program {} unnamedDiagram).isOk = true ∧
      ((jobOf "in" "out" ["..json"]).run {} unnamedDiagram).2 = some (.write .isDirectory) := by
  refine ⟨by decide +kernel, by decide +kernel, ?_, by decide +kernel, by decide +kernel⟩
  rintro ⟨dirs, name, name', stem, old, -, last, -, dotted⟩
  have last : [] ++ [".."] = dirs ++ [name'] := last
  obtain ⟨-, rfl⟩ := List.append_singleton_inj.mp last
  exact File.not_dotted_up dotted

end Command

end InfraDiagram
