import InfraDiagram.Proofs.BatchJobs
import Mathlib.Data.List.Nodup
import Mathlib.Data.List.Perm.Basic

/-!
# The order of jobs

The jobs of a batch may be done in any order. A job alone leaves a tree of its own; as long as no two
of these trees hold a file and a directory at one place, a run of jobs leaves the merge of them
(`Merged`): every place is as one of its jobs alone leaves it, or as it was. Each job keeps this
(`Merged.step`), so every order does (`Merged.run`), and the jobs of a batch are independent exactly
if none obstructs another (`Independent.clear`, `Scene.independent`).

Planning compares whole outputs only: the outputs `out/a.py` and `out/a.py/b.py` are two, but no tree
has both.
-/

namespace InfraDiagram.Command

open File (Tree Path Content)

/-! ## 1. Planned jobs -/

/-- A batch whose jobs are planned: `made` is the tree with the output directory. -/
structure Planned [Settings.Formats] (t : Tree) (input output : String) (path : Option String)
    (made : Tree) (settings : Settings) (jobs : List Job) : Prop where
  sound : t.Sound
  listed : ∃ directory, t.directory? ⟨input, []⟩ = some directory ∧
    jobs = (diagramNames t directory).map (jobOf input output)
  nonempty : jobs ≠ []
  directory : t.makeDirectories ⟨output, []⟩ = (made, none)
  unshared : checkShared [] jobs = .ok ()
  loaded : loadSettings made path = .ok settings

theorem batch_of_planned [Settings.Formats] [Graph.Formats] {t made : Tree}
    {input output : String} {path : Option String} {settings : Settings} {jobs : List Job}
    (planned : Planned t input output path made settings jobs) :
    batch t input output path = runBatch made settings jobs := by
  obtain ⟨directory, found, rfl⟩ := planned.listed
  obtain ⟨first, others, names⟩ : ∃ first others, diagramNames t directory = first :: others := by
    refine List.exists_cons_of_ne_nil fun empty => planned.nonempty ?_
    rw [empty]
    rfl
  rw [names] at planned ⊢
  unfold batch
  simp only [found, names, planned.directory, plan, planned.unshared, Outcome.ok_bind,
    planned.loaded]

/-- Jobs that are not refused have outputs of their own. -/
theorem outputs_of_checkShared : ∀ {earlier jobs : List Job}, checkShared earlier jobs = .ok () →
    (∀ a ∈ earlier, ∀ b ∈ jobs, a.output ≠ b.output) ∧ (jobs.map Job.output).Nodup
  | _, [], _ => ⟨fun _ _ _ hb => (List.not_mem_nil hb).elim, List.nodup_nil⟩
  | earlier, job :: rest, h => by
      unfold checkShared at h
      split at h
      · cases h
      · rename_i unclaimed
        obtain ⟨before, apart⟩ := outputs_of_checkShared h
        refine ⟨fun a ha b hb => ?_, List.nodup_cons.mpr ⟨fun again => ?_, apart⟩⟩
        · rcases List.mem_cons.mp hb with rfl | hb
          · have other := List.find?_eq_none.mp unclaimed a ha
            exact fun same => other (beq_iff_eq.mpr same)
          · exact before a (List.mem_cons_of_mem _ ha) b hb
        · obtain ⟨b, hb, same⟩ := List.mem_map.mp again
          exact before job List.mem_cons_self b hb same.symm

/-- Jobs for diagrams below a directory, each with an output of its own. -/
structure Scene (t : Tree) (input output : String) (source target : List String)
    (jobs : List Job) : Prop where
  site : Site t input output source target
  listed : ∀ job ∈ jobs, ∃ dirs name, job = jobOf input output (dirs ++ [name]) ∧
    Listed t source dirs name
  apart : (jobs.map Job.output).Nodup

theorem scene_of_planned [Settings.Formats] {t made : Tree} {input output : String}
    {path : Option String} {settings : Settings} {jobs : List Job}
    (planned : Planned t input output path made settings jobs) :
    ∃ source target, Scene made input output source target jobs := by
  obtain ⟨source, found, rfl⟩ := planned.listed
  have adds := t.makeDirectories_adds ⟨output, []⟩
  rw [planned.directory] at adds
  obtain ⟨target, entered⟩ := File.Tree.enter_of_makeDirectories planned.directory
  refine ⟨source, target, ⟨adds.sound planned.sound, ?_, entered⟩, fun job hjob => ?_,
    (outputs_of_checkShared planned.unshared).2⟩
  · exact File.Tree.enter_of_grows adds.grows (File.Tree.enter_of_directory? found)
  · obtain ⟨names, member, rfl⟩ := List.mem_map.mp hjob
    obtain ⟨dirs, name, rfl, listed⟩ := listed_of_mem member
    exact ⟨dirs, name, rfl, listed.of_grows adds.grows⟩

variable {settings : Settings} {T t t' : Tree} {input output : String}
  {source target : List String} {jobs done order : List Job} {a b job : Job}

namespace Scene

variable (scene : Scene T input output source target jobs)
include scene

theorem nodup : jobs.Nodup := scene.apart.of_map

/-- Two jobs with an output at one place are one. -/
theorem eq_of_below (ha : a ∈ jobs) (hb : b ∈ jobs)
    (same : target ++ a.output.below = target ++ b.output.below) : a = b := by
  refine List.inj_on_of_nodup_map scene.apart ha hb ?_
  obtain ⟨dirs, name, rfl, -⟩ := scene.listed a ha
  obtain ⟨dirs', name', rfl, -⟩ := scene.listed b hb
  exact congrArg (File.Path.mk output) (List.append_cancel_left same)

/-- A job of the batch changes no file but its output. -/
theorem file [Graph.Formats] (ha : a ∈ jobs) {p : List String} {c : Content}
    (h : (a.run settings T).1.find? p = some (.file c)) :
    T.find? p = some (.file c) ∨ p = target ++ a.output.below := by
  obtain ⟨dirs, name, rfl, listed⟩ := scene.listed a ha
  exact run_file scene.site listed.proper h

end Scene

/-! ## 2. Trees that jobs leave -/

/-- **A job obstructs another**: alone it leaves a file where the other, alone, leaves a directory. -/
def Obstructs [Graph.Formats] (settings : Settings) (t : Tree) (a b : Job) : Prop :=
  ∃ p c, (a.run settings t).1.find? p = some (.file c) ∧
    (b.run settings t).1.find? p = some .directory

/-- **The merge of what jobs leave**: every place is as it was or as one of the jobs, alone, leaves
    it, and where one of them changes something, as that leaves it. -/
structure Merged [Graph.Formats] (settings : Settings) (T : Tree) (done : List Job) (t : Tree) :
    Prop where
  sound : t.Sound
  old : ∀ p, t.find? p = T.find? p ∨ ∃ job ∈ done, t.find? p = (job.run settings T).1.find? p
  new : ∀ job ∈ done, ∀ p, (job.run settings T).1.find? p ≠ T.find? p →
    t.find? p = (job.run settings T).1.find? p

namespace Merged

variable [Graph.Formats]

theorem start (sound : T.Sound) : Merged settings T [] T :=
  ⟨sound, fun _ => Or.inl rfl, fun _ h => (List.not_mem_nil h).elim⟩

/-- The merge does not depend on the order of the jobs. -/
theorem find?_eq (merged : Merged settings T done t) (merged' : Merged settings T order t')
    (same : ∀ job, job ∈ done ↔ job ∈ order) (p : List String) : t.find? p = t'.find? p := by
  by_cases changed : ∃ job ∈ done, (job.run settings T).1.find? p ≠ T.find? p
  · obtain ⟨job, hjob, changed⟩ := changed
    rw [merged.new job hjob p changed, merged'.new job ((same job).mp hjob) p changed]
  · have unchanged : ∀ job ∈ done, (job.run settings T).1.find? p = T.find? p := by
      intro job hjob
      by_contra h
      exact changed ⟨job, hjob, h⟩
    have left : t.find? p = T.find? p := by
      rcases merged.old p with e | ⟨job, hjob, e⟩
      · exact e
      · rw [e, unchanged job hjob]
    have right : t'.find? p = T.find? p := by
      rcases merged'.old p with e | ⟨job, hjob, e⟩
      · exact e
      · rw [e, unchanged job ((same job).mpr hjob)]
    rw [left, right]

theorem grows (merged : Merged settings T done t) : T.Grows t := by
  refine ⟨fun {p} there => ?_, fun {p c} there => ?_⟩
  · rcases merged.old p with e | ⟨job, -, e⟩
    · exact e.trans there
    · exact e.trans ((run_grows settings T job).directory there)
  · rcases merged.old p with e | ⟨job, -, e⟩
    · exact ⟨c, e.trans there⟩
    · obtain ⟨c', there'⟩ := (run_grows settings T job).file there
      exact ⟨c', e.trans there'⟩

/-- The merge has what each of its jobs leaves. -/
theorem grows_run (merged : Merged settings T done t) (hjob : job ∈ done) :
    (job.run settings T).1.Grows t := by
  have grows := merged.grows
  refine ⟨fun {p} there => ?_, fun {p c} there => ?_⟩
  · by_cases changed : (job.run settings T).1.find? p = T.find? p
    · exact grows.directory (changed.symm.trans there)
    · rw [merged.new job hjob p changed, there]
  · by_cases changed : (job.run settings T).1.find? p = T.find? p
    · exact grows.file (changed.symm.trans there)
    · exact ⟨c, by rw [merged.new job hjob p changed, there]⟩

section Step

variable (scene : Scene T input output source target jobs)
  (clear : ∀ a ∈ jobs, ∀ b ∈ jobs, ¬ Obstructs settings T a b)
  (merged : Merged settings T done t) (within : ∀ job ∈ done, job ∈ jobs)

/-- The merge agrees with what a job of the batch leaves. -/
theorem agrees (clear : ∀ a ∈ jobs, ∀ b ∈ jobs, ¬ Obstructs settings T a b)
    (merged : Merged settings T done t) (within : ∀ job ∈ done, job ∈ jobs) (hjob : job ∈ jobs) :
    t.Agrees (job.run settings T).1 := by
  refine ⟨fun {p c} there dir => ?_, fun {p c} there file => ?_⟩
  · rcases merged.old p with e | ⟨other, hother, e⟩
    · obtain ⟨c', there'⟩ := (run_grows settings T job).file (e.symm.trans there)
      rw [dir] at there'
      cases there'
    · exact clear other (within other hother) job hjob ⟨p, c, e.symm.trans there, dir⟩
  · rcases merged.old p with e | ⟨other, hother, e⟩
    · have there' := (run_grows settings T job).directory (e.symm.trans there)
      rw [file] at there'
      cases there'
    · exact clear job hjob other (within other hother) ⟨p, c, file, e.symm.trans there⟩

include scene

/-- Two jobs that change one place change it alike. -/
theorem change_unique (clear : ∀ a ∈ jobs, ∀ b ∈ jobs, ¬ Obstructs settings T a b) (ha : a ∈ jobs)
    (hb : b ∈ jobs) {p : List String} (changed : (a.run settings T).1.find? p ≠ T.find? p)
    (changed' : (b.run settings T).1.find? p ≠ T.find? p) :
    (a.run settings T).1.find? p = (b.run settings T).1.find? p := by
  cases left : (a.run settings T).1.find? p with
  | none =>
    rw [left, (run_grows settings T a).free left] at changed
    exact absurd rfl changed
  | some e =>
    cases right : (b.run settings T).1.find? p with
    | none =>
      rw [right, (run_grows settings T b).free right] at changed'
      exact absurd rfl changed'
    | some e' =>
      cases e with
      | directory =>
        cases e' with
        | directory => rfl
        | file c => exact absurd ⟨p, c, right, left⟩ (clear b hb a ha)
      | file c =>
        cases e' with
        | directory => exact absurd ⟨p, c, left, right⟩ (clear a ha b hb)
        | file c' =>
          -- a changed file is an output, and no output is that of two jobs
          have at_a := (scene.file ha left).resolve_left fun e => changed (left.trans e.symm)
          have at_b := (scene.file hb right).resolve_left fun e => changed' (right.trans e.symm)
          rw [← left, ← right, scene.eq_of_below ha hb (at_a.symm.trans at_b)]

include merged within

/-- A file at the output of a job that is still to be done is as it was. -/
theorem output_kept (hjob : job ∈ jobs) (fresh : job ∉ done) {c : Content}
    (there : T.find? (target ++ job.output.below) = some (.file c)) :
    t.find? (target ++ job.output.below) = some (.file c) := by
  rcases merged.old (target ++ job.output.below) with e | ⟨other, hother, e⟩
  · exact e.trans there
  · obtain ⟨c', left⟩ := (run_grows settings T other).file there
    rcases scene.file (within other hother) left with same | same
    · rw [e, left, ← same, there]
    · obtain rfl := scene.eq_of_below hjob (within other hother) same
      exact absurd hother fresh

/-- The diagram of a job is as it was. -/
theorem diagram_kept {dirs : List String} {name : String} (listed : Listed T source dirs name) :
    t.find? (source ++ (dirs ++ [name])) = T.find? (source ++ (dirs ++ [name])) := by
  obtain ⟨e, found⟩ := listed.found
  rcases merged.old (source ++ (dirs ++ [name])) with same | ⟨other, hother, same⟩
  · exact same
  · obtain ⟨dirs', name', rfl, listed'⟩ := scene.listed other (within other hother)
    rw [same, found]
    rw [← List.append_assoc] at found ⊢
    exact run_keeps_diagram scene.site listed'.proper listed.named listed.last found

include clear

/-- **A job does in the merge what it does alone**, and leaves the merge with it. -/
theorem step (hjob : job ∈ jobs) (fresh : job ∉ done) :
    (job.run settings t).2 = (job.run settings T).2 ∧
      Merged settings T (done ++ [job]) (job.run settings t).1 := by
  have agrees := agrees clear merged within hjob
  have kept : ∀ {c}, T.find? (target ++ job.output.below) = some (.file c) →
      t.find? (target ++ job.output.below) = some (.file c) :=
    output_kept scene merged within hjob fresh
  obtain ⟨dirs, name, is, listed⟩ := scene.listed job hjob
  have carried : (job.run settings t).2 = (job.run settings T).2 ∧
      File.Tree.Carried T (job.run settings T).1 t (job.run settings t).1 := by
    subst is
    exact run_carried scene.site listed merged.grows (diagram_kept scene merged within listed)
      merged.sound agrees kept
  refine ⟨carried.1, run_sound settings t job merged.sound, fun p => ?_, fun other hother p h => ?_⟩
  · rw [carried.2 p]
    split
    · refine (merged.old p).imp_right ?_
      rintro ⟨other, hother, e⟩
      exact ⟨other, List.mem_append_left _ hother, e⟩
    · exact Or.inr ⟨job, List.mem_append_right _ List.mem_cons_self, rfl⟩
  · rw [carried.2 p]
    rcases List.mem_append.mp hother with hother | hother
    · split
      · exact merged.new other hother p h
      · rename_i changed
        exact change_unique scene clear hjob (within other hother) changed h
    · obtain rfl := List.mem_singleton.mp hother
      exact if_neg h

end Step

/-- **A run of jobs, in any order, does what each of them does alone**, and leaves the merge. -/
theorem run (scene : Scene T input output source target jobs)
    (clear : ∀ a ∈ jobs, ∀ b ∈ jobs, ¬ Obstructs settings T a b)
    (merged : Merged settings T done t) (within : ∀ job ∈ done, job ∈ jobs)
    (todo : ∀ job ∈ order, job ∈ jobs) (once : (done ++ order).Nodup) :
    (runJobs settings t order).2 = order.map (fun job => (job, (job.run settings T).2)) ∧
      Merged settings T (done ++ order) (runJobs settings t order).1 := by
  induction order generalizing done t with
  | nil =>
    rw [List.append_nil]
    exact ⟨rfl, merged⟩
  | cons job rest ih =>
    obtain ⟨hjob, hrest⟩ := List.forall_mem_cons.mp todo
    have fresh : job ∉ done := by
      intro again
      exact (List.nodup_append.mp once).2.2 job again job List.mem_cons_self rfl
    obtain ⟨result, next⟩ := step scene clear merged within hjob fresh
    have within' : ∀ other ∈ done ++ [job], other ∈ jobs := by
      intro other hother
      rcases List.mem_append.mp hother with hother | hother
      · exact within other hother
      · exact List.mem_singleton.mp hother ▸ hjob
    rw [List.append_cons] at once ⊢
    obtain ⟨results, last⟩ := ih next within' hrest once
    refine ⟨?_, last⟩
    show (job, (job.run settings t).2) :: (runJobs settings (job.run settings t).1 rest).2 = _
    rw [result, results]
    rfl

end Merged

/-! ## 3. Independence -/

theorem runJobs_grows [Graph.Formats] (settings : Settings) (t : Tree) (order : List Job) :
    t.Grows (runJobs settings t order).1 := by
  induction order generalizing t with
  | nil => exact .refl t
  | cons job rest ih => exact (run_grows settings t job).trans (ih _)

/-- **Jobs are independent**: whatever the order they are done in, they leave the same tree, each
    has the result that it has alone, as many fail, and each that succeeds leaves its program at its
    output. -/
structure Independent [Graph.Formats] (settings : Settings) (t : Tree) (jobs : List Job) :
    Prop where
  tree : ∀ {order order'}, order.Perm jobs → order'.Perm jobs → ∀ p,
    (runJobs settings t order).1.find? p = (runJobs settings t order').1.find? p
  results : ∀ {order}, order.Perm jobs →
    (runJobs settings t order).2 = order.map fun job => (job, (job.run settings t).2)
  failed : ∀ {order}, order.Perm jobs →
    failures (runJobs settings t order).2 = failures (runJobs settings t jobs).2
  written : ∀ {order}, order.Perm jobs → ∀ {job program}, job ∈ jobs →
    job.program settings t = .ok program → (job.run settings t).2 = none →
    (runJobs settings t order).1.readText job.output = .ok program

/-- Independent jobs do not obstruct each other: a job that is done first has its file or its
    directory. -/
theorem Independent.clear [Graph.Formats] (independent : Independent settings T jobs) :
    ∀ a ∈ jobs, ∀ b ∈ jobs, ¬ Obstructs settings T a b := by
  rintro a ha b hb ⟨p, c, file, directory⟩
  obtain ⟨c', left⟩ := (runJobs_grows settings (a.run settings T).1 (jobs.erase a)).file file
  have right := (runJobs_grows settings (b.run settings T).1 (jobs.erase b)).directory directory
  have same := independent.tree (List.perm_cons_erase ha).symm (List.perm_cons_erase hb).symm p
  have conflict : some (File.Entry.file c') = some .directory :=
    left.symm.trans (same.trans right)
  cases conflict

namespace Scene

variable [Graph.Formats] (scene : Scene T input output source target jobs)
include scene

/-- The output of a job that succeeds is in the merge. -/
theorem output_in_merge {program : String} (merged : Merged settings T done t)
    (within : ∀ job ∈ done, job ∈ jobs) (hdone : job ∈ done)
    (compiled : job.program settings T = .ok program) (h : (job.run settings T).2 = none) :
    t.readText job.output = .ok program := by
  obtain ⟨dirs, name, is, listed⟩ := scene.listed job (within job hdone)
  obtain ⟨file, walk⟩ := run_done scene.site listed.proper is compiled h
  have writable := ((run_succeeds_iff scene.site listed.proper is).mp h).2
  have found : t.find? (target ++ job.output.below) = some (.file (.text program)) := by
    by_cases changed : (job.run settings T).1.find? (target ++ job.output.below) =
        T.find? (target ++ job.output.below)
    · rcases merged.old (target ++ job.output.below) with e | ⟨other, hother, e⟩
      · rw [e, ← changed, file]
      · -- a file that was there is changed by the job whose output it is only
        obtain ⟨c, left⟩ := (run_grows settings T other).file (changed.symm.trans file)
        rcases scene.file (within other hother) left with same | same
        · rw [e, left, ← same, ← changed, file]
        · rw [e, ← scene.eq_of_below (within job hdone) (within other hother) same, file]
    · rw [merged.new job hdone _ changed, file]
  subst is
  have below : (jobOf input output (dirs ++ [name])).output =
      ⟨output, dirs ++ [File.withExtension "py" name]⟩ := by
    unfold jobOf
    rw [outputNames_concat]
  obtain ⟨accepted, named, -⟩ := writable
  rw [below] at accepted named found ⊢
  obtain ⟨short, down⟩ := named _ (List.getLast?_concat ..)
  have entered : t.enter [] (Path.steps ⟨output, []⟩ ++ dirs) = .ok (target ++ dirs) := by
    rw [File.Tree.enter_append, File.Tree.enter_of_grows merged.grows scene.site.writes,
      Outcome.ok_bind, File.Tree.enter_of_grows (merged.grows_run hdone) walk]
  rw [← List.append_assoc] at found
  exact File.Tree.readText_of_found accepted entered (stackName_ne_empty name)
    ((stackName_cases name).resolve_left down) (Nat.not_lt.mpr short) found

/-- **Jobs that do not obstruct each other are independent.** -/
theorem independent (clear : ∀ a ∈ jobs, ∀ b ∈ jobs, ¬ Obstructs settings T a b) :
    Independent settings T jobs := by
  have run : ∀ {order : List Job}, order.Perm jobs →
      (runJobs settings T order).2 = order.map (fun job => (job, (job.run settings T).2)) ∧
        Merged settings T order (runJobs settings T order).1 := by
    intro order perm
    exact Merged.run scene clear (.start scene.site.sound)
      (fun _ h => (List.not_mem_nil h).elim) (fun job h => perm.mem_iff.mp h)
      (perm.nodup_iff.mpr scene.nodup)
  refine ⟨fun {order order'} perm perm' => ?_, fun perm => (run perm).1, fun {order} perm => ?_,
    fun {order} perm {job program} hjob compiled h => ?_⟩
  · exact (run perm).2.find?_eq (run perm').2 fun job =>
      perm.mem_iff.trans perm'.mem_iff.symm
  · rw [(run perm).1, (run (.refl jobs)).1]
    unfold failures
    exact ((perm.map _).filter _).length_eq
  · exact scene.output_in_merge (run perm).2 (fun job h => perm.mem_iff.mp h)
      (perm.mem_iff.mpr hjob) compiled h

/-- A job obstructs another only if its output stands on the way to the other's. -/
theorem prefix_of_obstructs (ha : a ∈ jobs) (hb : b ∈ jobs) (h : Obstructs settings T a b) :
    a.output.below <+: b.output.below.dropLast := by
  obtain ⟨p, c, file, directory⟩ := h
  obtain ⟨dirs, name, rfl, listed⟩ := scene.listed b hb
  rcases scene.file ha file with before | here
  · obtain ⟨c', there⟩ := (run_grows settings T _).file before
    rw [directory] at there
    cases there
  · rcases run_directory scene.site listed.proper directory with before | ⟨outer, way, there⟩
    · have there := (run_grows settings T a).directory before
      rw [file] at there
      cases there
    · obtain rfl := List.append_cancel_left (here.symm.trans there)
      unfold jobOf
      rw [outputNames_concat, List.dropLast_concat]
      exact way

end Scene

/-- **The jobs of a batch are independent exactly if none obstructs another**, as when no output
    stands on the way to another. A job alone succeeds exactly if its diagram compiles and its output
    can be written, and a job that fails, in whatever tree, changes no file. The formats of settings
    and of diagrams are any. -/
theorem jobs_independent_iff [Settings.Formats] [Graph.Formats] {path : Option String} {made : Tree}
    (planned : Planned t input output path made settings jobs) :
    batch t input output path = runBatch made settings jobs ∧
      (Independent settings made jobs ↔ ∀ a ∈ jobs, ∀ b ∈ jobs, ¬ Obstructs settings made a b) ∧
      ((∀ a ∈ jobs, ∀ b ∈ jobs, ¬ a.output.below <+: b.output.below.dropLast) →
        Independent settings made jobs) ∧
      (∀ job ∈ jobs, (job.run settings made).2 = none ↔
        (∃ program, job.program settings made = .ok program) ∧ job.Writable made) ∧
      ∀ (job : Job) (t' : Tree), (job.run settings t').2 ≠ none → ∀ p c,
        (job.run settings t').1.find? p = some (.file c) ↔ t'.find? p = some (.file c) := by
  obtain ⟨source, target, scene⟩ := scene_of_planned planned
  refine ⟨batch_of_planned planned, ⟨Independent.clear, scene.independent⟩, fun apart => ?_,
    fun job hjob => ?_, fun job t' failed p c => ?_⟩
  · refine scene.independent fun a ha b hb obstructs => ?_
    exact apart a ha b hb (scene.prefix_of_obstructs ha hb obstructs)
  · obtain ⟨dirs, name, is, listed⟩ := scene.listed job hjob
    exact run_succeeds_iff scene.site listed.proper is
  · obtain ⟨e, failed⟩ := Option.ne_none_iff_exists'.mp failed
    exact (run_failed settings t' job failed).file_iff

/-- The text of a diagram with a name and nothing else. -/
def emptyShop : String := "\x7b\"name\":\"shop\"\x7d"

/-- Two diagrams, the second in a directory with a name. -/
def twoDiagrams (directory : String) : Tree where
  entries := [(["in"], .directory), (["in", "a.json"], .file (.text emptyShop)),
    (["in", directory], .directory), (["in", directory, "b.json"], .file (.text emptyShop))]

/-- The tree with a directory for their stacks. -/
def twoDiagramsOut (directory : String) : Tree := (twoDiagrams directory).put ["out"] .directory

/-- The jobs for the two diagrams. -/
def twoJobs (output directory : String) : List Job :=
  [jobOf "in" output ["a.json"], jobOf "in" output [directory, "b.json"]]

theorem twoJobs_planned : ∀ directory ∈ ["b", "a.py"],
    Planned (twoDiagrams directory) "in" "out" none (twoDiagramsOut directory) {}
      (twoJobs "out" directory) := by
  intro directory h
  have names : ∀ directory ∈ ["b", "a.py"],
      diagramNames (twoDiagrams directory) ["in"] = [["a.json"], [directory, "b.json"]] := by
    intro directory h
    unfold diagramNames File.Tree.filesBelow
    rw [List.mergeSort_of_pairwise (by revert directory; decide)]
    revert directory
    decide
  refine ⟨?_, ⟨["in"], ?_, ?_⟩, List.cons_ne_nil _ _, ?_, ?_, rfl⟩
  · revert directory
    decide
  · revert directory
    decide
  · rw [names directory h]
    rfl
  · revert directory
    decide
  · revert directory
    decide

theorem mirrored_jobs_independent :
    Planned (twoDiagrams "b") "in" "out" none (twoDiagramsOut "b") {} (twoJobs "out" "b") ∧
      Independent {} (twoDiagramsOut "b") (twoJobs "out" "b") :=
  have planned := twoJobs_planned "b" (by decide)
  ⟨planned, (jobs_independent_iff planned).2.2.1 (by decide)⟩

/-- **Planned jobs that are not independent.** Alone each of them succeeds, but together the first
    that is done keeps the other from succeeding; and where the stacks go beside the diagrams, the
    job for the first diagram fails in every order, though the diagram compiles. -/
theorem nested_outputs_interfere :
    (Planned (twoDiagrams "a.py") "in" "out" none (twoDiagramsOut "a.py") {}
        (twoJobs "out" "a.py") ∧
      (∀ job ∈ twoJobs "out" "a.py", (job.run {} (twoDiagramsOut "a.py")).2 = none) ∧
      (runJobs {} (twoDiagramsOut "a.py") (twoJobs "out" "a.py")).2.map Prod.snd =
        [none, some (.write .alreadyExists)] ∧
      (runJobs {} (twoDiagramsOut "a.py") (twoJobs "out" "a.py").reverse).2.map Prod.snd =
        [none, some (.write .isDirectory)]) ∧
    (∀ job ∈ twoJobs "in" "a.py", (job.program {} (twoDiagrams "a.py")).isOk = true) ∧
      ∀ order ∈ [twoJobs "in" "a.py", (twoJobs "in" "a.py").reverse],
        (jobOf "in" "in" ["a.json"], some (.write .isDirectory)) ∈
          (runJobs {} (twoDiagrams "a.py") order).2 :=
  ⟨⟨twoJobs_planned "a.py" (by decide), by decide +kernel, by decide +kernel, by decide +kernel⟩,
    by decide +kernel, by decide +kernel⟩

end InfraDiagram.Command
