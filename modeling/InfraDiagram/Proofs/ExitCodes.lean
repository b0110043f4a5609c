import InfraDiagram.Command.Run
import InfraDiagram.Proofs.Compilation

/-!
# Exit codes

The exit code of a failure is found by walking along its chain of causes. Each stage of a
compilation can only fail with causes that ask for one exit code: loading and reading make the files
unusable, the check of the input refuses the diagram, and after the check only properties and ports
are left that can go wrong (`generateNamed_stages`). So the exit code tells the stage.

Checking a diagram on its own and compiling it with the default settings refuse the same diagrams.
Nothing here looks into a file: the formats of settings and of diagrams are any.
-/

namespace InfraDiagram.Command

open Stack (Admitted Uncontained generateNamed)

/-! ## 1. What is given -/

/-- **The settings that a command is given**: those of a file that can be read, is in its format and
    is valid, or the defaults. -/
def Loads [Settings.Formats] (t : File.Tree) (s : Settings) : Option String → Prop
  | none => s = {}
  | some path => ∃ text, t.readText ⟨path, []⟩ = .ok text ∧
      Settings.Formats.parse ⟨path, []⟩ text = .ok s ∧ s.validate = .ok ()

/-- **The settings and the diagram that a command is given.** -/
structure Given [Settings.Formats] [Graph.Formats] (t : File.Tree) (input : String)
    (settings : Option String) (s : Settings) (g : Graph) : Prop where
  loads : Loads t s settings
  reads : Graph.ofFile t ⟨input, []⟩ = .ok g

theorem loadSettings_eq_ok_iff [Settings.Formats] {t : File.Tree} {s : Settings}
    {settings : Option String} : loadSettings t settings = .ok s ↔ Loads t s settings := by
  cases settings with
  | none => exact ⟨fun h => (Except.ok.inj h).symm, fun h => congrArg Except.ok h.symm⟩
  | some path =>
    rw [loadSettings, Outcome.mapError_eq_ok, Settings.load, Outcome.bind_eq_ok]
    simp only [Outcome.bind_eq_ok, Outcome.mapError_eq_ok, Loads]
    constructor
    · rintro ⟨text, read, s', parsed, ⟨⟩, valid, e⟩
      cases e
      exact ⟨text, read, parsed, valid⟩
    · rintro ⟨text, read, parsed, valid⟩
      exact ⟨text, read, s, parsed, (), valid, rfl⟩

theorem Loads.usable [Settings.Formats] {t : File.Tree} {s : Settings} :
    ∀ {settings : Option String}, Loads t s settings → s.validate = .ok ()
  | none, h => by
      cases h
      decide
  | some _, h => by
      obtain ⟨_, -, -, valid⟩ := h
      exact valid

/-! ## 2. Stages of a compilation -/

/-- A proper name of a stack. -/
def ProperName (name : String) : Prop :=
  name ≠ "" ∧ ∀ c ∈ name.toList, c.isAlphanum = true ∨ c = '_' ∨ c = '-'

/-- **A diagram that is refused**: the name is not proper, the structure has a problem, or a server
    or database has no network and none may be made for it. -/
def Refused (s : Settings) (g : Graph) (name : String) : Prop :=
  ¬ ProperName name ∨ g.checkStructure.problems ≠ [] ∨
    s.implicitVpc = false ∧ ∃ n ∈ g.nodes, Uncontained g n

/-- **Content that does not compile**: properties of some node, or the ports of some edge that lets
    traffic through. -/
def Uncompilable (s : Settings) (g : Graph) : Prop :=
  (∃ n ∈ g.nodes, ¬ n.WellTyped) ∨ ∃ e ∈ g.accessEdges, ¬ Access.Resolvable s.services g e

section Stages

variable {s : Settings} {g : Graph} {name : String}

theorem not_refused_iff (usable : s.validate = .ok ()) :
    ¬ Refused s g name ↔ Admitted s g name := by
  unfold Refused
  rw [not_or, not_or, not_not, not_not, not_and]
  constructor
  · rintro ⟨named, structured, placed⟩
    refine ⟨usable, named, structured, ?_⟩
    by_cases implicit : s.implicitVpc = true
    · exact Or.inl implicit
    · refine Or.inr fun n hn compute => ?_
      by_contra alone
      exact placed (by simpa using implicit) ⟨n, hn, compute, fun v hv => alone ⟨v, hv⟩⟩
  · rintro ⟨-, named, structured, placed⟩
    refine ⟨named, structured, fun explicit => ?_⟩
    rintro ⟨n, hn, compute, alone⟩
    rcases placed with implicit | placed
    · rw [explicit] at implicit
      cases implicit
    · obtain ⟨v, hv⟩ := placed n hn compute
      exact alone v hv

/-- With usable settings the check of the input blames the diagram. -/
theorem checkInput_problem (usable : s.validate = .ok ()) {error : CompileError}
    (h : Stack.checkInput s g name = .error error) : ∃ p, error = .problem p := by
  rw [Stack.checkInput, usable] at h
  have h : ((g.checkNamed name).toExcept.mapError CompileError.problem >>= fun _ =>
    Stack.checkPlacement s g) = .error error := h
  cases named : (g.checkNamed name).toExcept with
  | error p =>
    rw [named] at h
    exact ⟨p, (Except.error.inj h).symm⟩
  | ok _ =>
    rw [named] at h
    have h : Stack.checkPlacement s g = .error error := h
    unfold Stack.checkPlacement at h
    split at h
    · cases h
    · split at h
      · exact ⟨_, (Except.error.inj h).symm⟩
      · cases h

theorem generateNamed_of_refused (usable : s.validate = .ok ()) (refused : Refused s g name) :
    ∃ p, generateNamed s g name = .error (.problem p) := by
  have notAdmitted : ¬ Admitted s g name := fun h => (not_refused_iff usable).mpr h refused
  cases checked : Stack.checkInput s g name with
  | ok _ => exact absurd (Stack.checkInput_eq_ok_iff.mp checked) notAdmitted
  | error error =>
    obtain ⟨p, rfl⟩ := checkInput_problem usable checked
    refine ⟨p, Stack.generateNamed_error_of_parts ?_⟩
    rw [Stack.parts, checked]
    rfl

/-- **What each stage of a compilation can do**: refuse the diagram, fail on its content, or
    succeed. -/
theorem generateNamed_stages (usable : s.validate = .ok ()) (g : Graph) (name : String) :
    (Refused s g name ∧ ∃ p, generateNamed s g name = .error (.problem p)) ∨
    (¬ Refused s g name ∧ Uncompilable s g ∧
      ((∃ id reason, generateNamed s g name = .error (.unsupported id reason)) ∨
        ∃ id reason, generateNamed s g name = .error (.unresolvable id reason))) ∨
    (¬ Refused s g name ∧ ¬ Uncompilable s g ∧ ∃ stack, generateNamed s g name = .ok stack) := by
  by_cases refused : Refused s g name
  · exact Or.inl ⟨refused, generateNamed_of_refused usable refused⟩
  -- The input is admitted, so only properties and ports can go wrong.
  obtain ⟨order, -, arranged, outcome⟩ := Stack.parts_outcome ((not_refused_iff usable).mp refused)
  rcases outcome with ⟨p, hp, compiled⟩ | ⟨n, reason, first, hp⟩ | ⟨-, e, reason, first, hp⟩
  · refine Or.inr (Or.inr ⟨refused, ?_, _, Stack.generateNamed_eq_ok_iff.mpr ⟨p, hp, rfl⟩⟩)
    rintro (⟨n, hn, untyped⟩ | ⟨e, he, unresolvable⟩)
    · exact untyped (compiled.typed n hn)
    · exact unresolvable (compiled.resolvable e he)
  · exact Or.inr (Or.inl ⟨refused, Or.inl ⟨n, arranged.perm.mem_iff.mp first.mem, first.fails⟩,
      Or.inl ⟨n.id, reason, Stack.generateNamed_error_of_parts hp⟩⟩)
  · exact Or.inr (Or.inl ⟨refused, Or.inr ⟨e, first.mem, first.fails⟩,
      Or.inr ⟨e.id, reason, Stack.generateNamed_error_of_parts hp⟩⟩)

end Stages

/-! ## 3. Writing a stack -/

/-- A text written to a file, if one is named. -/
def writeTo (t : File.Tree) (text : String) : Option String → Except File.Fault File.Tree
  | none => .ok t
  | some path => t.writeText ⟨path, []⟩ text

/-- **A stack that can be written**: its program, and then its report. -/
def Writable (t : File.Tree) (output report : Option String) (stack : Stack) : Prop :=
  ∃ t₁ t₂, writeTo t stack.source output = .ok t₁ ∧ writeTo t₁ stack.report report = .ok t₂

section Writing

variable {t : File.Tree} {output report : Option String}

theorem deliver_of_written {stack : Stack} {t₁ : File.Tree}
    (h : writeTo t stack.source output = .ok t₁) :
    (deliver t stack output).failure = none ∧ (deliver t stack output).tree = t₁ := by
  cases output with
  | none => exact ⟨rfl, Except.ok.inj h⟩
  | some path =>
    have h : t.writeText ⟨path, []⟩ stack.source = .ok t₁ := h
    rw [deliver, h]
    exact ⟨rfl, rfl⟩

theorem addReport_of_written {o : Outcome} {stack : Stack} {t₂ : File.Tree}
    (clear : o.failure = none) (h : writeTo o.tree stack.report report = .ok t₂) :
    (addReport o stack report).failure = none := by
  cases report with
  | none => exact clear
  | some path =>
    have h : o.tree.writeText ⟨path, []⟩ stack.report = .ok t₂ := h
    rw [addReport, if_neg (by simp [clear]), h]
    exact clear

end Writing

/-! ## 4. Exit codes of a compilation -/

section Compilation

variable [Settings.Formats] [Graph.Formats] {t : File.Tree} {input : String}
  {output report settings stackName : Option String}

/-- What is given decides the compilation of a file. -/
theorem compileFile_of_given {s : Settings} {g : Graph} (given : Given t input settings s g)
    (stackName : Option String) :
    compileFile t input settings stackName =
      (generateNamed s g (stackName.getD g.name)).mapError (.compile input) := by
  rw [compileFile, loadSettings_eq_ok_iff.mpr given.loads, Outcome.ok_bind, readDiagram,
    given.reads]
  rfl

/-- Without settings and a diagram a compilation fails on its files. -/
theorem compileFile_of_not_given (none : ¬ ∃ s g, Given t input settings s g)
    (stackName : Option String) :
    ∃ f, compileFile t input settings stackName = .error f ∧ f.exitCode = .unusable := by
  rw [compileFile]
  cases loaded : loadSettings t settings with
  | error f =>
    refine ⟨f, rfl, ?_⟩
    cases settings with
    | none => cases loaded
    | some path =>
      rw [loadSettings] at loaded
      cases file : Settings.load t ⟨path, []⟩ with
      | ok s =>
        rw [file] at loaded
        cases loaded
      | error e =>
        rw [file] at loaded
        cases loaded
        rfl
  | ok s =>
    rw [Outcome.ok_bind, readDiagram]
    cases file : Graph.ofFile t ⟨input, []⟩ with
    | ok g => exact absurd ⟨s, g, loadSettings_eq_ok_iff.mp loaded, file⟩ none
    | error e => exact ⟨.read input e, rfl, rfl⟩

theorem exitCode_of_error {f : Failure} (h : compileFile t input settings stackName = .error f) :
    (generate t input output report settings stackName).exitCode = f.exitCode := by
  rw [generate, h]
  rfl

/-- If there is a stack and it can be written, nothing fails. -/
theorem exitCode_of_written {stack : Stack}
    (h : compileFile t input settings stackName = .ok stack)
    (written : Writable t output report stack) :
    (generate t input output report settings stackName).exitCode = .success := by
  obtain ⟨t₁, t₂, program, summary⟩ := written
  obtain ⟨clear, tree⟩ := deliver_of_written program
  rw [← tree] at summary
  rw [generate, h]
  show (addReport (deliver t stack output) stack report).exitCode = .success
  rw [Outcome.exitCode, addReport_of_written clear summary]

/-- Once there is a stack, at worst it cannot be written. -/
theorem exitCode_of_stack {stack : Stack}
    (h : compileFile t input settings stackName = .ok stack) :
    (generate t input output report settings stackName).exitCode ≠ .invalidDiagram := by
  have delivered : (deliver t stack output).exitCode ≠ .invalidDiagram := by
    unfold deliver
    split
    · exact (by decide : ExitCode.success ≠ .invalidDiagram)
    · split
      · exact (by decide : ExitCode.success ≠ .invalidDiagram)
      · exact (by decide : ExitCode.unusable ≠ .invalidDiagram)
  rw [generate, h]
  show (addReport (deliver t stack output) stack report).exitCode ≠ .invalidDiagram
  unfold addReport
  split
  · exact delivered
  · split
    · exact delivered
    · split
      · exact delivered
      · exact (by decide : ExitCode.unusable ≠ .invalidDiagram)

/-- **Each stage fails with one exit code.** -/
theorem compileFile_stages {s : Settings} {g : Graph} (given : Given t input settings s g)
    (stackName : Option String) :
    (Refused s g (stackName.getD g.name) ∧
      ∃ f, compileFile t input settings stackName = .error f ∧ f.exitCode = .invalidDiagram) ∨
    (¬ Refused s g (stackName.getD g.name) ∧ Uncompilable s g ∧
      ∃ f, compileFile t input settings stackName = .error f ∧ f.exitCode = .notCompiled) ∨
    (¬ Refused s g (stackName.getD g.name) ∧ ¬ Uncompilable s g ∧
      ∃ stack, compileFile t input settings stackName = .ok stack) := by
  rw [compileFile_of_given given stackName]
  rcases generateNamed_stages given.loads.usable g (stackName.getD g.name) with
    ⟨refused, p, failed⟩ | ⟨passed, uncompilable, failed⟩ | ⟨passed, compilable, stack, done⟩
  · rw [failed]
    exact Or.inl ⟨refused, _, rfl, rfl⟩
  · refine Or.inr (Or.inl ⟨passed, uncompilable, ?_⟩)
    rcases failed with ⟨id, reason, failed⟩ | ⟨id, reason, failed⟩
    · rw [failed]
      exact ⟨_, rfl, rfl⟩
    · rw [failed]
      exact ⟨_, rfl, rfl⟩
  · rw [done]
    exact Or.inr (Or.inr ⟨passed, compilable, stack, rfl⟩)

/-- **The exit code tells the stage**, if what is compiled can be written. -/
theorem exitCode_stages {s : Settings} {g : Graph} (given : Given t input settings s g)
    (written : ∀ stack, compileFile t input settings stackName = .ok stack →
      Writable t output report stack) :
    (Refused s g (stackName.getD g.name) ∧
      (generate t input output report settings stackName).exitCode = .invalidDiagram) ∨
    (¬ Refused s g (stackName.getD g.name) ∧ Uncompilable s g ∧
      (generate t input output report settings stackName).exitCode = .notCompiled) ∨
    (¬ Refused s g (stackName.getD g.name) ∧ ¬ Uncompilable s g ∧
      (generate t input output report settings stackName).exitCode = .success) := by
  rcases compileFile_stages given stackName with
    ⟨refused, f, failed, code⟩ | ⟨passed, content, f, failed, code⟩ | ⟨passed, content, stack, done⟩
  · exact Or.inl ⟨refused, (exitCode_of_error failed).trans code⟩
  · exact Or.inr (Or.inl ⟨passed, content, (exitCode_of_error failed).trans code⟩)
  · exact Or.inr (Or.inr ⟨passed, content, exitCode_of_written done (written stack done)⟩)

/-- Compiling exits as refused exactly on refused diagrams, whether or not files can be written. -/
theorem exitCode_eq_invalidDiagram_iff {s : Settings} {g : Graph}
    (given : Given t input settings s g) :
    (generate t input output report settings stackName).exitCode = .invalidDiagram ↔
      Refused s g (stackName.getD g.name) := by
  rcases compileFile_stages given stackName with
    ⟨refused, f, failed, code⟩ | ⟨passed, -, f, failed, code⟩ | ⟨passed, -, stack, done⟩
  · exact iff_of_true ((exitCode_of_error failed).trans code) refused
  · rw [exitCode_of_error failed, code]
    exact iff_of_false (by decide) passed
  · exact iff_of_false (exitCode_of_stack done) passed

end Compilation

/-! ## 5. Checking and compiling -/

theorem validate_exitCode [Graph.Formats] {t : File.Tree} {input : String} {g : Graph}
    (read : Graph.ofFile t ⟨input, []⟩ = .ok g) :
    (validate t input).exitCode = .success ↔ g.check.problems = [] := by
  have diagram : readDiagram t input = .ok g := by
    rw [readDiagram, read]
    rfl
  have outcome : (validate t input).failure =
      g.check.problems.head?.map fun p => .invalid input p := by
    delta validate
    rw [diagram]
  rw [Outcome.exitCode, outcome]
  cases g.check.problems with
  | nil => exact iff_of_true rfl rfl
  | cons p ps => exact iff_of_false (by decide : ExitCode.invalidDiagram ≠ .success) (by simp)

/-- The default settings refuse what the check of a diagram finds a problem in. -/
theorem refused_default_iff {g : Graph} : Refused {} g g.name ↔ g.check.problems ≠ [] := by
  have problems : g.check.problems =
      Graph.stackNameProblems g.name ++ g.checkStructure.problems := rfl
  rw [problems, ne_eq, List.append_eq_nil_iff, Stack.stackNameProblems_eq_nil_iff, not_and_or]
  refine or_congr_right ⟨fun h => h.resolve_right ?_, Or.inl⟩
  rintro ⟨explicit, -⟩
  cases explicit

/-! ## 6. The exit codes -/

theorem number_inj (a b : ExitCode) : a.number = b.number ↔ a = b := by
  cases a <;> cases b <;> decide

/-- The number with which compiling a diagram exits. -/
def generateCode [Settings.Formats] [Graph.Formats] (t : File.Tree) (input : String)
    (output report settings stackName : Option String) : UInt32 :=
  ((Request.generate input output report settings stackName).run t).exitCode.number

/-- The number with which checking a diagram exits. -/
def validateCode [Settings.Formats] [Graph.Formats] (t : File.Tree) (input : String) : UInt32 :=
  ((Request.validate input).run t).exitCode.number

/-- **Exit codes tell the outcomes apart**, in any formats. If what is compiled can be written,
    compiling exits with 2 exactly if there are no usable settings or no readable diagram; otherwise
    with 3 exactly if the diagram is refused; otherwise with 4 if its content does not compile, and
    else with 0. Checking a readable diagram exits with 0 exactly if compiling it with the default
    settings and under its own name does not exit with 3. -/
theorem exit_codes_partition [Settings.Formats] [Graph.Formats] (t : File.Tree) (input : String) :
    (∀ output report settings stackName,
      (∀ stack, compileFile t input settings stackName = .ok stack →
        Writable t output report stack) →
      (generateCode t input output report settings stackName = 2 ↔
        ¬ ∃ s g, Given t input settings s g) ∧
      ∀ s g, Given t input settings s g →
        (generateCode t input output report settings stackName = 3 ↔
          Refused s g (stackName.getD g.name)) ∧
        (¬ Refused s g (stackName.getD g.name) →
          (generateCode t input output report settings stackName = 4 ↔ Uncompilable s g) ∧
          (generateCode t input output report settings stackName = 0 ↔ ¬ Uncompilable s g))) ∧
    ∀ g output report, Graph.ofFile t ⟨input, []⟩ = .ok g →
      (validateCode t input = 0 ↔ generateCode t input output report none none ≠ 3) := by
  constructor
  · intro output report settings stackName written
    rw [show generateCode t input output report settings stackName =
      (generate t input output report settings stackName).exitCode.number from rfl]
    refine ⟨?_, fun s g given => ?_⟩
    · by_cases present : ∃ s g, Given t input settings s g
      · obtain ⟨s, g, given⟩ := present
        refine iff_of_false ?_ (not_not_intro ⟨s, g, given⟩)
        rcases exitCode_stages given written with ⟨-, code⟩ | ⟨-, -, code⟩ | ⟨-, -, code⟩
        all_goals
          rw [code]
          decide
      · obtain ⟨f, failed, code⟩ := compileFile_of_not_given present stackName
        rw [exitCode_of_error failed, code]
        exact iff_of_true rfl present
    · rcases exitCode_stages given written with
        ⟨refused, code⟩ | ⟨passed, uncompilable, code⟩ | ⟨passed, compilable, code⟩
      · rw [code]
        exact ⟨iff_of_true rfl refused, fun passed => absurd refused passed⟩
      · rw [code]
        exact ⟨iff_of_false (by decide) passed, fun _ => ⟨iff_of_true rfl uncompilable,
          iff_of_false (by decide) (not_not_intro uncompilable)⟩⟩
      · rw [code]
        exact ⟨iff_of_false (by decide) passed, fun _ => ⟨iff_of_false (by decide) compilable,
          iff_of_true rfl compilable⟩⟩
  · intro g output report read
    have given : Given t input none {} g := ⟨rfl, read⟩
    have checked : validateCode t input = 0 ↔ g.check.problems = [] :=
      (number_inj _ .success).trans (validate_exitCode read)
    have compiled : generateCode t input output report none none = 3 ↔ Refused {} g g.name :=
      (number_inj _ .invalidDiagram).trans (exitCode_eq_invalidDiagram_iff given)
    rw [checked, ne_eq, compiled, refused_default_iff, not_not]

/-- A directory with a diagram of one node, without properties. -/
def deskWith (kind : String) : File.Tree where
  entries := [(["shop.json"], .file (.text ("\x7b\"name\":\"shop\",\"nodes\":[\x7b\"id\":\"a\"," ++
    "\"kind\":\"" ++ kind ++ "\",\"name\":\"a\"\x7d],\"edges\":[]\x7d")))]

theorem deskWith_writable (kind : String) (stack : Stack) :
    Writable (deskWith kind) (some "shop.py") none stack := by
  have program : writeTo (deskWith kind) stack.source (some "shop.py") =
    .ok ((deskWith kind).put ["shop.py"] (.file (.text stack.source))) := rfl
  exact ⟨_, _, program, rfl⟩

/-- A bucket compiles; a database without an engine is readable and not refused, but its content
    does not compile. -/
theorem deskWith_stages :
    (∃ s g, Given (deskWith "bucket") "shop.json" none s g ∧ ¬ Refused s g g.name ∧
      ¬ Uncompilable s g) ∧
    ∃ s g, Given (deskWith "database") "shop.json" none s g ∧ ¬ Refused s g g.name ∧
      Uncompilable s g := by
  have stages : ∀ kind code, code ≠ 2 → code ≠ 3 →
      generateCode (deskWith kind) "shop.json" (some "shop.py") none none none = code →
      ∃ s g, Given (deskWith kind) "shop.json" none s g ∧ ¬ Refused s g g.name ∧
        (code = 4 ↔ Uncompilable s g) ∧ (code = 0 ↔ ¬ Uncompilable s g) := by
    rintro kind _ usable passed rfl
    obtain ⟨two, given⟩ := (exit_codes_partition (deskWith kind) "shop.json").1 (some "shop.py")
      none none none fun stack _ => deskWith_writable kind stack
    obtain ⟨s, g, present⟩ := not_not.mp (mt two.mpr usable)
    obtain ⟨three, others⟩ := given s g present
    exact ⟨s, g, present, mt three.mpr passed, others (mt three.mpr passed)⟩
  constructor
  · obtain ⟨s, g, given, passed, -, zero⟩ :=
      stages "bucket" 0 (by decide) (by decide) (by decide +kernel)
    exact ⟨s, g, given, passed, zero.mp rfl⟩
  · obtain ⟨s, g, given, passed, four, -⟩ :=
      stages "database" 4 (by decide) (by decide) (by decide +kernel)
    exact ⟨s, g, given, passed, four.mp rfl⟩

end InfraDiagram.Command
