import InfraDiagram.Command.Outcome
import InfraDiagram.Command.Validate
import InfraDiagram.Stack.Generate

/-!
# Compiling a directory of diagrams

Every diagram file below the input directory is compiled to a file of the same name, with the
extension `py`, at the same place below the output directory. A diagram that fails does not keep the
others from being compiled; two diagrams for one output do.
-/

namespace InfraDiagram.Command

/-! ## 1. The plan -/

/-- A diagram file and the file its stack goes to. -/
structure Job where
  input : File.Path
  output : File.Path
  deriving DecidableEq, Repr

/-- The names of the diagram files below a directory, in their order. -/
def diagramNames (t : File.Tree) (directory : List String) : List (List String) :=
  (t.filesBelow directory).filter fun names => Graph.isGraphFile ⟨"", names⟩

/-- Names with the extension of the last one changed. -/
def outputNames (names : List String) : List String :=
  names.dropLast ++ (names.getLast?.map (File.withExtension "py")).toList

/-- The job for a diagram file below the input directory. -/
def jobOf (input output : String) (names : List String) : Job :=
  ⟨⟨input, names⟩, ⟨output, outputNames names⟩⟩

/-- Refuses jobs that share an output; `earlier` are those planned before. -/
def checkShared : (earlier : List Job) → List Job → Except Failure Unit
  | _, [] => .ok ()
  | earlier, job :: rest =>
    match earlier.find? fun j => j.output == job.output with
    | some j => .error (.sharedOutput j.input.text job.input.text job.output.text)
    | none => checkShared (job :: earlier) rest

/-- The jobs for diagrams with some names below the input directory, if no two share an output. -/
def plan (input output : String) (names : List (List String)) : Except Failure (List Job) := do
  let jobs := names.map (jobOf input output)
  checkShared [] jobs
  .ok jobs

/-! ## 2. The jobs -/

/-- Why a job fails. -/
inductive JobError where
  | read (e : Graph.ReadError)
  | compile (e : CompileError)
  | write (f : File.Fault)
  deriving DecidableEq, Repr

/-- The cause of an error. -/
def JobError.cause : JobError → Cause
  | .read e => .read e
  | .compile e => .compile e
  | .write f => .file f

/-- The wording of an error and of what is behind it. -/
def JobError.message (e : JobError) : String := Cause.wording e.cause.chain

/-- The program that the diagram of a job compiles to. -/
def Job.program [Graph.Formats] (settings : Settings) (t : File.Tree) (job : Job) :
    Except JobError String := do
  let g ← (Graph.ofFile t job.input).mapError .read
  let stack ← (Stack.generate settings g).mapError .compile
  .ok stack.source

/-- Writes the output of a job, in directories that are made for it. Directories that were made stay,
    also if the output cannot be written. -/
def Job.deliver (t : File.Tree) (job : Job) (source : String) : File.Tree × Option File.Fault :=
  match t.makeDirectories job.output.parent with
  | (made, none) => made.after (made.writeText job.output source)
  | stopped => stopped

/-- Does a job. Gives the tree it leaves, and its error, if it failed. -/
def Job.run [Graph.Formats] (settings : Settings) (t : File.Tree) (job : Job) :
    File.Tree × Option JobError :=
  match job.program settings t with
  | .ok source => (job.deliver t source).map id (Option.map .write)
  | .error e => (t, some e)

/-- The line that is printed of a job. -/
def Job.line (job : Job) : Option JobError → String
  | none => "✅ " ++ job.input.text ++ " → " ++ job.output.text
  | some e => "❌ " ++ job.input.text ++ ": " ++ e.message

/-- Does jobs in turn. Gives the tree, and for each job its error, if it failed. -/
def runJobs [Graph.Formats] (settings : Settings) :
    File.Tree → List Job → File.Tree × List (Job × Option JobError)
  | t, [] => (t, [])
  | t, job :: rest =>
    let done := job.run settings t
    let others := runJobs settings done.1 rest
    (others.1, (job, done.2) :: others.2)

/-! ## 3. The command -/

/-- The number of jobs that failed. -/
def failures (results : List (Job × Option JobError)) : Nat :=
  (results.filter fun r => r.2.isSome).length

/-- What a batch says of its jobs. -/
def batchLines (results : List (Job × Option JobError)) : List String :=
  let failed := failures results
  ["🏗️  Generating " ++ toString results.length ++ " stack(s)...", ""]
    ++ results.map (fun r => r.1.line r.2)
    ++ ["", "📊 " ++ toString (results.length - failed) ++ " passed, " ++ toString failed
      ++ " failed"]

/-- Does the jobs of a batch. -/
def runBatch [Graph.Formats] (t : File.Tree) (settings : Settings) (jobs : List Job) : Outcome :=
  let (t, results) := runJobs settings t jobs
  let failed := failures results
  { tree := t
    output := unlines (batchLines results)
    failure := if failed = 0 then none else some (.incomplete failed results.length) }

/-- Compiles every diagram below a directory. The output directory is made before the jobs are
    planned and the settings loaded. -/
def batch [Settings.Formats] [Graph.Formats] (t : File.Tree) (input output : String)
    (settings : Option String) : Outcome :=
  match t.directory? ⟨input, []⟩ with
  | none => { tree := t, failure := some (.noDirectory input) }
  | some directory =>
    match diagramNames t directory with
    | [] => { tree := t, output := "⚠️  No diagrams found in " ++ input ++ "\n" }
    | names =>
      match t.makeDirectories ⟨output, []⟩ with
      | (made, some f) => { tree := made, failure := some (.makeDirectory output f) }
      | (made, none) =>
        match (do .ok (← plan input output names, ← loadSettings made settings)) with
        | .error f => { tree := made, failure := some f }
        | .ok (jobs, settings) => runBatch made settings jobs

end InfraDiagram.Command
