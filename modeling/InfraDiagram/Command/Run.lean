import InfraDiagram.Command.Batch
import InfraDiagram.Command.Generate
import InfraDiagram.Command.Line

/-!
# Running a command line

The whole program as a function: from the words of a command line and a directory tree to a tree,
the two outputs and an exit code.
-/

namespace InfraDiagram.Command

/-- Does what is asked for. -/
def Request.run [Settings.Formats] [Graph.Formats] (t : File.Tree) : Request → Outcome
  | .generate input output report settings stackName =>
    Command.generate t input output report settings stackName
  | .validate input => Command.validate t input
  | .batch input output settings => Command.batch t input output settings

/-- The end of a run of the program. -/
structure Result where
  tree : File.Tree
  output : String := ""
  /-- What goes to the standard error. -/
  complaint : String := ""
  exitCode : ExitCode := .success
  deriving DecidableEq, Repr

/-- What the version is printed as; a command names itself too. -/
def versionLine : Option String → String
  | none => "hermes 0.1.0\n"
  | some command => "hermes-" ++ command ++ " 0.1.0\n"

/-- How the program is used. -/
def usage : String :=
  "Usage: hermes [-v] [--json] <COMMAND>\n\n" ++
  "  generate INPUT [-o FILE] [--report FILE] [-c FILE] [--stack-name NAME]\n" ++
  "  validate INPUT\n" ++
  "  batch INPUT_DIR -o DIR [-c FILE]\n"

/-- Runs a command line. -/
def execute [Settings.Formats] [Graph.Formats] (t : File.Tree) (words : List String) : Result :=
  match read words with
  | .version command => { tree := t, output := versionLine command }
  | .help => { tree := t, output := usage }
  | .misuse => { tree := t, complaint := usage, exitCode := .unusable }
  | .run r =>
    let o := r.run t
    { tree := o.tree, output := o.output, complaint := o.complaint, exitCode := o.exitCode }

end InfraDiagram.Command
