import InfraDiagram.Graph.Reader
import InfraDiagram.Settings.File
import InfraDiagram.Stack.Error

/-!
# Outcomes of commands

A run leaves a directory tree and an output, and it may fail. A failure is said as a chain: what was
attempted, why it failed, and what is behind that. Its exit code tells who has to act: the caller
(unusable files or arguments), the one who drew the diagram (its structure), or both (content that
does not compile).
-/

namespace InfraDiagram.Command

/-! ## 1. Exit codes -/

/-- How a run ends. -/
inductive ExitCode where
  | success
  | general
  | unusable
  | invalidDiagram
  | notCompiled
  deriving DecidableEq, Repr

/-- The number of an exit code. -/
def ExitCode.number : ExitCode → UInt32
  | .success => 0
  | .general => 1
  | .unusable => 2
  | .invalidDiagram => 3
  | .notCompiled => 4

/-! ## 2. Causes -/

/-- A link of the chain that leads from what was attempted to what is behind its failure. -/
inductive Cause where
  /-- What was attempted. -/
  | attempt (text : String)
  | read (e : Graph.ReadError)
  | problem (p : Problem)
  | compile (e : CompileError)
  | settings (e : Settings.LoadError)
  | file (f : File.Fault)
  /-- Anything of which only the wording is known. -/
  | other (text : String)
  deriving DecidableEq, Repr

namespace Cause

/-- The wording of a cause. -/
def message : Cause → String
  | .attempt text => text
  | .read e => e.message
  | .problem p => p.message
  | .compile e => e.message
  | .settings e => e.message
  | .file f => f.message
  | .other text => text

/-- What is behind a cause. -/
def behind? : Cause → Option Cause
  | .read (.file f) => some (.file f)
  | .read (.json f line) => some (.other (f.message ++ " at line " ++ toString line))
  | .read (.data e) => some (.other e.message)
  | .compile (.problem p) => some (.problem p)
  | .settings (.file f) => some (.file f)
  | _ => none

/-- A cause and what is behind it. -/
def chain (c : Cause) : List Cause := c :: c.behind?.toList

/-- The exit code that a cause asks for, if it is of a kind that is told apart. -/
def exitCode? : Cause → Option ExitCode
  | .attempt _ => none
  | .read _ => some .unusable
  | .problem _ => some .invalidDiagram
  | .compile (.problem _) => some .invalidDiagram
  | .compile (.cycle _) => some .invalidDiagram
  | .compile (.settings _) => some .unusable
  | .compile _ => some .notCompiled
  | .settings _ => some .unusable
  | .file _ => some .unusable
  | .other _ => none

/-- The wording of a chain of causes. -/
def wording (causes : List Cause) : String := Value.joinWith ": " (causes.map message)

end Cause

/-! ## 3. Failures -/

/-- Why a command fails. -/
inductive Failure where
  | settings (path : String) (e : Settings.LoadError)
  | read (path : String) (e : Graph.ReadError)
  | compile (path : String) (e : CompileError)
  | writeStack (path : String) (f : File.Fault)
  | writeReport (path : String) (f : File.Fault)
  | invalid (path : String) (p : Problem)
  | noDirectory (path : String)
  | makeDirectory (path : String) (f : File.Fault)
  | sharedOutput (first second output : String)
  | incomplete (failed total : Nat)
  deriving DecidableEq, Repr

namespace Failure

/-- From what was attempted to what is behind its failure. -/
def chain : Failure → List Cause
  | .settings path e =>
    .attempt ("Failed to load configuration from " ++ path) :: (Cause.settings e).chain
  | .read path e => .attempt ("Failed to read diagram " ++ path) :: (Cause.read e).chain
  | .compile path e =>
    .attempt ("Failed to generate stack from " ++ path) :: (Cause.compile e).chain
  | .writeStack path f => [.attempt ("Failed to write stack to " ++ path), .file f]
  | .writeReport path f => [.attempt ("Failed to write report to " ++ path), .file f]
  | .invalid path p => [.attempt ("Diagram " ++ path ++ " failed validation"), .problem p]
  | .noDirectory path => [.other ("Input directory not found: " ++ path)]
  | .makeDirectory path f => [.attempt ("Failed to create " ++ path), .file f]
  | .sharedOutput first second output =>
    [.other (first ++ " and " ++ second ++ " would both be written to " ++ output)]
  | .incomplete failed total =>
    [.other (toString failed ++ " of " ++ toString total ++ " diagram(s) failed")]

/-- The wording of a failure. -/
def message (f : Failure) : String := Cause.wording f.chain

/-- The exit code of a failure: that of the first cause that asks for one. -/
def exitCode (f : Failure) : ExitCode := (f.chain.findSome? Cause.exitCode?).getD .general

end Failure

/-! ## 4. Outcomes -/

/-- What a command leaves. -/
structure Outcome where
  tree : File.Tree
  output : String := ""
  failure : Option Failure := none
  deriving DecidableEq, Repr

namespace Outcome

/-- The exit code of a run. -/
def exitCode (o : Outcome) : ExitCode :=
  match o.failure with
  | some f => f.exitCode
  | none => .success

/-- What a run says about its failure. -/
def complaint (o : Outcome) : String :=
  match o.failure with
  | some f => "❌ Error: " ++ f.message ++ "\n"
  | none => ""

end Outcome

/-- The settings of a command: those of a file, or the defaults. -/
def loadSettings [Settings.Formats] (t : File.Tree) : Option String → Except Failure Settings
  | some path => (Settings.load t ⟨path, []⟩).mapError (.settings path)
  | none => .ok {}

/-- A diagram that a command is given. -/
def readDiagram [Graph.Formats] (t : File.Tree) (path : String) : Except Failure Graph :=
  (Graph.ofFile t ⟨path, []⟩).mapError (.read path)

end InfraDiagram.Command
