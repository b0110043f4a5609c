import InfraDiagram.Command.Outcome
import InfraDiagram.Stack.Generate

/-!
# Compiling one diagram

The stack program goes to a file, with a note on the standard output, or to the standard output
itself; a report goes to a file of its own.
-/

namespace InfraDiagram.Command

/-- The stack of a diagram file. The settings are loaded before the diagram is read. -/
def compileFile [Settings.Formats] [Graph.Formats] (t : File.Tree) (input : String)
    (settings stackName : Option String) : Except Failure Stack := do
  let settings ← loadSettings t settings
  let g ← readDiagram t input
  (Stack.generateNamed settings g (stackName.getD g.name)).mapError (.compile input)

/-- What is said of a stack that was written: its name and its outputs. -/
def writtenNote (stack : Stack) (path : String) : String :=
  "✅ Stack '" ++ stack.name ++ "' written to " ++ path ++ "\n"
    ++ String.join (stack.outputs.map fun o => "   📤 " ++ o.nodeId ++ " → " ++ o.outputId ++ "\n")

/-- Delivers the program of a stack. -/
def deliver (t : File.Tree) (stack : Stack) : (output : Option String) → Outcome
  | none => { tree := t, output := stack.source }
  | some path =>
    match t.writeText ⟨path, []⟩ stack.source with
    | .ok t => { tree := t, output := writtenNote stack path }
    | .error f => { tree := t, failure := some (.writeStack path f) }

/-- Writes the report of a stack, unless something failed before. -/
def addReport (o : Outcome) (stack : Stack) : (report : Option String) → Outcome
  | none => o
  | some path =>
    if o.failure.isSome then o
    else
      match o.tree.writeText ⟨path, []⟩ stack.report with
      | .ok t => { o with tree := t }
      | .error f => { o with failure := some (.writeReport path f) }

/-- Compiles a diagram. -/
def generate [Settings.Formats] [Graph.Formats] (t : File.Tree) (input : String)
    (output report settings stackName : Option String) : Outcome :=
  match compileFile t input settings stackName with
  | .ok stack => addReport (deliver t stack output) stack report
  | .error f => { tree := t, failure := some f }

end InfraDiagram.Command
