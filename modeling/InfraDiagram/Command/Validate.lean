import InfraDiagram.Command.Outcome
import InfraDiagram.Graph.Check

/-!
# Checking one diagram

The command lists every warning and every problem of a diagram; it fails with the first problem.
-/

namespace InfraDiagram.Command

/-- The lines that describe the check of a diagram. -/
def checkLines (g : Graph) (r : Report) : List String :=
  [("📋 Diagram '" ++ g.name ++ "': " ++ toString g.nodes.length ++ " node(s), "
    ++ toString g.edges.length ++ " edge(s)")]
  ++ r.warnings.map (fun w => "   ⚠️  " ++ w.message)
  ++ (if r.isValid then ["   ✅ Diagram is valid"]
    else ("   ❌ " ++ toString r.problems.length ++ " error(s):")
      :: r.problems.map fun p => "      - " ++ p.message)

/-- Lines, each with its end. -/
def unlines (lines : List String) : String := String.join (lines.map fun l => l ++ "\n")

/-- Checks a diagram. -/
def validate [Graph.Formats] (t : File.Tree) (input : String) : Outcome :=
  match readDiagram t input with
  | .error f => { tree := t, failure := some f }
  | .ok g =>
    let r := g.check
    { tree := t
      output := unlines (checkLines g r)
      failure := r.problems.head?.map fun p => .invalid input p }

end InfraDiagram.Command
