import InfraDiagram.Stack.Basic

/-!
# The report of a stack

What a stack declares, as an indented document for other tools: its name, its variables, its
outputs and, for a compiled diagram, the symbols of its nodes.
-/

namespace InfraDiagram

/-- A symbol as a value. -/
def Symbol.toValue (s : Symbol) : Value :=
  .obj [("variable", .str s.var), ("resource", .str s.resource)]

/-- The entries of a symbol table as a value: pairs of an id and a symbol. -/
def SymbolTable.entriesValue (t : SymbolTable) : Value :=
  .arr (t.entries.map fun e => .arr [.str e.1, e.2.toValue])

/-- The symbol of the default network as a value. -/
def SymbolTable.defaultNetworkValue (t : SymbolTable) : Value :=
  match t.defaultNetwork with
  | some symbol => symbol.toValue
  | none => .null

/-- A symbol table as a value. -/
def SymbolTable.toValue (t : SymbolTable) : Value :=
  .obj [("entries", t.entriesValue), ("default_network", t.defaultNetworkValue)]

/-- An output as a value. -/
def Output.toValue (o : Output) : Value :=
  .obj [("node_id", .str o.nodeId), ("output_id", .str o.outputId), ("value", .str o.value)]

namespace Stack

/-- What a stack declares as a value. -/
def toValue (s : Stack) : Value :=
  .obj ([
    ("stack_name", .str s.name),
    ("declared", .arr (s.declared.map Value.str)),
    ("outputs", .arr (s.outputs.map Output.toValue))]
    ++ (s.symbols.toList.map fun t => ("symbols", t.toValue)))

/-- The report of a stack. -/
def report (s : Stack) : String := s.toValue.pretty

end Stack

end InfraDiagram
