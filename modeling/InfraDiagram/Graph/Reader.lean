import InfraDiagram.Document.Codec
import InfraDiagram.File.Tree
import InfraDiagram.Graph.Codec
import InfraDiagram.Json.Reader
import InfraDiagram.Yaml.Resolve

/-!
# Reading diagrams

A diagram is read from a JSON or YAML text, or from a file whose extension tells which. A value with
blocks and without nodes is an editor's document, any other value a graph.
-/

namespace InfraDiagram.Graph

/-! ## 1. Failures -/

/-- Why a diagram cannot be read. -/
inductive ReadError where
  | file (f : File.Fault)
  | json (f : Json.Fault) (line : Nat)
  | data (e : DataError)
  | yaml
  | unsupportedFormat (path : String)
  deriving DecidableEq, Repr

/-- The wording of an error. Of a text that is not read as YAML only this is said. -/
def ReadError.message : ReadError → String
  | .file f => "IO error: " ++ f.message
  | .json f line => "JSON parsing error: " ++ f.message ++ " at line " ++ toString line
  | .data e => "JSON parsing error: " ++ e.message
  | .yaml => "YAML parsing error"
  | .unsupportedFormat path => "Unsupported input format: " ++ path

/-! ## 2. Values and texts -/

/-- The diagram that a value holds. -/
def read (v : Value) : Except ReadError Graph :=
  match v with
  | .obj fields =>
    if Document.isDocument fields then
      ((Document.ofFields fields).map Document.toGraph).mapError .data
    else (ofValue v).mapError .data
  | _ => (ofValue v).mapError .data

/-- The diagram of a JSON text. -/
def ofJson (text : String) : Except ReadError Graph := do
  let v ← (Json.read text).mapError fun f => .json f (f.line text)
  read v

/-- The diagram of a YAML text. -/
def ofYaml (text : String) : Except ReadError Graph :=
  match Yaml.read? text with
  | some v => read v
  | none => .error .yaml

/-! ## 3. Files -/

/-- Whether a path has an extension of diagrams, in small letters. -/
def isGraphFile (p : File.Path) : Bool :=
  match p.extension? with
  | some "json" => true
  | some "yaml" => true
  | some "yml" => true
  | _ => false

/-- The diagram of a text, by the extension of its file. -/
def ofText (p : File.Path) (text : String) : Except ReadError Graph :=
  match Text.lower (p.extension?.getD "") with
  | "json" => ofJson text
  | "yaml" => ofYaml text
  | "yml" => ofYaml text
  | _ => .error (.unsupportedFormat p.text)

/-- The formats that diagrams are read in. What the commands do with files does not depend on
    them. -/
class Formats where
  parse : File.Path → String → Except ReadError Graph

instance standardFormats : Formats := ⟨ofText⟩

/-- The diagram of a file. The file is read before its extension is looked at. -/
def ofFile [Formats] (t : File.Tree) (p : File.Path) : Except ReadError Graph := do
  let text ← (t.readText p).mapError .file
  Formats.parse p text

end InfraDiagram.Graph
