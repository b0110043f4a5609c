import InfraDiagram.File.Tree
import InfraDiagram.Settings.Toml
import InfraDiagram.Settings.Yaml

/-!
# Settings files

Settings are loaded from YAML or TOML, told apart by the extension, and they have to be valid. They
are saved as YAML, whatever the name of the file.
-/

namespace InfraDiagram.Settings

/-- Why settings cannot be loaded or saved. -/
inductive LoadError where
  | file (f : File.Fault)
  | yaml
  | toml
  | invalid (f : Fault)
  deriving DecidableEq, Repr

/-- The wording of an error. Of a text that is not in its format only this is said. -/
def LoadError.message : LoadError → String
  | .file f => "IO error: " ++ f.message
  | .yaml => "YAML error"
  | .toml => "TOML error"
  | .invalid f => "Configuration error: " ++ f.message

/-- The settings of a text, by the extension of its file. -/
def ofText (p : File.Path) (text : String) : Except LoadError Settings :=
  let ofOption := fun (e : LoadError) (s : Option Settings) => s.elim (.error e) .ok
  match p.extension?.getD "" with
  | "yaml" => ofOption .yaml (ofYaml? text)
  | "yml" => ofOption .yaml (ofYaml? text)
  | "toml" => ofOption .toml (ofToml? text)
  | _ => .error (.invalid (.unsupportedFile p.text))

/-- The formats that settings are read in. -/
class Formats where
  parse : File.Path → String → Except LoadError Settings

instance standardFormats : Formats := ⟨ofText⟩

/-- The settings of a file. -/
def load [Formats] (t : File.Tree) (p : File.Path) : Except LoadError Settings := do
  let text ← (t.readText p).mapError .file
  let settings ← Formats.parse p text
  settings.validate.mapError .invalid
  .ok settings

/-- The tree with settings saved to a file. They need not be valid. -/
def save (settings : Settings) (t : File.Tree) (p : File.Path) : Except LoadError File.Tree :=
  (t.writeText p settings.toYaml).mapError .file

end InfraDiagram.Settings
