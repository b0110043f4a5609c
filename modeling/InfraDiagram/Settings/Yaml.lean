import InfraDiagram.Settings.Codec
import InfraDiagram.Yaml.Writer

/-!
# Settings in YAML files

A settings file is read straight into its fields: a text field takes any scalar as it is written
(`1.50` is the text `1.50`, nothing is the empty text), while numbers and truth values have to be
plain. A field may be set once; names that are no fields are passed over. An empty file, or an
empty place where a record or a list is due, is an empty one.

Settings are written as blocks, every field on a line of its own and in order of declaration.
-/

namespace InfraDiagram.Settings

/-! ## 1. Scalars and collections -/

/-- A truth value, written plain. -/
def yamlFlag (d : Yaml.Document) (n : Yaml.Node) : Option Bool :=
  match d.node? n with
  | some (.scalar true s) => Yaml.flag? s
  | _ => none

/-- A number without a minus sign. -/
def unsigned? : List Char → Option Nat
  | '-' :: _ => none
  | '+' :: rest => Yaml.magnitude? rest
  | cs => Yaml.magnitude? cs

/-- A natural number below a bound, written plain. -/
def yamlBelow (bound : Nat) (d : Yaml.Document) (n : Yaml.Node) : Option Nat :=
  match d.node? n with
  | some (.scalar true s) => (unsigned? s.toList).filter (· < bound)
  | _ => none

/-- A naming scheme by its name. -/
def yamlNaming (d : Yaml.Document) (n : Yaml.Node) : Option NamingScheme :=
  (d.text? n).bind fun s => NamingScheme.names.lookup s

/-- The items of a list; an empty place is an empty list. -/
def yamlItems (d : Yaml.Document) (n : Yaml.Node) : Option (List Yaml.Node) :=
  match d.node? n with
  | some (.seq items) => some items
  | some (.scalar true "") => some []
  | _ => none

/-- The fields of a record, none of those in `known` set twice; an empty place has no fields. -/
def yamlFields (known : List String) (d : Yaml.Document) (n : Yaml.Node) :
    Option (List (String × Yaml.Node)) :=
  match d.node? n with
  | some (.map entries) => do
    let fields ← entries.mapM fun e => (d.text? e.1).map (·, e.2)
    if known.all fun name => (fields.filter fun f => f.1 == name).length ≤ 1 then some fields
    else none
  | some (.scalar true "") => some []
  | _ => none

/-- A field that has to be there. -/
def yamlField (fields : List (String × Yaml.Node)) (name : String)
    (decode : Yaml.Node → Option α) : Option α := (fields.lookup name).bind decode

/-- A field that may be absent. -/
def yamlFieldOr (fields : List (String × Yaml.Node)) (name : String) (default : α)
    (decode : Yaml.Node → Option α) : Option α :=
  match fields.lookup name with
  | some n => decode n
  | none => some default

/-! ## 2. Reading -/

/-- A service. -/
def yamlService (d : Yaml.Document) (n : Yaml.Node) : Option Service := do
  let fields ← yamlFields ["name", "port", "label"] d n
  let name ← yamlField fields "name" d.text?
  let port ← yamlField fields "port" (yamlBelow UInt16.size d)
  let label ← yamlField fields "label" d.text?
  some ⟨name, UInt16.ofNat port, label⟩

/-- A catalog. -/
def yamlCatalog (d : Yaml.Document) (n : Yaml.Node) : Option Catalog := do
  let fields ← yamlFields ["services", "fallback_label"] d n
  let items ← yamlField fields "services" (yamlItems d)
  let services ← items.mapM (yamlService d)
  let fallbackLabel ← yamlField fields "fallback_label" d.text?
  some ⟨services, fallbackLabel⟩

/-- Settings from the root of a document. -/
def ofYamlDocument (d : Yaml.Document) : Option Settings := do
  let fields ← yamlFields fieldNames d d.root
  let base : Settings := {}
  let stackClass ← yamlFieldOr fields "stack_class" base.stackClass d.text?
  let naming ← yamlFieldOr fields "naming" base.naming (yamlNaming d)
  let implicitVpc ← yamlFieldOr fields "implicit_vpc" base.implicitVpc (yamlFlag d)
  let natGateways ← yamlFieldOr fields "nat_gateways" base.natGateways.toNat (yamlBelow UInt32.size d)
  let instanceType ← yamlFieldOr fields "instance_type" base.instanceType d.text?
  let databaseInstanceType ←
    yamlFieldOr fields "database_instance_type" base.databaseInstanceType d.text?
  let allocatedStorage ←
    yamlFieldOr fields "allocated_storage" base.allocatedStorage.toNat (yamlBelow UInt32.size d)
  let databaseNamePrefix ←
    yamlFieldOr fields "database_name_prefix" base.databaseNamePrefix d.text?
  let managedPolicy ← yamlFieldOr fields "managed_policy" base.managedPolicy d.text?
  let defaultZone ← yamlFieldOr fields "default_availability_zone" base.defaultZone d.text?
  let services ← yamlFieldOr fields "services" base.services (yamlCatalog d)
  some {
    stackClass, naming, implicitVpc, natGateways := UInt32.ofNat natGateways, instanceType,
    databaseInstanceType, allocatedStorage := UInt32.ofNat allocatedStorage, databaseNamePrefix,
    managedPolicy, defaultZone, services }

/-- Settings from a YAML text. -/
def ofYaml? (text : String) : Option Settings := (Yaml.Document.read? text).bind ofYamlDocument

/-! ## 3. Writing -/

/-- A line with a name and its scalar. -/
def yamlLine (margin name scalar : String) : String := margin ++ name ++ ": " ++ scalar ++ "\n"

/-- The lines of a service in a list. -/
def serviceLines (s : Service) : String :=
  yamlLine "  - " "name" (Yaml.writeText s.name)
    ++ yamlLine "    " "port" (toString s.port.toNat)
    ++ yamlLine "    " "label" (Yaml.writeText s.label)

/-- The lines of a catalog. -/
def catalogLines (c : Catalog) : String :=
  (if c.services.isEmpty then "  services: []\n"
    else "  services:\n" ++ String.join (c.services.map serviceLines))
  ++ yamlLine "  " "fallback_label" (Yaml.writeText c.fallbackLabel)

/-- Settings as a YAML text. -/
def toYaml (s : Settings) : String :=
  yamlLine "" "stack_class" (Yaml.writeText s.stackClass)
    ++ yamlLine "" "naming" s.naming.text
    ++ yamlLine "" "implicit_vpc" (if s.implicitVpc then "true" else "false")
    ++ yamlLine "" "nat_gateways" (toString s.natGateways.toNat)
    ++ yamlLine "" "instance_type" (Yaml.writeText s.instanceType)
    ++ yamlLine "" "database_instance_type" (Yaml.writeText s.databaseInstanceType)
    ++ yamlLine "" "allocated_storage" (toString s.allocatedStorage.toNat)
    ++ yamlLine "" "database_name_prefix" (Yaml.writeText s.databaseNamePrefix)
    ++ yamlLine "" "managed_policy" (Yaml.writeText s.managedPolicy)
    ++ yamlLine "" "default_availability_zone" (Yaml.writeText s.defaultZone)
    ++ "services:\n" ++ catalogLines s.services

end InfraDiagram.Settings
