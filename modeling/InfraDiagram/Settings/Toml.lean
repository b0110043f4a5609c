import InfraDiagram.Settings.Codec
import InfraDiagram.Toml.Reader

/-!
# Settings in TOML files

Every field takes its own type of value only. A record is a table, or an array with the fields in
their order; a naming scheme is its name, or a table with the name as its only key and nothing
under it.
-/

namespace InfraDiagram.Settings

/-! ## 1. Scalars and collections -/

/-- The entries of a table, however it is written. -/
def tomlEntries? : Toml.Item → Option Toml.Entries
  | .inline entries => some entries
  | .table _ entries => some entries
  | _ => none

/-- The items of an array, however it is written. -/
def tomlItems? : Toml.Item → Option (List Toml.Item)
  | .array items => some items
  | .tables elements => some (elements.map (.table .header))
  | _ => none

/-- A text. -/
def tomlText : Toml.Item → Option String
  | .str s => some s
  | _ => none

/-- A truth value. -/
def tomlFlag : Toml.Item → Option Bool
  | .bool b => some b
  | _ => none

/-- A natural number below a bound. -/
def tomlBelow (bound : Nat) : Toml.Item → Option Nat
  | .int i => if 0 ≤ i ∧ i < (bound : Int) then some i.toNat else none
  | _ => none

/-- Whether an item is an empty table or an empty array. -/
def tomlIsEmpty (i : Toml.Item) : Bool :=
  match tomlEntries? i, tomlItems? i with
  | some entries, _ => entries.isEmpty
  | none, some items => items.isEmpty
  | none, none => false

/-- A naming scheme. -/
def tomlNaming : Toml.Item → Option NamingScheme
  | .str s => NamingScheme.names.lookup s
  | i =>
    match tomlEntries? i with
    | some [(k, v)] => if tomlIsEmpty v then NamingScheme.names.lookup k else none
    | _ => none

/-- The field of a record: by name in a table, by position in an array. -/
def tomlField? (i : Toml.Item) (name : String) (position : Nat) : Option Toml.Item :=
  match tomlEntries? i, tomlItems? i with
  | some entries, _ => Toml.Entries.get? entries name
  | none, some items => items[position]?
  | none, none => none

/-! ## 2. Reading -/

/-- A service. -/
def tomlService (i : Toml.Item) : Option Service := do
  let name ← (tomlField? i "name" 0).bind tomlText
  let port ← (tomlField? i "port" 1).bind (tomlBelow UInt16.size)
  let label ← (tomlField? i "label" 2).bind tomlText
  some ⟨name, UInt16.ofNat port, label⟩

/-- A catalog. -/
def tomlCatalog (i : Toml.Item) : Option Catalog := do
  let items ← (tomlField? i "services" 0).bind tomlItems?
  let services ← items.mapM tomlService
  let fallbackLabel ← (tomlField? i "fallback_label" 1).bind tomlText
  some ⟨services, fallbackLabel⟩

/-- The entry of a name that may be absent. -/
def tomlEntryOr (entries : Toml.Entries) (name : String) (default : α) (decode : Toml.Item → Option α) :
    Option α :=
  match Toml.Entries.get? entries name with
  | some i => decode i
  | none => some default

/-- Settings from the entries of a document. -/
def ofTomlEntries (entries : Toml.Entries) : Option Settings := do
  let base : Settings := {}
  let stackClass ← tomlEntryOr entries "stack_class" base.stackClass tomlText
  let naming ← tomlEntryOr entries "naming" base.naming tomlNaming
  let implicitVpc ← tomlEntryOr entries "implicit_vpc" base.implicitVpc tomlFlag
  let natGateways ← tomlEntryOr entries "nat_gateways" base.natGateways.toNat (tomlBelow UInt32.size)
  let instanceType ← tomlEntryOr entries "instance_type" base.instanceType tomlText
  let databaseInstanceType ←
    tomlEntryOr entries "database_instance_type" base.databaseInstanceType tomlText
  let allocatedStorage ←
    tomlEntryOr entries "allocated_storage" base.allocatedStorage.toNat (tomlBelow UInt32.size)
  let databaseNamePrefix ←
    tomlEntryOr entries "database_name_prefix" base.databaseNamePrefix tomlText
  let managedPolicy ← tomlEntryOr entries "managed_policy" base.managedPolicy tomlText
  let defaultZone ← tomlEntryOr entries "default_availability_zone" base.defaultZone tomlText
  let services ← tomlEntryOr entries "services" base.services tomlCatalog
  some {
    stackClass, naming, implicitVpc, natGateways := UInt32.ofNat natGateways, instanceType,
    databaseInstanceType, allocatedStorage := UInt32.ofNat allocatedStorage, databaseNamePrefix,
    managedPolicy, defaultZone, services }

/-- Settings from a TOML text. -/
def ofToml? (text : String) : Option Settings := (Toml.read? text).bind ofTomlEntries

end InfraDiagram.Settings
