import InfraDiagram.Settings.Basic
import InfraDiagram.Value.Decode

/-!
# Settings as values

Settings, catalogs and services read from values, and settings written as values with all their
fields.
-/

namespace InfraDiagram

open Decode

/-! ## 1. Services -/

namespace Service

/-- What is checked of a service's fields. -/
def checkField (key : String) (v : Value) : Except DataError Unit :=
  match key with
  | "name" => succeeds (text v)
  | "port" => succeeds (word16 v)
  | "label" => succeeds (text v)
  | _ => .ok ()

/-- A service from the fields of an object. -/
def ofFields (fields : Fields) : Except DataError Service := do
  inOrder checkField fields
  let name ← required fields "name" text
  let port ← required fields "port" word16
  let label ← required fields "label" text
  .ok ⟨name, port, label⟩

/-- A service from the items of an array. -/
def ofItems (items : List Value) : Except DataError Service := do
  let whole := "struct Service with 3 elements"
  let name ← item items 0 whole text
  let port ← item items 1 whole word16
  let label ← item items 2 whole text
  atMost items 3
  .ok ⟨name, port, label⟩

/-- A service from a value. -/
def ofValue (v : Value) : Except DataError Service := record "Service" ofFields ofItems v

/-- A service as a value. -/
def toValue (s : Service) : Value :=
  .obj [("label", .str s.label), ("name", .str s.name), ("port", .int s.port.toNat)]

end Service

/-! ## 2. Catalogs -/

namespace Catalog

/-- What is checked of a catalog's fields. -/
def checkField (key : String) (v : Value) : Except DataError Unit :=
  match key with
  | "services" => succeeds (list Service.ofValue v)
  | "fallback_label" => succeeds (text v)
  | _ => .ok ()

/-- A catalog from the fields of an object. -/
def ofFields (fields : Fields) : Except DataError Catalog := do
  inOrder checkField fields
  let services ← required fields "services" (list Service.ofValue)
  let fallbackLabel ← required fields "fallback_label" text
  .ok ⟨services, fallbackLabel⟩

/-- A catalog from the items of an array. -/
def ofItems (items : List Value) : Except DataError Catalog := do
  let whole := "struct ServiceCatalog with 2 elements"
  let services ← item items 0 whole (list Service.ofValue)
  let fallbackLabel ← item items 1 whole text
  atMost items 2
  .ok ⟨services, fallbackLabel⟩

/-- A catalog from a value. -/
def ofValue (v : Value) : Except DataError Catalog := record "ServiceCatalog" ofFields ofItems v

/-- A catalog as a value. -/
def toValue (c : Catalog) : Value :=
  .obj [("fallback_label", .str c.fallbackLabel),
    ("services", .arr (c.services.map Service.toValue))]

end Catalog

/-! ## 3. Settings -/

/-- The naming schemes by their names. -/
def NamingScheme.names : List (String × NamingScheme) :=
  [NamingScheme.counted, .bare].map fun s => (s.text, s)

/-- A naming scheme from a value. -/
def NamingScheme.ofValue (v : Value) : Except DataError NamingScheme := variant NamingScheme.names v

namespace Settings

/-- Sets the field of a name from a value; a name that is no field changes nothing. -/
def setField (s : Settings) (key : String) (v : Value) : Except DataError Settings :=
  match key with
  | "stack_class" => (text v).map fun x => { s with stackClass := x }
  | "naming" => (NamingScheme.ofValue v).map fun x => { s with naming := x }
  | "implicit_vpc" => (flag v).map fun x => { s with implicitVpc := x }
  | "nat_gateways" => (word32 v).map fun x => { s with natGateways := x }
  | "instance_type" => (text v).map fun x => { s with instanceType := x }
  | "database_instance_type" => (text v).map fun x => { s with databaseInstanceType := x }
  | "allocated_storage" => (word32 v).map fun x => { s with allocatedStorage := x }
  | "database_name_prefix" => (text v).map fun x => { s with databaseNamePrefix := x }
  | "managed_policy" => (text v).map fun x => { s with managedPolicy := x }
  | "default_availability_zone" => (text v).map fun x => { s with defaultZone := x }
  | "services" => (Catalog.ofValue v).map fun x => { s with services := x }
  | _ => .ok s

/-- The names of the fields, in order of declaration. -/
def fieldNames : List String :=
  ["stack_class", "naming", "implicit_vpc", "nat_gateways", "instance_type",
    "database_instance_type", "allocated_storage", "database_name_prefix", "managed_policy",
    "default_availability_zone", "services"]

/-- Sets one field after the other; the first that fails is the error. -/
def setFields (s : Settings) : List (String × Value) → Except DataError Settings
  | [] => .ok s
  | (k, v) :: rest => do
    let s ← s.setField k v
    s.setFields rest

/-- Settings from a value. What is not said has its default. -/
def ofValue (v : Value) : Except DataError Settings :=
  record "GeneratorConfig" (setFields {}) (fun items => do
    let s ← setFields {} (fieldNames.zip items)
    atMost items fieldNames.length
    .ok s) v

/-- Settings as a value. -/
def toValue (s : Settings) : Value :=
  .obj [
    ("allocated_storage", .int s.allocatedStorage.toNat),
    ("database_instance_type", .str s.databaseInstanceType),
    ("database_name_prefix", .str s.databaseNamePrefix),
    ("default_availability_zone", .str s.defaultZone),
    ("implicit_vpc", .bool s.implicitVpc),
    ("instance_type", .str s.instanceType),
    ("managed_policy", .str s.managedPolicy),
    ("naming", .str s.naming.text),
    ("nat_gateways", .int s.natGateways.toNat),
    ("services", s.services.toValue),
    ("stack_class", .str s.stackClass)]

end Settings

end InfraDiagram
