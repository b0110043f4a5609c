import InfraDiagram.Document.Basic
import InfraDiagram.Value.Decode

/-!
# Editor documents from values

A block names its kind by the tag `type`, next to its fields or, in an array, as the first item.
The tag is a name; inside the children of a network it may also be the position of the kind.
-/

namespace InfraDiagram

open Decode

/-! ## 1. Tags -/

/-- The kinds of blocks. -/
inductive BlockTag where
  | network
  | webServer
  | database
  | storage
  | website
  deriving DecidableEq, Repr

namespace BlockTag

/-- The kinds by their names, in their order. -/
def names : List (String × BlockTag) :=
  [("VPC", .network), ("WebServer", .webServer), ("Database", .database),
    ("StorageContainer", .storage), ("StaticWebsite", .website)]

/-- A kind from its name or, if `indexed`, from its position. -/
def ofValue (indexed : Bool) : Value → Except DataError BlockTag
  | .str s => named names s
  | .int i =>
    if indexed && 0 ≤ i then
      match names[i.toNat]? with
      | some (_, tag) => .ok tag
      | none => .error (.wrongValue (.int i) "variant index 0 <= i < 5")
    else .error (.wrongType (.int i) "variant identifier")
  | v => .error (.wrongType v "variant identifier")

end BlockTag

/-! ## 2. The fields of a block -/

/-- The fields of a block, from an object or from an array. -/
inductive BlockFields where
  | named (fields : Fields)
  | listed (items : List Value)

namespace BlockFields

/-- Checks the fields of an object in their order. -/
def check (f : BlockFields) (known : String → Value → Except DataError Unit) :
    Except DataError Unit :=
  match f with
  | .named fields => inOrder known fields
  | .listed _ => .ok ()

/-- A field that has to be there: by name, or by position in a list of `count` fields. -/
def required (f : BlockFields) (whole : String) (count position : Nat) (name : String)
    (decode : Value → Except DataError α) : Except DataError α :=
  match f with
  | .named fields => Decode.required fields name decode
  | .listed items =>
    item items position ("struct " ++ whole ++ " with " ++ toString count ++ " elements") decode

/-- A field that may be absent. -/
def optional (f : BlockFields) (position : Nat) (name : String) (default : α)
    (decode : Value → Except DataError α) : Except DataError α :=
  match f with
  | .named fields => Decode.optional fields name default decode
  | .listed items => itemOr items position default decode

/-- Refuses more items than there are fields. -/
def finish (f : BlockFields) (count : Nat) : Except DataError Unit :=
  match f with
  | .named _ => .ok ()
  | .listed items =>
    if items.length ≤ count then .ok ()
    else .error (.wrongLength items.length (toString count ++ " elements in sequence"))

end BlockFields

/-! ## 3. Blocks -/

namespace Block

/-- The tag and the fields of a block. -/
def split (indexed : Bool) : Value → Except DataError (BlockTag × BlockFields)
  | .obj fields => do
    let tag ← Decode.required fields "type" (BlockTag.ofValue indexed)
    .ok (tag, .named fields)
  | .arr [] => .error (.missingField "type")
  | .arr (tag :: items) => do
    let tag ← BlockTag.ofValue indexed tag
    .ok (tag, .listed items)
  | v => .error (.wrongType v "internally tagged enum Block")

/-- What is checked of a field that holds a text. -/
def checkTexts (texts optionals : List String) (key : String) (v : Value) : Except DataError Unit :=
  if texts.contains key then succeeds (text v)
  else if optionals.contains key then succeeds (option text v)
  else .ok ()

/-- A web server from its fields. -/
def webServerOf (f : BlockFields) : Except DataError Block := do
  let whole := "WebServerBlock"
  f.check (checkTexts ["id", "name", "amiId", "availabilityZone"] ["userDataScript", "appPath"])
  let id ← f.required whole 6 0 "id" text
  let name ← f.required whole 6 1 "name" text
  let amiId ← f.optional 2 "amiId" "" text
  let zone ← f.optional 3 "availabilityZone" "" text
  let userData ← f.optional 4 "userDataScript" none (option text)
  let appPath ← f.optional 5 "appPath" none (option text)
  f.finish 6
  .ok (.webServer id name amiId zone userData appPath)

/-- A database from its fields. -/
def databaseOf (f : BlockFields) : Except DataError Block := do
  let whole := "DatabaseBlock"
  f.check (checkTexts ["id", "name", "engine"] [])
  let id ← f.required whole 3 0 "id" text
  let name ← f.required whole 3 1 "name" text
  let engine ← f.required whole 3 2 "engine" text
  f.finish 3
  .ok (.database id name engine)

/-- A storage container from its fields. -/
def storageOf (f : BlockFields) : Except DataError Block := do
  let whole := "StorageContainerBlock"
  f.check (checkTexts ["id", "name"] [])
  let id ← f.required whole 2 0 "id" text
  let name ← f.required whole 2 1 "name" text
  f.finish 2
  .ok (.storage id name)

/-- A static website from its fields. -/
def websiteOf (f : BlockFields) : Except DataError Block := do
  let whole := "StaticWebsiteBlock"
  f.check (checkTexts ["id", "name", "indexFile", "errorFile"] ["appPath"])
  let id ← f.required whole 5 0 "id" text
  let name ← f.required whole 5 1 "name" text
  let index ← f.optional 2 "indexFile" "" text
  let error ← f.optional 3 "errorFile" "" text
  let appPath ← f.optional 4 "appPath" none (option text)
  f.finish 5
  .ok (.website id name index error appPath)

/-- A network from its fields, its children read by `child`. -/
def networkOf (child : Value → Except DataError Block) (f : BlockFields) :
    Except DataError Block := do
  let whole := "VpcBlock"
  -- read once, so that the work grows with the size of a block and not with its depth
  let children := f.optional 2 "children" [] (list child)
  f.check fun key v =>
    match key with
    | "id" => succeeds (text v)
    | "name" => succeeds (text v)
    | "children" => succeeds children
    | _ => .ok ()
  let id ← f.required whole 3 0 "id" text
  let name ← f.required whole 3 1 "name" text
  let children ← children
  f.finish 3
  .ok (.network id name children)

/-- A block, with a bound on its depth. -/
def ofValueWithin : Nat → (indexed : Bool) → Value → Except DataError Block
  | 0, _, v => .error (.wrongType v "internally tagged enum Block")
  | depth + 1, indexed, v => do
    let (tag, f) ← split indexed v
    match tag with
    | .network => networkOf (ofValueWithin depth true) f
    | .webServer => webServerOf f
    | .database => databaseOf f
    | .storage => storageOf f
    | .website => websiteOf f

/-- A block of a drawing's top level. -/
def ofValue (v : Value) : Except DataError Block := ofValueWithin (v.depth + 1) false v

end Block

/-! ## 4. Connections and documents -/

namespace Connection

/-- What is checked of a connection's fields. -/
def checkField (key : String) (v : Value) : Except DataError Unit :=
  match key with
  | "id" => succeeds (text v)
  | "source_id" => succeeds (text v)
  | "destination_id" => succeeds (text v)
  | "ports" => succeeds (list word16 v)
  | _ => .ok ()

/-- A connection from the fields of an object. -/
def ofFields (fields : Fields) : Except DataError Connection := do
  inOrder checkField fields
  let id ← required fields "id" text
  let source ← required fields "source_id" text
  let target ← required fields "destination_id" text
  let ports ← optional fields "ports" [] (list word16)
  .ok ⟨id, source, target, ports⟩

/-- A connection from the items of an array. -/
def ofItems (items : List Value) : Except DataError Connection := do
  let whole := "struct Connection with 4 elements"
  let id ← item items 0 whole text
  let source ← item items 1 whole text
  let target ← item items 2 whole text
  let ports ← itemOr items 3 [] (list word16)
  atMost items 4
  .ok ⟨id, source, target, ports⟩

/-- A connection from a value. -/
def ofValue (v : Value) : Except DataError Connection := record "Connection" ofFields ofItems v

end Connection

namespace Document

/-- What is checked of a document's fields. -/
def checkField (key : String) (v : Value) : Except DataError Unit :=
  match key with
  | "id" => succeeds (text v)
  | "name" => succeeds (text v)
  | "blocks" => succeeds (list Block.ofValue v)
  | "connections" => succeeds (list Connection.ofValue v)
  | _ => .ok ()

/-- A document from the fields of an object. -/
def ofFields (fields : Fields) : Except DataError Document := do
  inOrder checkField fields
  let id ← optional fields "id" "" text
  let name ← required fields "name" text
  let blocks ← optional fields "blocks" [] (list Block.ofValue)
  let connections ← optional fields "connections" [] (list Connection.ofValue)
  .ok ⟨id, name, blocks, connections⟩

/-- Blocks and no nodes: the fields are those of an editor document. -/
def isDocument (fields : Fields) : Bool := Fields.has fields "blocks" && !Fields.has fields "nodes"

end Document

end InfraDiagram
