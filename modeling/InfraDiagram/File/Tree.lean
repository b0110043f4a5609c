import InfraDiagram.File.Path

/-!
# Directory trees

What the commands see of a file system: a tree of directories and files, as a list of entries by
their names from the top, which is where relative paths start. Reading, writing and making directories
are functions on such a tree, with the failures a file system has.
-/

namespace InfraDiagram.File

/-! ## 1. Failures -/

/-- Why a file operation fails. -/
inductive Fault where
  | notFound
  | alreadyExists
  | notDirectory
  | isDirectory
  | nameTooLong
  | nullCharacter
  | notText
  deriving DecidableEq, Repr

/-- The wording of a failure. -/
def Fault.message : Fault → String
  | .notFound => "No such file or directory (os error 2)"
  | .alreadyExists => "File exists (os error 17)"
  | .notDirectory => "Not a directory (os error 20)"
  | .isDirectory => "Is a directory (os error 21)"
  | .nameTooLong => "File name too long (os error 36)"
  | .nullCharacter => "file name contained an unexpected NUL byte"
  | .notText => "stream did not contain valid UTF-8"

/-! ## 2. Trees -/

/-- What a file holds: a text, or bytes that are none. -/
inductive Content where
  | text (s : String)
  | bytes (bs : List UInt8)
  deriving DecidableEq, Repr

/-- What a file with some bytes holds. -/
def Content.ofBytes (bs : ByteArray) : Content :=
  match String.fromUTF8? bs with
  | some s => .text s
  | none => .bytes bs.toList

/-- What stands under a name. -/
inductive Entry where
  | directory
  | file (content : Content)
  deriving DecidableEq, Repr

/-- A tree: its entries by their names from the top. -/
structure Tree where
  entries : List (List String × Entry) := []
  deriving DecidableEq, Repr

namespace Tree

/-- The top, the directories above it and the root are always directories. -/
def isAnchor (names : List String) : Bool := names == ["/"] || names.all fun name => name == ".."

/-- What stands at a place. -/
def find? (t : Tree) (names : List String) : Option Entry :=
  if isAnchor names then some .directory else t.entries.lookup names

/-- The tree with something at a place, whatever was there before. -/
def put (t : Tree) (names : List String) (e : Entry) : Tree :=
  ⟨(t.entries.filter fun x => x.1 != names) ++ [(names, e)]⟩

/-- The place above a place. -/
def above (place : List String) : List String :=
  if place == ["/"] then place
  else if isAnchor place then place ++ [".."]
  else place.dropLast

/-- The place that a step leads to. -/
def next (place : List String) (step : String) : List String :=
  if step == "." then place
  else if step == ".." then above place
  else place ++ [step]

/-- The longest name, in bytes. -/
def maxNameBytes : Nat := 255

/-- The longest path, in bytes. -/
def maxPathBytes : Nat := 4095

/-- The place that a step from a directory leads to. -/
def look (place : List String) (step : String) : Except Fault (List String) :=
  if maxNameBytes < step.utf8ByteSize then .error .nameTooLong else .ok (next place step)

/-- The place that some steps lead to, each of them to a directory. -/
def enter (t : Tree) : (place : List String) → (steps : List String) → Except Fault (List String)
  | place, [] => .ok place
  | place, step :: rest => do
    let there ← look place step
    match t.find? there with
    | some .directory => t.enter there rest
    | some (.file _) => .error .notDirectory
    | none => .error .notFound

/-- Refuses what cannot be a path at all. -/
def accept (p : Path) : Except Fault Unit :=
  if p.text.toList.contains '\x00' then .error .nullCharacter
  else if maxPathBytes < p.text.utf8ByteSize then .error .nameTooLong
  else .ok ()

/-- The place of the directory in which the last step of a path is made. -/
def around (t : Tree) (p : Path) : Except Fault (List String) := do
  accept p
  if p.text.isEmpty then .error .notFound else t.enter [] p.steps.dropLast

/-- The place a path leads to. -/
def place (t : Tree) (p : Path) : Except Fault (List String) := do
  let around ← t.around p
  match p.steps.getLast? with
  | some step => look around step
  | none => .ok around

/-- The place of the directory that a path leads to. -/
def directory? (t : Tree) (p : Path) : Option (List String) :=
  match t.place p with
  | .ok names => if t.find? names == some .directory then some names else none
  | .error _ => none

/-! ## 3. Reading and writing -/

/-- The text of a file. -/
def readText (t : Tree) (p : Path) : Except Fault String := do
  match t.find? (← t.place p) with
  | none => .error .notFound
  | some .directory => .error .isDirectory
  | some (.file content) =>
    if p.endsInSlash then .error .notDirectory
    else
      match content with
      | .text s => .ok s
      | .bytes _ => .error .notText

/-- The tree with a file written. A path that ends in a slash is taken for that of a directory,
    whether there is one or not. -/
def write (t : Tree) (p : Path) (content : Content) : Except Fault Tree := do
  let _ ← t.around p
  if p.endsInSlash then .error .isDirectory
  else
    let names ← t.place p
    if t.find? names == some .directory then .error .isDirectory
    else .ok (t.put names (.file content))

/-- The tree with a text written to a file. -/
def writeText (t : Tree) (p : Path) (text : String) : Except Fault Tree := t.write p (.text text)

/-- The tree with a directory where some steps lead to, in a directory that has to be there. -/
def makeDirectory (t : Tree) (steps : List String) : Except Fault Tree := do
  let around ← t.enter [] steps.dropLast
  match steps.getLast? with
  | none => .ok t
  | some step =>
    let names ← look around step
    match t.find? names with
    | some .directory => .ok t
    | some (.file _) => .error .alreadyExists
    | none => .ok (t.put names .directory)

/-- What an attempt to change a tree leaves: the changed tree, or the tree as it was and the reason. -/
def after (t : Tree) : Except Fault Tree → Tree × Option Fault
  | .ok changed => (changed, none)
  | .error f => (t, some f)

/-- Makes a directory where the first way leads to. Where something on that way is missing, the other
    ways, which lead further and further out, are made first. What was made stays, also if a way
    further in cannot be made. -/
def makeWays (t : Tree) : (ways : List (List String)) → Tree × Option Fault
  | [] => (t, none)
  | way :: outer =>
    match t.makeDirectory way with
    | .error .notFound =>
      match t.makeWays outer with
      | (made, none) => made.after (made.makeDirectory way)
      | stopped => stopped
    | result => t.after result

/-- Makes a directory and all directories around it. -/
def makeDirectories (t : Tree) (p : Path) : Tree × Option Fault :=
  match accept p with
  | .ok _ => t.makeWays p.ways
  | .error f => (t, some f)

/-! ## 4. Walking -/

/-- The names that something in a directory can have. -/
def isName (name : String) : Bool := name != "." && name != ".." && name != "/"

/-- The names of the files below a place, each from that place on and in their order. -/
def filesBelow (t : Tree) (names : List String) : List (List String) :=
  let found := t.entries.filterMap fun x =>
    match x.2 with
    | .file _ =>
      let below := x.1.drop names.length
      if x.1.take names.length == names && !below.isEmpty && below.all isName then some below
      else none
    | .directory => none
  found.mergeSort namesLe

end Tree

end InfraDiagram.File
