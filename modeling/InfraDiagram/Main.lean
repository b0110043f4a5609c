import InfraDiagram.Command.Run

/-!
# The program

The command line is run on a picture of the part of the file system that it names; then what the run
changed is written back and what it said is printed.
-/

namespace InfraDiagram.Program

open File (Tree Path Entry Content)

/-! ## 1. The picture -/

/-- The text of a place. -/
def placeText (place : List String) : String := place.foldl Path.append ""

/-- What stands at a place of the file system. -/
def lookAt (place : List String) : IO (Option Entry) := do
  let path := (← IO.currentDir) / placeText place
  if ← path.isDir then return some .directory
  else if ← path.pathExists then return some (.file (Content.ofBytes (← IO.FS.readBinFile path)))
  else return none

/-- Adds what stands at a place to the picture. -/
def addPlace (t : Tree) (place : List String) : IO Tree := do
  match t.find? place, ← lookAt place with
  | none, some entry => return t.put place entry
  | _, _ => return t

/-- Adds what stands at each step of a path. -/
def addWay (t : Tree) (p : Path) : IO Tree := do
  let mut tree := t
  let mut place := []
  for step in p.steps do
    place := Tree.next place step
    tree ← addPlace tree place
  return tree

/-- Adds all that is below a directory. -/
partial def addBelow (t : Tree) (place : List String) : IO Tree := do
  let mut tree := t
  for entry in ← ((← IO.currentDir) / placeText place).readDir do
    let below := place ++ [entry.fileName]
    tree ← addPlace tree below
    if tree.find? below == some .directory then tree ← addBelow tree below
  return tree

/-- The paths a request names. -/
def pathsOf : Command.Request → List String
  | .generate input output report settings _ =>
    input :: output.toList ++ report.toList ++ settings.toList
  | .validate input => [input]
  | .batch input output settings => input :: output :: settings.toList

/-- The directories a request goes over. -/
def directoriesOf : Command.Request → List String
  | .batch input output _ => [input, output]
  | _ => []

/-- The picture of what a request names. -/
def picture (r : Command.Request) : IO Tree := do
  let mut tree : Tree := {}
  for path in pathsOf r do
    tree ← addWay tree ⟨path, []⟩
  for path in directoriesOf r do
    if let some place := tree.directory? ⟨path, []⟩ then tree ← addBelow tree place
  return tree

/-! ## 2. The changes -/

/-- Writes an entry to the file system. -/
def writeEntry (place : List String) : Entry → IO Unit
  | .directory => IO.FS.createDirAll (placeText place)
  | .file (.text s) => IO.FS.writeFile (placeText place) s
  | .file (.bytes bs) => IO.FS.writeBinFile (placeText place) ⟨bs.toArray⟩

/-- Writes the entries in which a tree differs from an earlier one. -/
def writeChanges (earlier later : Tree) : IO Unit := do
  for (place, entry) in later.entries do
    if earlier.find? place != some entry then writeEntry place entry

/-- Runs the program. -/
def run (words : List String) : IO UInt32 := do
  let before ← match Command.read words with
    | .run r => picture r
    | _ => pure {}
  let result := Command.execute before words
  writeChanges before result.tree
  IO.print result.output
  IO.eprint result.complaint
  return result.exitCode.number

end InfraDiagram.Program

def main (words : List String) : IO UInt32 := InfraDiagram.Program.run words
