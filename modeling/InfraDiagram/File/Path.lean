/-!
# Paths

A path is a text someone gave, and names below it that were found by walking a directory or made up
from such names. Its components are the names between slashes; empty ones do not count, nor does a
`.` that is not at the very start.
-/

namespace InfraDiagram.File

/-! ## 1. Names -/

/-- The name before its last dot and what is after it, if the dot is not the first character. -/
def splitExtension (name : String) : Option (String × String) :=
  let after := name.toList.reverse.takeWhile fun c => c != '.'
  match name.toList.reverse.drop after.length with
  | '.' :: before =>
    if before.isEmpty then none
    else some (String.ofList before.reverse, String.ofList after.reverse)
  | _ => none

/-- What is after the last dot of a name. -/
def extension? (name : String) : Option String := (splitExtension name).map Prod.snd

/-- The name without its last extension. -/
def stem (name : String) : String := ((splitExtension name).map Prod.fst).getD name

/-- The name with its last extension replaced, or with one added. Without its extension, a name
    such as `..txt` leads to the directory above; it then stays that way. -/
def withExtension (ext : String) (name : String) : String :=
  if stem name == "." then ".." else stem name ++ "." ++ ext

/-! ## 2. Paths -/

/-- A path: a text that was given, and names below it. -/
structure Path where
  given : String
  below : List String := []
  deriving DecidableEq, Repr

namespace Path

/-- A name appended to a path's text. -/
def append (text name : String) : String :=
  if text.isEmpty then name
  else if text.toList.getLast? == some '/' then text ++ name
  else text ++ "/" ++ name

/-- The text of a path. -/
def text (p : Path) : String := p.below.foldl append p.given

/-- The pieces of a text between slashes. -/
def pieces : List Char → (current : List Char) → List String
  | [], current => [String.ofList current.reverse]
  | c :: cs, current =>
    if c == '/' then String.ofList current.reverse :: pieces cs [] else pieces cs (c :: current)

/-- The components of a text. A slash at the start is a component of its own. -/
def componentsOf (text : String) : List String :=
  let ps := pieces text.toList []
  let names := ps.filter fun p => p != "" && p != "."
  match ps with
  | "" :: _ :: _ => "/" :: names
  | "." :: _ => "." :: names
  | _ => names

/-- The components of a path. -/
def components (p : Path) : List String := componentsOf p.given ++ p.below

/-- The name of the file a path leads to. -/
def fileName? (p : Path) : Option String :=
  match p.components.getLast? with
  | some name => if name == ".." || name == "/" || name == "." then none else some name
  | none => none

/-- The extension of the file a path leads to. -/
def extension? (p : Path) : Option String := p.fileName?.bind File.extension?

/-- The steps from the place where a path starts: its names in turn, a `.` and a `..` included. -/
def steps (p : Path) : List String :=
  let names := (pieces p.given.toList []).filter fun piece => piece != ""
  (if p.given.toList.head? == some '/' then "/" :: names else names) ++ p.below

/-- The steps to what a path leads to, and those to the directories around it, from the nearest one
    outwards. A `.` at the end of a path is a step of its own, but leads to no directory further in. -/
def ways (p : Path) : List (List String) :=
  let outer := p.components.dropLast
  p.steps :: (List.range outer.length).reverse.map fun n => outer.take (n + 1)

/-- Whether a path, as it is written, can only be a directory. -/
def endsInSlash (p : Path) : Bool := p.below.isEmpty && p.given.toList.getLast? == some '/'

/-- The path of the directory around what a path leads to, when names stand below. -/
def parent (p : Path) : Path := { p with below := p.below.dropLast }

end Path

/-- Whether a list of names stands before another, name by name. -/
def namesLe : List String → List String → Bool
  | [], _ => true
  | _ :: _, [] => false
  | a :: as, b :: bs => if a < b then true else if b < a then false else namesLe as bs

end InfraDiagram.File
