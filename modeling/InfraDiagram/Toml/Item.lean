/-!
# TOML tables under construction

A TOML document may write a table in pieces: under a header, by dotted keys, and as the table around
a table that has a header. Which pieces go together depends on how a table came to be (`Origin`):

* a header may name a table that was only passed through so far, and no other;
* a dotted key may go into tables that dotted keys made, and no others;
* a table or array written as a value is closed: nothing is ever added to it.

An operation gives `none` where these rules are broken or a key is set twice.
-/

namespace InfraDiagram.Toml

/-! ## 1. Items -/

/-- How a table came to be. -/
inductive Origin where
  /-- It has a header of its own. -/
  | header
  /-- It lies on the way to a table with a header. -/
  | passed
  /-- Dotted keys made it. -/
  | dotted
  deriving DecidableEq, Repr

/-- What stands under a key. Numbers with a point and dates are kept as their text. -/
inductive Item where
  | str (s : String)
  | int (i : Int)
  | float (text : String)
  | bool (b : Bool)
  | date (text : String)
  | array (items : List Item)
  | inline (entries : List (String × Item))
  | table (origin : Origin) (entries : List (String × Item))
  | tables (elements : List (List (String × Item)))
  deriving Repr

/-- The entries of a table, in the order in which their keys turned up. -/
abbrev Entries := List (String × Item)

namespace Entries

/-- The item under a key. -/
def get? (entries : Entries) (key : String) : Option Item :=
  (entries.find? fun e => e.1 == key).map Prod.snd

/-- Sets what stands under a key, depending on what stands there already. -/
def alter (key : String) (f : Option Item → Option Item) : Entries → Option Entries
  | [] => (f none).map fun v => [(key, v)]
  | (k, v) :: rest =>
    if k == key then (f (some v)).map fun v => (k, v) :: rest
    else (alter key f rest).map ((k, v) :: ·)

/-! ## 2. Tables by path -/

/-- Changes the last table of an array of tables. -/
def alterLast (f : Entries → Option Entries) :
    List (List (String × Item)) → Option (List (List (String × Item)))
  | [] => none
  | [t] => (f t).map ([·])
  | t :: ts => (alterLast f ts).map (t :: ·)

/-- Changes the table at a path, which is made where it is absent. `f` is told how the table came
    to be; the table the path starts from counts as one with a header. -/
def alterAt (dotted : Bool) (f : Origin → Entries → Option Entries) :
    Origin → List String → Entries → Option Entries
  | origin, [], entries => f origin entries
  | _, k :: ks, entries =>
    alter k (fun
      | none =>
        let origin := if dotted then Origin.dotted else .passed
        (alterAt dotted f origin ks []).map (.table origin)
      | some (.table origin sub) =>
        if dotted && origin == .header then none
        else (alterAt dotted f origin ks sub).map (.table origin)
      | some (.tables elements) =>
        (alterLast (alterAt dotted f .header ks) elements).map .tables
      | some _ => none) entries

/-- Sets a key, which may be dotted, in a table. -/
def set (path : List String) (key : String) (item : Item) (entries : Entries) : Option Entries :=
  alterAt true (fun origin entries =>
    if !path.isEmpty && origin != .dotted then none
    else alter key (fun | none => some item | some _ => none) entries) .header path entries

/-- Opens the table of a header. -/
def openTable (path : List String) (key : String) (root : Entries) : Option Entries :=
  alterAt false (fun _ entries =>
    alter key (fun
      | none => some (.table .header [])
      | some (.table .passed sub) => some (.table .header sub)
      | some _ => none) entries) .header path root

/-- Opens one more table in the array of tables of a header. -/
def openElement (path : List String) (key : String) (root : Entries) : Option Entries :=
  alterAt false (fun _ entries =>
    alter key (fun
      | none => some (.tables [[]])
      | some (.tables elements) => some (.tables (elements ++ [[]]))
      | some _ => none) entries) .header path root

/-- Sets a key in the table that the last header opened. -/
def setUnder (header path : List String) (key : String) (item : Item) (root : Entries) :
    Option Entries :=
  alterAt false (fun _ entries => set path key item entries) .header header root

end Entries

end InfraDiagram.Toml
