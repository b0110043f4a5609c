import InfraDiagram.Graph.Basic
import InfraDiagram.Symbol.Basic

/-!
# Giving out symbols

Variables are numbered in the order in which they are given out. A registered name is made from the
node's own name: what cannot stand in it becomes `_`, and a number tells equal names apart. A name
is only given out if neither it nor any of the four names its satellites would have is taken; then
all five are taken.
-/

namespace InfraDiagram

/-! ## 1. Names that can be registered -/

/-- The characters of a registered name: ASCII letters, digits, `_`, `-` and the blank. -/
def isResourceChar (c : Char) : Bool := Text.isNameChar c || c == ' '

/-- A name with every character that cannot be registered made `_`, and without blanks at its
    ends; the fallback if nothing is left. -/
def sanitize (name fallback : String) : String :=
  let cleaned := name.toList.map fun c => if isResourceChar c then c else '_'
  match Text.trimChars cleaned with
  | [] => fallback
  | cs => String.ofList cs

/-! ## 2. The state -/

/-- What has been given out: the number of variables issued, for each base the number of candidates
    looked at, the names taken, and the symbols. -/
structure Allocator where
  scheme : NamingScheme
  issued : Nat := 0
  counters : List (String × Nat) := []
  taken : List String := []
  table : SymbolTable := {}
  deriving DecidableEq, Repr

namespace Allocator

/-- The `k`th candidate for a base. Where every name is counted they start with 1, else with the
    bare base. -/
def candidate (scheme : NamingScheme) (base : String) (k : Nat) : String :=
  match scheme with
  | .counted => base ++ toString (k + 1)
  | .bare => if k = 0 then base else base ++ toString k

/-- The names a resource takes: its own, and those of its satellites. -/
def family (resource : String) : List String :=
  resource :: Satellite.all.map fun k => resource ++ k.resourceSuffix

/-- Whether no name of a family is taken. -/
def isFree (taken : List String) (resource : String) : Bool :=
  (family resource).all fun name => !taken.contains name

/-- The first free candidate from the `k`th on, and the number of the one after it. A name that is
    taken stands in the way of two candidates at most, which bounds the search. -/
def search (scheme : NamingScheme) (taken : List String) (base : String) : Nat → Nat → String × Nat
  | 0, k => (candidate scheme base k, k + 1)
  | rounds + 1, k =>
    let name := candidate scheme base k
    if isFree taken name then (name, k + 1) else search scheme taken base rounds (k + 1)

/-- The number of candidates for a base looked at so far. -/
def counter (a : Allocator) (base : String) : Nat := (a.counters.lookup base).getD 0

/-- Gives out a symbol for a base. -/
def nextSymbol (a : Allocator) (base : String) : Symbol × Allocator :=
  let (resource, k) := search a.scheme a.taken base (2 * a.taken.length) (a.counter base)
  let symbol : Symbol := ⟨"a" ++ toString (a.issued + 1), resource⟩
  (symbol, { a with
    issued := a.issued + 1
    counters := (base, k) :: a.counters.filter fun c => c.1 != base
    taken := family resource ++ a.taken })

/-! ## 3. Nodes and the default network -/

/-- The symbol of a node; asked again for an id, it is the first one given out. -/
def allocate (a : Allocator) (n : Node) : Symbol × Allocator :=
  match a.table.get? n.id with
  | some symbol => (symbol, a)
  | none =>
    let (symbol, b) := a.nextSymbol (sanitize n.name n.kind.label)
    (symbol, { b with table := { b.table with entries := b.table.entries ++ [(n.id, symbol)] } })

/-- The symbol of the network made for nodes outside any network. -/
def allocateDefaultNetwork (a : Allocator) (name : String) : Symbol × Allocator :=
  match a.table.defaultNetwork with
  | some symbol => (symbol, a)
  | none =>
    let (symbol, b) := a.nextSymbol (sanitize name NodeKind.vpc.label)
    (symbol, { b with table := { b.table with defaultNetwork := some symbol } })

end Allocator

end InfraDiagram
