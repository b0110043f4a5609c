import InfraDiagram.Document.Basic

/-!
# Database engines

The engines a database can be declared with. An engine is named without regard to blanks around the
name and to the case of ASCII letters.
-/

namespace InfraDiagram

/-- A database engine. -/
inductive Engine where
  | mysql
  | postgres
  deriving DecidableEq, Repr

namespace Engine

/-- The name of an engine. -/
def text : Engine → String
  | .mysql => "mysql"
  | .postgres => "postgres"

/-- The name of an engine in the stack program. -/
def constant : Engine → String
  | .mysql => "MYSQL"
  | .postgres => "POSTGRES"

/-- The port an engine listens on. -/
def port : Engine → UInt16
  | .mysql => 3306
  | .postgres => 5432

/-- A name of an engine without blanks around it and in small letters. -/
def normalize (s : String) : String := Text.lower (Text.trim s)

/-- The engine of a name. -/
def ofText? (s : String) : Option Engine :=
  match normalize s with
  | "mysql" => some .mysql
  | "postgres" => some .postgres
  | "postgresql" => some .postgres
  | _ => none

/-- The engine of a node, if its properties name one. -/
def ofNode? (n : Node) : Option Engine :=
  match n.property? Property.engine with
  | some (.str s) => ofText? s
  | _ => none

end Engine

end InfraDiagram
