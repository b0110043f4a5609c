import InfraDiagram.Text.Blank

/-!
# Services and their catalog

A catalog gives services by name: the port an edge without ports gets, and the description of a
rule. Names are compared without regard to the case of ASCII letters, and of several services with
one name the first counts.
-/

namespace InfraDiagram

/-- A service with its default port and the description of its rules. -/
structure Service where
  name : String
  port : UInt16
  label : String
  deriving DecidableEq, Repr

/-- Services, and the description of rules for which there is no other. -/
structure Catalog where
  services : List Service
  fallbackLabel : String
  deriving DecidableEq, Repr

namespace Catalog

/-- The catalog used where none is given. -/
def standard : Catalog where
  services := [
    ⟨"ssh", 22, "SSH"⟩,
    ⟨"web", 80, "Web Server"⟩,
    ⟨"http", 80, "Web Server"⟩,
    ⟨"https", 443, "HTTPS"⟩,
    ⟨"mysql", 3306, "MySQL"⟩,
    ⟨"postgres", 5432, "Postgres"⟩,
    ⟨"database", 3306, "MySQL"⟩]
  fallbackLabel := "Unknown"

/-- A catalog without services: every edge has to give its ports. -/
def empty : Catalog := ⟨[], "Unknown"⟩

/-- Whether a service goes by a name. -/
def goesBy (name : String) (s : Service) : Bool := Text.sameFolded s.name name

/-- The service of a name. -/
def service? (c : Catalog) (name : String) : Option Service := c.services.find? (goesBy name)

/-- The default port of a service. -/
def port? (c : Catalog) (name : String) : Option UInt16 := (c.service? name).map Service.port

/-- The description of a rule: that of the first service with the port, else that of the service
    named, else the fallback. -/
def label (c : Catalog) (port : UInt16) (service : Option String) : String :=
  match c.services.find? fun s => s.port == port with
  | some s => s.label
  | none =>
    match service.bind c.service? with
    | some s => s.label
    | none => c.fallbackLabel

/-- Puts a service in the place of the first one of its name, or at the end. -/
def put (s : Service) : List Service → List Service
  | [] => [s]
  | t :: rest => if goesBy s.name t then s :: rest else t :: put s rest

/-- Adds or replaces a service. -/
def insert (c : Catalog) (s : Service) : Catalog := { c with services := put s c.services }

end Catalog

end InfraDiagram
