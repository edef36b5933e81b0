/-
# TypeGraph.Table -- finite tables of types

A table lists types by identifier; neighbours are identifiers, and one that the
table does not list is an unresolved type.  A type may carry a text with which
it refuses to tell its kind.
-/
import ComposeStability.TypeGraph.Basic

namespace ComposeStability.TypeGraph

set_option autoImplicit false

/-- A property of a listed type, by identifier. -/
structure Property where
  name : String
  mutable : Bool
  type : Option String

/-- A listed type. -/
structure Node where
  kind : Kind
  text : String
  key : String
  name : String
  elem : Option String
  markers : Markers
  properties : List Property
  supertypes : List (Option String)
  /-- Asking for the kind fails with this text. -/
  refusal : Option String := none

/-- A finite table of types. -/
structure Table where
  entries : List (String × Node)

namespace Table

def find? (table : Table) (id : String) : Option Node :=
  (table.entries.find? fun entry => entry.1 == id).map (·.2)

def resolve (table : Table) (id : Option String) : Option Node :=
  id.bind table.find?

/-- The type graph of a table. -/
def graph (table : Table) : TypeGraph Node where
  kind n := match n.refusal with
    | some cause => .error (.refused cause)
    | none => .ok n.kind
  key n := .ok n.key
  name n := .ok n.name
  text n := .ok n.text
  elem n := .ok (table.resolve n.elem)
  markers n := .ok n.markers
  members n := .ok (n.properties.map fun p => ⟨p.name, p.mutable, table.resolve p.type⟩)
  supertypes n := .ok (n.supertypes.map table.resolve)
  depth := table.entries.length

end Table

end ComposeStability.TypeGraph
