/-
# TypeGraph.Basic -- types as classification sees them

A type graph describes types by their kind, names, markers and neighbours.  The
description is read node by node, so a graph may be cyclic.  A type may refuse
every question that it is asked.
-/
import ComposeStability.TypeGraph.Marker

namespace ComposeStability.TypeGraph

set_option autoImplicit false

/-- The structural category of a type. -/
inductive Kind where
  /-- A malformed or unresolved reference. -/
  | invalid
  /-- A wrapper that may be empty. -/
  | nullable
  | typeParameter
  | function
  /-- Numbers, truth values, text and unit types. -/
  | primitive
  | immutableCollection
  | mutableCollection
  /-- A wrapper of a single value. -/
  | value
  /-- A fixed set of instances. -/
  | enum
  /-- A declaration with members to inspect. -/
  | composite
  /-- A declaration without a concrete shape. -/
  | interface
  /-- A declaration whose members cannot be inspected. -/
  | hidden
deriving DecidableEq, Repr

namespace Kind

/-- All kinds with their names. -/
def names : List (Kind × String) :=
  [(.invalid, "invalid"), (.nullable, "nullable"), (.typeParameter, "type_parameter"),
   (.function, "function"), (.primitive, "primitive"),
   (.immutableCollection, "immutable_collection"), (.mutableCollection, "mutable_collection"),
   (.value, "value"), (.enum, "enum"), (.composite, "class"), (.interface, "interface"),
   (.hidden, "opaque")]

def name (k : Kind) : String :=
  ((names.find? fun entry => entry.1 == k).map (·.2)).getD ""

def ofName? (name : String) : Option Kind :=
  (names.find? fun entry => entry.2 == name).map (·.1)

end Kind

/-- Why a question about a type got no answer. -/
inductive Failure where
  /-- The type refused to be inspected. -/
  | refused (cause : String)
  /-- More types are nested in each other than the graph allows. -/
  | tooDeep
  /-- Whether the instances of a declaration are enumerations was not decided yet; the instance that
  was asked for decides it. -/
  | undecided (path name : String) (enum : Bool)
deriving DecidableEq, Repr

/-- What is said about a failure. -/
def Failure.cause : Failure → String
  | .refused cause => cause
  | .tooDeep => "types are nested too deeply"
  | .undecided path name _ => path ++ "." ++ name ++ " is not decided"

/-- A declared property of a type. -/
structure Member (τ : Type) where
  name : String
  /-- The property can be assigned after construction. -/
  mutable : Bool
  type : Option τ

end ComposeStability.TypeGraph

namespace ComposeStability

set_option autoImplicit false

open TypeGraph in
/-- A description of types; an absent neighbour is an unresolved type. -/
structure TypeGraph (τ : Type) where
  kind : τ → Except Failure Kind
  /-- Identifies a type, generic arguments included. -/
  key : τ → Except Failure String
  /-- The qualified name of the declaration; empty for unnamed types. -/
  name : τ → Except Failure String
  /-- The display form. -/
  text : τ → Except Failure String
  /-- The wrapped type of a nullable or value type. -/
  elem : τ → Except Failure (Option τ)
  markers : τ → Except Failure Markers
  members : τ → Except Failure (List (Member τ))
  supertypes : τ → Except Failure (List (Option τ))
  /-- A bound on the number of types that can be nested in each other. -/
  depth : Nat

end ComposeStability
