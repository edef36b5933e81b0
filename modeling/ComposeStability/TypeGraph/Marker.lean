/-
# TypeGraph.Marker -- annotations on type declarations

A marker tells classification what it cannot see in the shape of a type.
-/
import ComposeStability.Flags
import ComposeStability.Text.Number

namespace ComposeStability.TypeGraph

set_option autoImplicit false

/-- An annotation on a type declaration. -/
inductive Marker where
  /-- The type is stable. -/
  | stable
  /-- The type is immutable, hence stable. -/
  | immutable
  /-- Only the declared members count. -/
  | serializable
  /-- The decision is left to run time. -/
  | runtime
  /-- Methods of the type are left out of reports. -/
  | skip
deriving DecidableEq, Repr

/-- A set of markers. -/
abbrev Markers := Flags 8

namespace Marker

/-- All markers, in the order of their bits. -/
def all : List Marker := [.stable, .immutable, .serializable, .runtime, .skip]

def bit : Marker → BitVec 8
  | .stable => 1
  | .immutable => 2
  | .serializable => 4
  | .runtime => 8
  | .skip => 16

def name : Marker → String
  | .stable => "stable"
  | .immutable => "immutable"
  | .serializable => "serializable"
  | .runtime => "runtime"
  | .skip => "skip"

/-- The marker with a given name. -/
def ofName? (name : String) : Option Marker :=
  all.find? fun m => m.name == name

end Marker

namespace Markers

/-- Whether a marker is set. -/
def has (ms : Markers) (m : Marker) : Bool :=
  ms.enabled m.bit

/-- Whether the stable or the immutable marker is set. -/
def declareStable (ms : Markers) : Bool :=
  ms.any [Marker.stable.bit, Marker.immutable.bit]

def ofList (ms : List Marker) : Markers :=
  Flags.ofList (ms.map Marker.bit)

/-- The markers with these names; other names count for nothing. -/
def ofNames (names : List String) : Markers := ofList (names.filterMap Marker.ofName?)

/-- The markers that are set, in the order of their bits. -/
def toList (ms : Markers) : List Marker :=
  Marker.all.filter ms.has

/-- The markers as five binary digits. -/
def text (ms : Markers) : String :=
  "markers(" ++ Text.padded 2 5 ms.bits.toNat ++ ")"

end Markers

end ComposeStability.TypeGraph
