/-
# Program.TypeView -- the types of a program as a type graph

Pointers may be empty; slices, maps and channels change in place; arrays and
declared types around one value are wrappers; structures have members, and the
interfaces that an interface embeds are its supertypes.  A field can change if
its tag says so, or if its type belongs to one of the synchronisation packages.

A declared type of basic values is an enumeration if its package has a constant
of it.  For a generic type this is decided once, by the instance that is asked
for first (`settle`).
-/
import ComposeStability.Program.Identity
import ComposeStability.Program.StructTag
import ComposeStability.TypeGraph.Basic

namespace ComposeStability.Program

set_option autoImplicit false

open TypeGraph (Kind Failure Markers Member)

/-- Where the markers of a declared type come from, by path and name. -/
abbrev MarkerSource := String → String → Except Failure Markers

/-- A source without markers. -/
def MarkerSource.none : MarkerSource := fun _ _ => .ok Flags.empty

/-- The packages whose types guard or hold shared state. -/
def isSyncPackage (path : String) : Bool :=
  path == "sync" || path == "sync/atomic"

/-- A bound on the nesting of types in one another. -/
def nestingLimit : Nat := 10000

namespace Packages

/-- Whether a field can change after construction. -/
def isMutableField (ps : Packages) (f : Field Ty) : Bool :=
  tagValue "stability" f.tag == some "mutable" ||
    match ps.unalias f.type with
    | .named path _ _ => isSyncPackage path
    | _ => false

/-- Whether a package declares a constant of a declared type.  A constant whose name stands for
something else does not count. -/
def isEnum (ps : Packages) (path name : String) (args : List Ty) : Bool :=
  (ps.find? path).any fun p => p.consts.any fun c =>
    match p.lookup c.name with
    | some (.const type) => ps.identical type (.named path name args)
    | _ => false

/-- The markers of a type, which only declared types have. -/
def markersOf (ps : Packages) (source : MarkerSource) (t : Ty) : Except Failure Markers :=
  match ps.unalias t with
  | .named path name _ => source path name
  | _ => .ok Flags.empty

/-- Decides whether an instance of a declared type is an enumeration. -/
abbrev EnumTest := String → String → List Ty → Except Failure Bool

/-- The kind of a declared type. -/
def namedKind (ps : Packages) (source : MarkerSource) (test : EnumTest) (path name : String)
    (args : List Ty) : Except Failure Kind := do
  if (← source path name).has .runtime then return .hidden
  if isSyncPackage path then return .mutableCollection
  match ps.underlying (.named path name args) with
  | .struct [] => return .primitive
  | .struct [f] => return if ps.isMutableField f then .composite else .value
  | .struct _ => return .composite
  | .interface _ _ | .any | .comparability => return .interface
  | .invalid | .unsafePointer => return .invalid
  | .basic _ => return if ← test path name args then .enum else .value
  | _ => return .value

/-- The kind of a type. -/
def kindOf (ps : Packages) (source : MarkerSource) (test : EnumTest) (t : Ty) : Except Failure Kind :=
  match ps.unalias t with
  | .pointer _ => .ok .nullable
  | .typeParam _ => .ok .typeParameter
  | .func _ => .ok .function
  | .basic _ => .ok .primitive
  | .slice _ | .map _ _ | .chan _ _ => .ok .mutableCollection
  | .array _ _ => .ok .value
  | .struct [] => .ok .primitive
  | .struct _ => .ok .composite
  | .interface _ _ | .any | .comparability => .ok .interface
  | .named path name args => ps.namedKind source test path name args
  | .invalid | .unsafePointer | .union _ => .ok .invalid

/-- The qualified name of a type; empty if it has none. -/
def nameOf (ps : Packages) (t : Ty) : String :=
  match ps.unalias t with
  | .named path name _ => Ty.qualified path name
  | .basic name => name
  | .invalid => "invalid type"
  | .unsafePointer => "Pointer"
  | _ => ""

/-- The type inside a wrapper. -/
def elemOf (ps : Packages) (t : Ty) : Option Ty :=
  match ps.unalias t with
  | .pointer elem => some elem
  | .array _ elem => some elem
  | .named path name args =>
      match ps.underlying (.named path name args) with
      | .struct [f] => some f.type
      | .struct _ => none
      | shape => some shape
  | _ => none

/-- The fields of a structure as members. -/
def membersOf (ps : Packages) (t : Ty) : List (Member Ty) :=
  match ps.underlying t with
  | .struct fields => fields.map fun f => ⟨f.name, ps.isMutableField f, some f.type⟩
  | _ => []

/-- The types that an interface embeds. -/
def supertypesOf (ps : Packages) (t : Ty) : List (Option Ty) :=
  match ps.underlying t with
  | .interface _ embeds => embeds.map some
  | _ => []

/-- The type graph of a program, for a given test for enumerations. -/
def graphWith (ps : Packages) (source : MarkerSource) (test : EnumTest) : TypeGraph Ty where
  kind := ps.kindOf source test
  key t := .ok (ps.key t)
  name t := .ok (ps.nameOf t)
  text t := .ok (ps.display t)
  elem t := .ok (ps.elemOf t)
  markers := ps.markersOf source
  members t := .ok (ps.membersOf t)
  supertypes t := .ok (ps.supertypesOf t)
  depth := nestingLimit

/-- The type graph of a program, in which each instance of a type is an enumeration or not by itself. -/
def graph (ps : Packages) (source : MarkerSource) : TypeGraph Ty :=
  ps.graphWith source fun path name args => .ok (ps.isEnum path name args)

/-! ## Enumerations -/

/-- Which declarations were found to be enumerations or not. -/
abbrev EnumMemory := List ((String × String) × Bool)

/-- Answers from memory; what it does not hold is undecided. -/
def fromMemory (ps : Packages) (memory : EnumMemory) : EnumTest := fun path name args =>
  match memory.lookup (path, name) with
  | some enum => .ok enum
  | none => .error (.undecided path name (ps.isEnum path name args))

/-- Asks about the type graph, again whenever something was undecided, and keeps the decisions.  Each
time one more declaration is decided, so `fuel` need not exceed their number. -/
def settleFrom {α : Type} (ps : Packages) (source : MarkerSource)
    (ask : TypeGraph Ty → Except Failure α) : Nat → EnumMemory → Except Failure α × EnumMemory
  | 0, memory => (ask (ps.graphWith source (ps.fromMemory memory)), memory)
  | fuel + 1, memory =>
      match ask (ps.graphWith source (ps.fromMemory memory)) with
      | .error (.undecided path name enum) =>
          settleFrom ps source ask fuel (((path, name), enum) :: memory)
      | answer => (answer, memory)

@[inherit_doc settleFrom]
def settle {α : Type} (ps : Packages) (source : MarkerSource)
    (ask : TypeGraph Ty → Except Failure α) (memory : EnumMemory) : Except Failure α × EnumMemory :=
  ps.settleFrom source ask ps.typeCount memory

end Packages

end ComposeStability.Program
