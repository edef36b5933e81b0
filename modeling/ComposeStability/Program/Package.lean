/-
# Program.Package -- packages and what they declare

A program is a list of packages.  A declared type is found by the path of its
package and its name; an alias, which may have type parameters, stands for
another type.  `unalias` follows aliases to a type that is none, and
`underlying` gives the structure of a declared type, both with type arguments
put in.
-/
import ComposeStability.Program.Type
import ComposeStability.Source.File

namespace ComposeStability.Program

set_option autoImplicit false

/-! ## Declarations -/

/-- A method of a declared type. -/
structure DeclaredMethod where
  name : String
  /-- The receiver is a pointer. -/
  onPointer : Bool
  signature : Signature Ty

/-- What a type name stands for. -/
inductive Meaning where
  /-- A type of its own, with its structure. -/
  | defined (typeParams : List String) (underlying : Ty) (methods : List DeclaredMethod)
  /-- Another name of a type, in which the type parameters may occur. -/
  | alias (typeParams : List String) (target : Ty)

/-- A declared type name. -/
structure TypeDecl where
  name : String
  meaning : Meaning

/-- A package. -/
structure Package where
  path : String
  name : String
  types : List TypeDecl := []
  consts : List (Variable Ty) := []
  vars : List (Variable Ty) := []
  funcs : List (Method Ty) := []
  /-- The paths of the imported packages. -/
  imports : List String := []
  files : List Source.File := []
  /-- Identifies the package among others, which may have the same path. -/
  id : String := path
  /-- The paths of the files it is compiled from. -/
  sources : List String := []
  /-- The type checker has results for the package. -/
  checked : Bool := true
  /-- The number of errors in the package. -/
  errors : Nat := 0

/-- What a name at package level stands for. -/
inductive Object where
  | type (decl : TypeDecl)
  | const (type : Ty)
  | var (type : Ty)
  | func (signature : Signature Ty)

/-- The object with a given name; of several the first declared. -/
def Package.lookup (p : Package) (name : String) : Option Object :=
  let all :=
    p.types.map (fun d => (d.name, Object.type d)) ++
      p.consts.map (fun v => (v.name, Object.const v.type)) ++
      p.vars.map (fun v => (v.name, Object.var v.type)) ++
      p.funcs.map (fun f => (f.name, Object.func f.signature))
  (all.find? fun entry => entry.1 == name).map (·.2)

/-- The packages of a program. -/
abbrev Packages := List Package

/-- The types that the language declares. -/
def predeclared (name : String) : Option Meaning :=
  match name with
  | "error" =>
      some (.defined [] (.interface [⟨"Error", ⟨[], [⟨"", .basic "string"⟩], false⟩⟩] []) [])
  | "comparable" => some (.defined [] .comparability [])
  | _ => none

namespace Packages

def find? (ps : Packages) (path : String) : Option Package :=
  List.find? (fun p => p.path == path) ps

/-- What a qualified type name stands for. -/
def meaning? (ps : Packages) (path name : String) : Option Meaning :=
  if path.isEmpty then predeclared name
  else ((ps.find? path).bind fun p => p.types.find? fun d => d.name == name).map (·.meaning)

/-- The number of declared types, which bounds every chain of aliases. -/
def typeCount (ps : Packages) : Nat :=
  (ps.flatMap fun p => p.types).length

/-- The type parameters of a declared type or alias. -/
def typeParams (ps : Packages) (path name : String) : List String :=
  match ps.meaning? path name with
  | some (.defined params _ _) => params
  | some (.alias params _) => params
  | none => []

/-- Follows at most `fuel` aliases. -/
def unaliasFrom (ps : Packages) : Nat → Ty → Ty
  | 0, t => t
  | fuel + 1, .named path name args =>
      match ps.meaning? path name with
      | some (.alias params target) => unaliasFrom ps fuel (target.instantiate params args)
      | _ => .named path name args
  | _ + 1, t => t

/-- The type that a type is another name of, or the type itself. -/
def unalias (ps : Packages) (t : Ty) : Ty :=
  unaliasFrom ps (ps.typeCount + 1) t

/-- The structure of a type. -/
def underlying (ps : Packages) (t : Ty) : Ty :=
  match ps.unalias t with
  | .named path name args =>
      match ps.meaning? path name with
      | some (.defined params shape _) =>
          if args.isEmpty then ps.unalias shape
          else (ps.unalias shape).instantiate params args
      | _ => .invalid
  | t => t

/-! ## Display -/

/-- Packages are named by their paths: the form that identifies a type. -/
def byPath (ps : Packages) : Ty.Naming where
  package path := path
  typeParams := ps.typeParams

/-- Packages are named by their names: the form shown to readers. -/
def byName (ps : Packages) : Ty.Naming where
  package path := ((ps.find? path).map (·.name)).getD path
  typeParams := ps.typeParams

/-- The text that identifies a type. -/
def key (ps : Packages) (t : Ty) : String := t.text ps.byPath

/-- The display form of a type. -/
def display (ps : Packages) (t : Ty) : String := t.text ps.byName

end Packages

end ComposeStability.Program
