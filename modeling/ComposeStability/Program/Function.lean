/-
# Program.Function -- functions of a program

A function is named by its package path; a method also by the type it belongs
to.  A function is exported when its name starts with an upper-case letter.
-/
import ComposeStability.Program.TypeView
import ComposeStability.Composable.Analysis
import ComposeStability.Directive

namespace ComposeStability.Program

set_option autoImplicit false

open TypeGraph (Failure)

/-- The visibility of functions in reports. -/
def exportedText : String := "exported"

@[inherit_doc exportedText]
def unexportedText : String := "unexported"

namespace Packages

/-- The type a receiver is declared with, without the star in front of it. -/
def receiverBase (t : Ty) : Ty :=
  match t with
  | .pointer elem => elem
  | t => t

/-- The name of the declared type that a method belongs to. -/
def receiverTypeName? (ps : Packages) (f : Source.FuncDecl) : Option String :=
  f.receiverType?.bind fun t =>
    match ps.unalias (receiverBase t) with
    | .named _ name _ => some name
    | _ => none

/-- The name of a function, qualified by package path and receiver type. -/
def qualifiedName (ps : Packages) (path : String) (f : Source.FuncDecl) : String :=
  let owner := match ps.receiverTypeName? f with
    | some name => name ++ "."
    | none => ""
  path ++ "." ++ owner ++ f.name.name

/-- The display form of the results of a function. -/
def returnType (ps : Packages) (results : List (Variable Ty)) : String :=
  match results with
  | [] => "()"
  | [v] => ps.display v.type
  | vs => "(" ++ ", ".intercalate (vs.map fun v => ps.display v.type) ++ ")"

/-- A declared function as analysis sees it. -/
def describe (ps : Packages) (path : String) (f : Source.FuncDecl) (d : Directive.OnFunction) :
    Composable.Function Ty where
  name := f.name.name
  qualifiedName := ps.qualifiedName path f
  visibility := if Text.isExported f.name.name then exportedText else unexportedText
  returnType := ps.returnType f.signature.results
  receivers := (f.receiverType?.map fun t => (Stability.ReceiverKind.dispatch, some t)).toList
  params := f.signature.params.map fun v => (v.name, some v.type)
  nonRestartable := d.nonRestartable
  readonly := d.readonly

/-- Whether a function is a method of a type that is marked to be skipped. -/
def skippedReceiver (ps : Packages) (source : MarkerSource) (f : Source.FuncDecl) :
    Except Failure Bool :=
  match f.receiverType? with
  | none => .ok false
  | some t => (ps.markersOf source (receiverBase t)).map (·.has .skip)

end Packages

end ComposeStability.Program
