/-
# Program.MethodSet -- selecting a field or method by name

A name selects the field or method at the smallest depth of embedding; if there
are several at that depth, it selects none.
-/
import ComposeStability.Program.Identity

namespace ComposeStability.Program

set_option autoImplicit false

/-- What a name selects. -/
inductive Selected where
  | field (type : Ty)
  /-- A method, with its signature and whether it needs a pointer. -/
  | method (signature : Signature Ty) (onPointer : Bool)

/-- A type that is searched, and how it was reached. -/
structure Embedded where
  type : Ty
  /-- A pointer was followed on the way. -/
  indirect : Bool
  /-- The type was reached more than once at this depth. -/
  multiple : Bool

namespace Packages

/-- A type without the pointer in front of it, and whether there was one. -/
def dereference (ps : Packages) (t : Ty) : Ty × Bool :=
  match ps.unalias t with
  | .pointer elem => (elem, true)
  | _ => (t, false)

/-- The method of an interface with a given name, searching embedded interfaces
`fuel` deep. -/
def interfaceMethod? (ps : Packages) (name : String) : Nat → Ty → Option (Signature Ty)
  | 0, _ => none
  | fuel + 1, t =>
      match ps.underlying t with
      | .interface methods embeds =>
          match methods.find? fun m => m.name == name with
          | some m => some m.signature
          | none => embeds.findSome? (interfaceMethod? ps name fuel)
      | _ => none

/-- The declared method of a type with a given name. -/
def declaredMethod? (ps : Packages) (t : Ty) (name : String) : Option DeclaredMethod :=
  match ps.unalias t with
  | .named path typeName _ =>
      match ps.meaning? path typeName with
      | some (.defined _ _ methods) => methods.find? fun m => m.name == name
      | _ => none
  | _ => none

/-- What a name selects in a type itself, with the ways it is selected, and the
types embedded in it. -/
def selectHere (ps : Packages) (name : String) (e : Embedded) :
    List Selected × List Embedded :=
  match ps.declaredMethod? e.type name with
  | some m => ([.method m.signature m.onPointer], [])
  | none =>
      match ps.underlying e.type with
      | .struct fields =>
          let found := (fields.filter fun f => f.name == name).map fun f => Selected.field f.type
          let embeds := (fields.filter fun f => f.embedded && f.name != name).map fun f =>
            let (type, isPointer) := ps.dereference f.type
            (⟨type, e.indirect || isPointer, e.multiple⟩ : Embedded)
          (found, embeds)
      | .interface _ _ =>
          (((ps.interfaceMethod? name (ps.typeCount + 2) e.type).map fun s =>
            Selected.method s false).toList, [])
      | _ => ([], [])

/-- Types reached several times are searched once. -/
def consolidate (ps : Packages) (found : List Embedded) : List Embedded :=
  found.foldl (fun kept e =>
    match kept.find? fun k => ps.identical k.type e.type with
    | none => kept ++ [e]
    | some _ => kept.map fun k => if ps.identical k.type e.type then { k with multiple := true } else k)
    []

/-- Searches one depth of embedding after the other, at most `fuel` of them. -/
def selectFrom (ps : Packages) (name : String) : Nat → List Ty → List Embedded → Option (Selected × Bool)
  | 0, _, _ => none
  | fuel + 1, seen, current =>
      let new := current.filter fun e => !(seen.any fun t => ps.identical t e.type)
      let results := new.map fun e => (e, ps.selectHere name e)
      let hits := results.flatMap fun (e, found, _) => found.map fun s => (s, e)
      match hits with
      | [(s, e)] => if e.multiple then none else some (s, e.indirect)
      | _ :: _ :: _ => none
      | [] =>
          let next := ps.consolidate (results.flatMap fun (_, _, embeds) => embeds)
          if next.isEmpty then none
          else selectFrom ps name fuel (new.map (·.type) ++ seen) next

/-- What a name selects in a type. -/
def select? (ps : Packages) (t : Ty) (name : String) : Option Selected :=
  let (base, isPointer) := ps.dereference t
  let onInterface := match ps.underlying base with
    | .interface _ _ | .any | .comparability => isPointer
    | _ => false
  if onInterface then none
  else
    match ps.selectFrom name (ps.typeCount + 2) [] [⟨base, isPointer, false⟩] with
    | some (.method signature true, false) =>
        if isPointer then some (.method signature true) else none
    | some (s, _) => some s
    | none => none

end Packages

end ComposeStability.Program
