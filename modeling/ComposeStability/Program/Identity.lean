/-
# Program.Identity -- when two types are the same

Two types are the same if they have the same canonical form.  It has no
aliases, spells each predeclared type in one way, drops the names of parameters
and results, and gives an interface by the methods and the further conditions
that it has, its own and embedded ones alike, in a fixed order.
-/
import ComposeStability.Program.Package

namespace ComposeStability.Program

set_option autoImplicit false

/-- The one spelling of a predeclared type. -/
def plainName : String → String
  | "byte" => "uint8"
  | "rune" => "int32"
  | name => name

/-- Variables by their types alone. -/
def bareVariables (f : Ty → Ty) (vs : List (Variable Ty)) : List (Variable Ty) :=
  vs.map fun v => ⟨"", f v.type⟩

/-- A signature by the types in it. -/
def bareSignature (f : Ty → Ty) (s : Signature Ty) : Signature Ty :=
  ⟨bareVariables f s.params, bareVariables f s.results, s.variadic⟩

namespace Packages

/-- The methods and further conditions of an interface, with those of the interfaces it embeds,
`fuel` deep. -/
def interfaceParts (ps : Packages) :
    Nat → List (Method Ty) → List Ty → List (Method Ty) × List Ty
  | 0, methods, embeds => (methods, embeds)
  | fuel + 1, methods, embeds =>
      embeds.foldl (fun (methods, conditions) embedded =>
        match ps.underlying embedded with
        | .any => (methods, conditions)
        | .comparability => (methods, conditions ++ [.comparability])
        | .interface more inner =>
            let (more, inner) := interfaceParts ps fuel more inner
            (methods ++ more, conditions ++ inner)
        | _ => (methods, conditions ++ [embedded])) (methods, [])

/-- Methods by name, each once. -/
def distinctMethods (methods : List (Method Ty)) : List (Method Ty) :=
  Ty.sortMethods (methods.foldl (fun kept m =>
    if kept.any fun k => k.name == m.name then kept else kept ++ [m]) [])

/-- Types by their texts, each once. -/
def distinctTypes (ps : Packages) (types : List Ty) : List Ty :=
  let keyed := (types.map fun t => (ps.key t, t)).mergeSort fun a b => decide (a.1 ≤ b.1)
  (keyed.foldl (fun kept e => if kept.any fun k => k.1 == e.1 then kept else kept ++ [e]) []).map (·.2)

/-- The canonical form of a type, `fuel` deep. -/
def canonicalFrom (ps : Packages) : Nat → Ty → Ty
  | 0, t => t
  | fuel + 1, t =>
      let part := canonicalFrom ps fuel
      match ps.unalias t with
      | .basic name => .basic (plainName name)
      | .any => .interface [] []
      | .named path name args => .named path name (args.map part)
      | .pointer elem => .pointer (part elem)
      | .slice elem => .slice (part elem)
      | .map key value => .map (part key) (part value)
      | .array length elem => .array length (part elem)
      | .chan direction elem => .chan direction (part elem)
      | .func signature => .func (bareSignature part signature)
      | .struct fields => .struct (fields.map fun f => { f with type := part f.type })
      | .interface methods embeds =>
          let (methods, conditions) := ps.interfaceParts (ps.typeCount + fuel) methods embeds
          .interface
            ((distinctMethods methods).map fun m => ⟨m.name, bareSignature part m.signature⟩)
            (ps.distinctTypes (conditions.map part))
      | .union terms => .union (terms.map fun term => ⟨term.tilde, part term.type⟩)
      | t => t

/-- A bound on the depth of a type that is written out. -/
def writtenDepth : Nat := 10000

/-- The canonical form of a type. -/
def canonical (ps : Packages) (t : Ty) : Ty := ps.canonicalFrom writtenDepth t

/-- Whether two types are the same. -/
def identical (ps : Packages) (a b : Ty) : Bool :=
  ps.key (ps.canonical a) == ps.key (ps.canonical b)

end Packages

end ComposeStability.Program
