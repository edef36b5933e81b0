/-
# Program.Type -- the types of the analyzed language

A type is written out in full up to the names of declared types, which refer to
declarations of a program by package path and name; types the language itself
declares have an empty path.  `text` is the display form of a type, for a given
way of naming packages.
-/
import ComposeStability.Text.Quoted
import ComposeStability.Text.Letter

namespace ComposeStability.Program

set_option autoImplicit false

/-! ## Parts of types -/

/-- A parameter or result. -/
structure Variable (τ : Type) where
  name : String
  type : τ
deriving Repr

/-- The parameters and results of a function. -/
structure Signature (τ : Type) where
  params : List (Variable τ)
  results : List (Variable τ)
  /-- The last parameter takes any number of arguments. -/
  variadic : Bool
deriving Repr, Inhabited

/-- A field of a structure. -/
structure Field (τ : Type) where
  name : String
  type : τ
  tag : String
  embedded : Bool
deriving Repr

/-- A method of an interface. -/
structure Method (τ : Type) where
  name : String
  signature : Signature τ
deriving Repr, Inhabited

/-- A term of a union of types. -/
structure Term (τ : Type) where
  tilde : Bool
  type : τ
deriving Repr

/-- Which way values pass through a channel. -/
inductive Direction where
  | both
  | send
  | receive
deriving DecidableEq, Repr

/-! ## Types -/

inductive Ty where
  /-- A type that could not be resolved. -/
  | invalid
  /-- A predeclared type of numbers, text or truth values. -/
  | basic (name : String)
  | unsafePointer
  /-- The predeclared name of the empty interface. -/
  | any
  /-- The constraint behind the predeclared name `comparable`. -/
  | comparability
  /-- A declared type; without arguments also a generic type itself. -/
  | named (path name : String) (args : List Ty)
  | typeParam (name : String)
  | pointer (elem : Ty)
  | slice (elem : Ty)
  | map (key value : Ty)
  | array (length : Nat) (elem : Ty)
  | chan (direction : Direction) (elem : Ty)
  | func (signature : Signature Ty)
  | struct (fields : List (Field Ty))
  | interface (methods : List (Method Ty)) (embeds : List Ty)
  | union (terms : List (Term Ty))

namespace Ty

instance : Inhabited Ty := ⟨.invalid⟩

/-- Methods of an interface: exported names first, then by name. -/
def sortMethods (methods : List (Method Ty)) : List (Method Ty) :=
  methods.mergeSort fun a b =>
    if Text.isExported a.name != Text.isExported b.name then Text.isExported a.name
    else decide (a.name ≤ b.name)

/-- An interface with its methods in order. -/
def interfaceOf (methods : List (Method Ty)) (embeds : List Ty) : Ty :=
  .interface (sortMethods methods) embeds

/-! ## Display -/

/-- How the display form names packages, and the type parameters of generic types. -/
structure Naming where
  package : String → String
  typeParams : String → String → List String

/-- A name with what qualifies it. -/
def qualified (qualifier name : String) : String :=
  if qualifier.isEmpty then name else qualifier ++ "." ++ name

/-- The names that the language itself declares: types, constants, and functions. -/
def universeNames : List String :=
  ["any", "bool", "byte", "comparable", "complex64", "complex128", "error", "float32", "float64",
   "int", "int8", "int16", "int32", "int64", "rune", "string", "uint", "uint8", "uint16", "uint32",
   "uint64", "uintptr", "true", "false", "iota", "nil", "append", "cap", "clear", "close",
   "complex", "copy", "delete", "imag", "len", "make", "max", "min", "new", "panic", "print",
   "println", "real", "recover"]

/-- A type parameter; one that hides a name of the language is marked. -/
def typeParamText (name : String) : String :=
  if name ∈ universeNames then name ++ "/* type parameter */" else name

/-- The type parameters of a generic type, all of them unconstrained. -/
def typeParamsText (names : List String) : String :=
  if names.isEmpty then "" else "[" ++ ", ".intercalate (names.map typeParamText) ++ " any]"

/-- A name before its type, if there is one. -/
def label (name : String) : String :=
  if name.isEmpty then "" else name ++ " "

mutual

/-- The display form of a type. -/
def text (n : Naming) : Ty → String
  | .invalid => "invalid type"
  | .basic name => name
  | .unsafePointer => "unsafe.Pointer"
  | .any => "any"
  | .comparability => "interface\x7bcomparable\x7d"
  | .named path name [] =>
      qualified (n.package path) name ++ typeParamsText (n.typeParams path name)
  | .named path name (arg :: args) =>
      qualified (n.package path) name ++ "[" ++ ", ".intercalate (arg.text n :: texts n args) ++ "]"
  | .typeParam name => typeParamText name
  | .pointer elem => "*" ++ elem.text n
  | .slice elem => "[]" ++ elem.text n
  | .map key value => "map[" ++ key.text n ++ "]" ++ value.text n
  | .array length elem => "[" ++ toString length ++ "]" ++ elem.text n
  | .chan .both (.chan .receive elem) => "chan (<-chan " ++ elem.text n ++ ")"
  | .chan .both elem => "chan " ++ elem.text n
  | .chan .send elem => "chan<- " ++ elem.text n
  | .chan .receive elem => "<-chan " ++ elem.text n
  | .func signature => "func" ++ signatureText n signature
  | .struct fields => "struct\x7b" ++ "; ".intercalate (fieldTexts n fields) ++ "\x7d"
  | .interface methods embeds =>
      "interface\x7b" ++ "; ".intercalate (methodTexts n methods ++ texts n embeds) ++ "\x7d"
  | .union terms => " | ".intercalate (termTexts n terms)

def texts (n : Naming) : List Ty → List String
  | [] => []
  | t :: rest => t.text n :: texts n rest

/-- Parameters and results; a single unnamed result stands without parentheses. -/
def signatureText (n : Naming) : Signature Ty → String
  | ⟨params, [], variadic⟩ => "(" ++ ", ".intercalate (variableTexts n variadic params) ++ ")"
  | ⟨params, [⟨"", type⟩], variadic⟩ =>
      "(" ++ ", ".intercalate (variableTexts n variadic params) ++ ") " ++ type.text n
  | ⟨params, results, variadic⟩ =>
      "(" ++ ", ".intercalate (variableTexts n variadic params) ++ ") (" ++
        ", ".intercalate (variableTexts n false results) ++ ")"

/-- Variables in order; the last one of a variadic list shows its element type. -/
def variableTexts (n : Naming) (variadic : Bool) : List (Variable Ty) → List String
  | [] => []
  | [⟨name, .slice elem⟩] => [label name ++ (if variadic then "..." else "[]") ++ elem.text n]
  | [⟨name, type⟩] => [label name ++ type.text n ++ (if variadic then "..." else "")]
  | ⟨name, type⟩ :: rest => (label name ++ type.text n) :: variableTexts n variadic rest

/-- Fields in order; an embedded field shows its type alone. -/
def fieldTexts (n : Naming) : List (Field Ty) → List String
  | [] => []
  | ⟨name, type, tag, embedded⟩ :: rest =>
      ((if embedded then "" else name ++ " ") ++ type.text n ++
        (if tag.isEmpty then "" else " " ++ Text.quote tag)) :: fieldTexts n rest

def methodTexts (n : Naming) : List (Method Ty) → List String
  | [] => []
  | ⟨name, signature⟩ :: rest => (name ++ signatureText n signature) :: methodTexts n rest

def termTexts (n : Naming) : List (Term Ty) → List String
  | [] => []
  | ⟨tilde, type⟩ :: rest => ((if tilde then "~" else "") ++ type.text n) :: termTexts n rest

end

/-! ## Replacement -/

/-- What to put in place of declared types and type parameters. -/
structure Replacement where
  named : String → String → List Ty → Ty
  param : String → Ty

mutual

/-- A type with its declared types and type parameters replaced, from the inside out. -/
def replace (r : Replacement) : Ty → Ty
  | .invalid => .invalid
  | .basic name => .basic name
  | .unsafePointer => .unsafePointer
  | .any => .any
  | .comparability => .comparability
  | .named path name args => r.named path name (replaceAll r args)
  | .typeParam name => r.param name
  | .pointer elem => .pointer (elem.replace r)
  | .slice elem => .slice (elem.replace r)
  | .map key value => .map (key.replace r) (value.replace r)
  | .array length elem => .array length (elem.replace r)
  | .chan direction elem => .chan direction (elem.replace r)
  | .func signature => .func (replaceSignature r signature)
  | .struct fields => .struct (replaceFields r fields)
  | .interface methods embeds => .interface (replaceMethods r methods) (replaceAll r embeds)
  | .union terms => .union (replaceTerms r terms)

def replaceAll (r : Replacement) : List Ty → List Ty
  | [] => []
  | t :: rest => t.replace r :: replaceAll r rest

def replaceSignature (r : Replacement) : Signature Ty → Signature Ty
  | ⟨params, results, variadic⟩ => ⟨replaceVariables r params, replaceVariables r results, variadic⟩

def replaceVariables (r : Replacement) : List (Variable Ty) → List (Variable Ty)
  | [] => []
  | ⟨name, type⟩ :: rest => ⟨name, type.replace r⟩ :: replaceVariables r rest

def replaceFields (r : Replacement) : List (Field Ty) → List (Field Ty)
  | [] => []
  | ⟨name, type, tag, embedded⟩ :: rest =>
      ⟨name, type.replace r, tag, embedded⟩ :: replaceFields r rest

def replaceMethods (r : Replacement) : List (Method Ty) → List (Method Ty)
  | [] => []
  | ⟨name, signature⟩ :: rest => ⟨name, replaceSignature r signature⟩ :: replaceMethods r rest

def replaceTerms (r : Replacement) : List (Term Ty) → List (Term Ty)
  | [] => []
  | ⟨tilde, type⟩ :: rest => ⟨tilde, type.replace r⟩ :: replaceTerms r rest

end

/-- A type with arguments in place of the type parameters of a declaration. -/
def instantiate (params : List String) (args : List Ty) (t : Ty) : Ty :=
  t.replace
    { named := .named
      param := fun name =>
        (((params.zip args).find? fun pair => pair.1 == name).map (·.2)).getD (.typeParam name) }

end Ty

end ComposeStability.Program
