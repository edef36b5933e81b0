/-
# Instrument.Print -- instrumented files as text

A file is its package clause and its declarations.  Declarations of the same
kind follow each other on the next line; between different kinds there is an
empty line.  Statements stand on lines of their own, indented by a tab.
-/
import ComposeStability.Instrument.File

namespace ComposeStability.Instrument

set_option autoImplicit false

open Source (File Decl ImportSpec FuncDecl FieldGroup TypeParamGroup)

/-- An import as it is written. -/
def importText (spec : ImportSpec) : String :=
  match spec.name with
  | some name => name ++ " " ++ spec.literal
  | none => spec.literal

/-- A group of parameters as it is written. -/
def groupText (g : FieldGroup) : String :=
  if g.names.isEmpty then g.written.name
  else ", ".intercalate (g.names.map (·.name)) ++ " " ++ g.written.name

def groupTexts (groups : List FieldGroup) : String := ", ".intercalate (groups.map groupText)

/-- The results of a function; a single unnamed one needs no parentheses. -/
def resultText : Option (List FieldGroup) → String
  | none | some [] => ""
  | some [g] => if g.names.isEmpty then " " ++ g.written.name else " (" ++ groupText g ++ ")"
  | some groups => " (" ++ groupTexts groups ++ ")"

/-- The type parameters of a function with their constraints. -/
def typeParamText (f : FuncDecl) : String :=
  let groupText (g : TypeParamGroup) : String :=
    ", ".intercalate (g.names.map (·.name)) ++ " " ++ g.constraint.name
  if f.typeParams.isEmpty then "" else "[" ++ ", ".intercalate (f.typeParams.map groupText) ++ "]"

/-- A function as it is written. -/
def functionText (f : FuncDecl) : String :=
  let receiver := match f.receiver with
    | some groups => "(" ++ groupTexts groups ++ ") "
    | none => ""
  let body := match f.body with
    | some statements =>
        " \x7b\n" ++ "".intercalate (statements.map fun s => "\t" ++ s.source ++ "\n") ++ "\x7d"
    | none => ""
  "func " ++ receiver ++ f.name.name ++ typeParamText f ++ "(" ++ groupTexts f.params ++ ")" ++
    resultText f.results ++ body

/-- A declaration as it is written.  Types and values show their names. -/
def declText : Decl → String
  | .imports _ false [spec] => "import " ++ importText spec
  | .imports _ _ [] => "import ()"
  | .imports _ _ specs =>
      "import (\n" ++ "".intercalate (specs.map fun s => "\t" ++ importText s ++ "\n") ++ ")"
  | .types _ _ specs => "\n".intercalate (specs.map fun s => "type " ++ s.name.name)
  | .values names => "var " ++ ", ".intercalate names
  | .func f => functionText f

/-- Kinds of declarations, told apart by the word they start with. -/
def declKeyword : Decl → String
  | .imports _ _ _ => "import"
  | .types _ _ _ => "type"
  | .values _ => "var"
  | .func _ => "func"

/-- Declarations after one that starts with a given word. -/
def declTexts : String → List Decl → String
  | _, [] => ""
  | before, d :: rest =>
      (if declKeyword d == before then "\n" else "\n\n") ++ declText d ++
        declTexts (declKeyword d) rest

/-- A file as text. -/
def fileText (f : File) : String :=
  "package " ++ f.packageName ++ declTexts "package" f.decls ++ "\n"

end ComposeStability.Instrument
