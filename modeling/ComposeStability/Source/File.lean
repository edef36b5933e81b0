/-
# Source.File -- files, declarations and positions

A file occupies a range of positions.  `Layout` is a set of files side by side,
in which a position names a file, a line and a column.  The functions that
analysis examines are those with a body whose documentation does not end in a
comment that silences the tool.
-/
import ComposeStability.Source.Comment
import ComposeStability.Source.Statement
import ComposeStability.Program.Type
import ComposeStability.Directive

namespace ComposeStability.Source

set_option autoImplicit false

open Program (Ty)

/-! ## Declarations -/

/-- An identifier and where it stands. -/
structure Ident where
  pos : Pos := 0
  name : String
deriving DecidableEq, Repr

/-- The position after an identifier. -/
def Ident.stop (id : Ident) : Pos := id.pos + id.name.utf8ByteSize

/-- Names declared together with one type, as in a parameter list. -/
structure FieldGroup where
  names : List Ident
  type : Ty
  /-- The type as it is written, and where. -/
  written : Ident

namespace FieldGroup

/-- Where a group starts: at its first name, or else at its type. -/
def pos (g : FieldGroup) : Pos :=
  match g.names with
  | id :: _ => id.pos
  | [] => g.written.pos

/-- Where a group ends: after its type. -/
def stop (g : FieldGroup) : Pos := g.written.stop

/-- One variable for each name; a group without names declares one unnamed variable. -/
def toVariables (g : FieldGroup) : List (Program.Variable Ty) :=
  if g.names.isEmpty then [⟨"", g.type⟩] else g.names.map fun id => ⟨id.name, g.type⟩

end FieldGroup

/-- Type parameters declared together with one constraint. -/
structure TypeParamGroup where
  names : List Ident
  /-- The constraint as it is written, and where. -/
  constraint : Ident

/-- A function or method. -/
structure FuncDecl where
  /-- The position of the word that starts the declaration. -/
  keyword : Pos := 0
  doc : Option (List Comment) := none
  name : Ident
  receiver : Option (List FieldGroup) := none
  typeParams : List TypeParamGroup := []
  params : List FieldGroup := []
  results : Option (List FieldGroup) := none
  variadic : Bool := false
  /-- The statements; a function may be declared without a body. -/
  body : Option (List Statement) := none
  openBrace : Pos := 0
  closeBrace : Pos := 0
  /-- Whether the type checker knows the function. -/
  checked : Bool := true

namespace FuncDecl

/-- Where a function starts: at its keyword, or else at its parameters. -/
def pos (f : FuncDecl) : Pos :=
  if f.keyword = 0 then (f.params.head?.map (·.pos)).getD 0 else f.keyword

/-- The position after a body: after its brace, or else after its last statement, which counts from
nothing. -/
def bodyStop (f : FuncDecl) (body : List Statement) : Pos :=
  if f.closeBrace ≠ 0 then f.closeBrace + 1
  else match body.getLast? with
    | some last => last.source.utf8ByteSize
    | none => f.openBrace + 1

/-- The position after a function: after its body, or else after its signature. -/
def stop (f : FuncDecl) : Pos :=
  match f.body with
  | some body => f.bodyStop body
  | none => ((f.results.getD f.params).getLast?.map (·.stop)).getD 0

/-- The signature that the type checker gives a function. -/
def signature (f : FuncDecl) : Program.Signature Ty where
  params := f.params.flatMap (·.toVariables)
  results := (f.results.getD []).flatMap (·.toVariables)
  variadic := f.variadic

/-- The names that the signature declares. -/
def signatureNames (f : FuncDecl) : List String :=
  let names (groups : List FieldGroup) : List String := groups.flatMap fun g => g.names.map (·.name)
  names (f.receiver.getD []) ++ f.typeParams.flatMap (fun g => g.names.map (·.name)) ++
    names f.params ++ names (f.results.getD [])

/-- All identifiers in the declaration.  A written type or constraint counts as one, and those in it
as well. -/
def idents (f : FuncDecl) : List String :=
  let inType (type : Ident) : List String := type.name :: namesIn type.name
  let written (groups : List FieldGroup) : List String := groups.flatMap fun g => inType g.written
  f.name.name :: f.signatureNames ++ written (f.receiver.getD []) ++
    f.typeParams.flatMap (fun g => inType g.constraint) ++ written f.params ++
    written (f.results.getD []) ++ (f.body.getD []).flatMap (·.idents)

/-- The receiver variable of a method. -/
def receiverType? (f : FuncDecl) : Option Ty :=
  ((f.receiver.getD []).flatMap (·.toVariables)).head?.map (·.type)

end FuncDecl

/-- An import. -/
structure ImportSpec where
  pos : Pos := 0
  name : Option String := none
  /-- The path as it is written, with quotes. -/
  literal : String
deriving DecidableEq, Repr

/-- A declared type name. -/
structure TypeSpec where
  name : Ident
  doc : Option (List Comment) := none
deriving DecidableEq, Repr

/-- The position after a declared type, which counts as `int` written after a blank. -/
def TypeSpec.stop (s : TypeSpec) : Pos :=
  (if s.name.pos = 0 then 0 else s.name.stop + 1) + "int".length

inductive Decl where
  | imports (pos : Pos) (grouped : Bool) (specs : List ImportSpec)
  | types (doc : Option (List Comment)) (grouped : Bool) (specs : List TypeSpec)
  /-- Constants or variables, by name. -/
  | values (names : List String)
  | func (f : FuncDecl)

/-! ## Files -/

/-- A source file. -/
structure File where
  name : String
  /-- The position of its first byte. -/
  base : Pos
  size : Nat
  /-- The offset of each line; see `lineStarts`. -/
  lines : List Int
  packageName : String
  /-- The position of the package clause. -/
  package : Pos
  doc : Option (List Comment) := none
  /-- All groups of comments. -/
  comments : List (List Comment) := []
  decls : List Decl := []
  /-- Whether the positions of the file are known. -/
  placed : Bool := true

namespace File

/-- Where a file starts, if that is known. -/
def start (f : File) : Pos := if f.placed then f.base else 0

/-- Where a file ends, if that is known. -/
def stop (f : File) : Pos := if f.placed then f.base + f.size else 0

def isTest (f : File) : Bool := Text.endsWith "_test.go" f.name

/-- Whether a line says that the file is generated. -/
def isGeneratedLine (line : String) : Bool :=
  match Text.stripStart? "// Code generated " line with
  | some rest => Text.endsWith " DO NOT EDIT." rest
  | none => false

/-- Whether a comment before the package clause says that the file is generated. -/
def isGenerated (f : File) : Bool :=
  f.comments.any fun group =>
    (group.takeWhile fun c => c.pos ≤ f.package).any fun c =>
      (Text.split '\n' c.text).any isGeneratedLine

/-- Whether the last comment of a group silences the tool. -/
def silencedBy (doc : Option (List Comment)) : Bool :=
  ((doc.getD []).getLast?).any fun c => Comment.silences c.text

/-- Whether a file is left out of analysis. -/
def skipped (f : File) (generated tests : Bool) : Bool :=
  !f.placed || (f.isGenerated && !generated) || (f.isTest && !tests) || silencedBy f.doc

/-- Whether a position lies in a file. -/
def contains (f : File) (pos : Pos) : Bool :=
  f.start ≤ pos && pos ≤ f.stop

/-- The offset of each line.  A table of lines that does not increase, or leaves the file, does not
count, and neither does an empty one: then all is one line. -/
def lineStarts (f : File) : List Int :=
  if !f.lines.isEmpty && f.lines.all (· < f.size) &&
      (f.lines.zip f.lines.tail).all (fun (a, b) => a < b) then f.lines
  else [0]

/-- The line and column of an offset, counted from one; what stands before the first line is on none. -/
def lineAndColumn (f : File) (offset : Nat) : Nat × Nat :=
  let before := f.lineStarts.takeWhile fun start => start ≤ (offset : Int)
  match before.getLast? with
  | some start => (before.length, ((offset : Int) - start + 1).toNat)
  | none => (0, 0)

/-- The line of a position; positions outside are moved to the nearest end of
the file, and nothing stands on line zero. -/
def lineOf (f : File) (pos : Pos) : Nat :=
  if pos = 0 then 0 else (f.lineAndColumn (min (pos - f.base) f.size)).1

/-- The first index between `low` and `high` whose group starts at or after
`pos`, by halving. -/
def searchGroups (groups : Array (List Comment)) (pos : Pos) (low high : Nat) : Nat :=
  if low < high then
    let middle := (low + high) / 2
    let start := ((groups[middle]?.getD []).head?.map (·.pos)).getD 0
    if start < pos then searchGroups groups pos (middle + 1) high
    else searchGroups groups pos low middle
  else low
termination_by high - low

/-- Whether the first comment after a position stands on its line and silences
the tool. -/
def silencedAt (f : File) (pos : Pos) : Bool :=
  let groups := f.comments.toArray
  match (groups[searchGroups groups pos 0 groups.size]?.getD []).head? with
  | some c => f.lineOf c.pos == f.lineOf pos && Comment.silences c.text
  | none => false

/-- All functions that are declared. -/
def allFunctions (f : File) : List FuncDecl :=
  f.decls.filterMap fun
    | .func fn => some fn
    | _ => none

/-- The functions that analysis examines. -/
def functions (f : File) : List FuncDecl :=
  f.allFunctions.filter fun fn => fn.body.isSome && !silencedBy fn.doc

/-- The declared types with their documentation.  A type that is declared alone
has the documentation of the declaration. -/
def typeSpecs (f : File) : List (Ident × Option (List Comment)) :=
  f.decls.flatMap fun
    | .types doc grouped specs => specs.map fun spec =>
        (spec.name, if spec.doc.isNone && !grouped then doc else spec.doc)
    | _ => []

/-- Where the last declaration of a file ends; without one, the package clause.  Constants and variables
stand nowhere and count as `int`. -/
def declsStop (f : File) : Pos :=
  match f.decls.getLast? with
  | some (.func fn) => fn.stop
  | some (.imports pos _ specs) =>
      match specs.head? with
      | some spec => spec.pos + spec.literal.utf8ByteSize
      | none => pos
  | some (.types _ _ specs) =>
      match specs.head? with
      | some spec => spec.stop
      | none => 0
  | some (.values _) => "int".length
  | none => f.package + 8 + f.packageName.utf8ByteSize

/-- A declaration whose statements are read as code.  A function with results gets a last statement that
returns nothing. -/
def declAsCode : Decl → Decl
  | .func f => .func { f with
      body := f.body.map fun body => (body.map fun s => .ofCode s.source) ++
        if (f.results.getD []).isEmpty then [] else [.ofCode "panic(0)"] }
  | d => d

/-- A file that is read as code: it starts with its package clause, and its statements are code. -/
def asCode (f : File) : File := { f with package := f.base, decls := f.decls.map declAsCode }

/-- The name under which the place of a file is known; none without a package clause. -/
def placeName (f : File) : String := if f.package = 0 then "" else f.name

/-- The imports of a file. -/
def imports (f : File) : List ImportSpec :=
  f.decls.flatMap fun
    | .imports _ _ specs => specs
    | _ => []

end File

/-! ## Layout -/

/-- Files side by side, each with its range of positions. -/
abbrev Layout := List File

namespace Layout

/-- A position as file, line and column. -/
def describe (layout : Layout) (pos : Pos) : String :=
  match layout.find? fun f => f.base ≤ pos && pos ≤ f.base + f.size with
  | none => "-"
  | some f =>
      let (line, column) := f.lineAndColumn (pos - f.base)
      if pos = 0 then "-"
      else if line = 0 then (if f.name.isEmpty then "-" else f.name)
      else (if f.name.isEmpty then "" else f.name ++ ":") ++ s!"{line}:{column}"

end Layout

end ComposeStability.Source
