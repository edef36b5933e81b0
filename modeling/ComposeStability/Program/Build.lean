/-
# Program.Build -- the packages of a build

A build knows packages and which of them belong to the current module.  A
pattern selects packages by path, or all of the module.  With tests, a package
that has test files is built twice, alone and together with them, and a main
package runs the tests.
-/
import ComposeStability.Program.Package
import ComposeStability.Text.Cut

namespace ComposeStability.Program

set_option autoImplicit false

/-! ## Mentioned packages -/

mutual

/-- The paths of the packages whose types a type mentions. -/
def Ty.paths : Ty → List String
  | .named path _ args => (if path.isEmpty then [] else [path]) ++ pathsOfAll args
  | .pointer t | .slice t | .array _ t | .chan _ t => t.paths
  | .map k v => k.paths ++ v.paths
  | .func s => pathsOfSignature s
  | .struct fields => pathsOfFields fields
  | .interface methods embeds => pathsOfMethods methods ++ pathsOfAll embeds
  | .union terms => pathsOfTerms terms
  | _ => []

def pathsOfAll : List Ty → List String
  | [] => []
  | t :: rest => t.paths ++ pathsOfAll rest

def pathsOfVariables : List (Variable Ty) → List String
  | [] => []
  | ⟨_, t⟩ :: rest => t.paths ++ pathsOfVariables rest

def pathsOfSignature : Signature Ty → List String
  | ⟨params, results, _⟩ => pathsOfVariables params ++ pathsOfVariables results

def pathsOfFields : List (Field Ty) → List String
  | [] => []
  | ⟨_, t, _, _⟩ :: rest => t.paths ++ pathsOfFields rest

def pathsOfMethods : List (Method Ty) → List String
  | [] => []
  | ⟨_, s⟩ :: rest => pathsOfSignature s ++ pathsOfMethods rest

def pathsOfTerms : List (Term Ty) → List String
  | [] => []
  | ⟨_, t⟩ :: rest => t.paths ++ pathsOfTerms rest

end

/-- The packages that the meaning of a type name mentions. -/
def Meaning.paths : Meaning → List String
  | .defined _ underlying methods =>
      underlying.paths ++ methods.flatMap fun m => pathsOfSignature m.signature
  | .alias _ target => target.paths

/-- The packages that the functions of a file mention. -/
def pathsOfFunctions (f : Source.File) : List String :=
  f.allFunctions.flatMap fun fn =>
    pathsOfVariables ((fn.receiver.getD []).flatMap (·.toVariables)) ++ pathsOfSignature fn.signature

/-- The packages that a file mentions, given the package it belongs to. -/
def pathsOfFile (p : Package) (f : Source.File) : List String :=
  let declared := f.typeSpecs.map (·.1.name)
  let types := p.types.filter fun d => declared.contains d.name
  (types.flatMap fun d => d.meaning.paths) ++ pathsOfFunctions f

/-- Paths in order, each once, without some that are not wanted. -/
def distinct (unwanted paths : List String) : List String :=
  paths.foldl (fun kept path =>
    if unwanted.contains path || kept.contains path then kept else kept ++ [path]) []

/-- A file with an import of each package that it mentions. -/
def importMentioned (p : Package) (f : Source.File) : Source.File :=
  let known := f.imports.filterMap fun spec => Text.unquote? spec.literal
  match distinct (p.path :: known) (pathsOfFile p f) with
  | [] => f
  | paths =>
      { f with decls := .imports 0 true (paths.map fun path => { literal := Text.quote path }) ::
          f.decls }

/-- All packages that a package imports or whose types its declarations mention. -/
def importedPaths (p : Package) : List String :=
  distinct [p.path]
    ((p.files.flatMap fun f => f.imports.filterMap fun spec => Text.unquote? spec.literal) ++
      p.files.flatMap pathsOfFunctions ++ (p.types.flatMap fun d => d.meaning.paths) ++
      pathsOfVariables p.consts ++ pathsOfVariables p.vars ++ pathsOfMethods p.funcs)

/-- A package whose files import what they mention. -/
def Package.withMentioned (p : Package) : Package :=
  { p with files := p.files.map (importMentioned p), imports := importedPaths p }

/-! ## Builds -/

/-- Packages, each with whether it belongs to the current module. -/
abbrev Build := List (Package × Bool)

/-- The pattern for all packages of the module. -/
def wholeModule : String := "./..."

/-- Whether a file holds tests. -/
def isTestFile (path : String) : Bool := Text.endsWith "_test.go" path

/-- A package without its test files. -/
def Package.withoutTests (p : Package) : Package :=
  { p with
    files := p.files.filter (!·.isTest)
    sources := p.sources.filter (!isTestFile ·) }

/-- The ways in which a package is built. -/
def variants (tests : Bool) (p : Package) : List Package :=
  let alone := p.withoutTests.withMentioned
  if tests && p.files.any (·.isTest) then
    [alone, { p.withMentioned with id := p.path ++ " [" ++ p.path ++ ".test]" },
      { path := p.path ++ ".test", name := "main" }]
  else [alone]

/-- Whether a package only runs tests. -/
def Package.isTestMain (p : Package) : Bool := Text.endsWith ".test" p.id

/-- Leaves out packages that only run tests. -/
def withoutTestMains (ps : List Package) : List Package := ps.filter (!·.isTestMain)

namespace Build

/-- All packages, each as others import it. -/
def packages (b : Build) : Packages := b.map fun (p, _) => p.withoutTests.withMentioned

/-- The packages that patterns select. -/
def load (b : Build) (patterns : List String) (tests : Bool) : List Package :=
  (b.filter fun (p, inModule) =>
    patterns.any fun pattern => pattern == p.path || (pattern == wholeModule && inModule)).flatMap
    fun (p, _) => variants tests p

end Build

end ComposeStability.Program
