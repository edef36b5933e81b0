/-
# Instrument.File -- tracking in the functions of a file

All traced functions of a file use the runtime under one name: the name it is
imported as already, unless a traced signature hides it, or else a new name
that nothing in the file uses.  An import is added when it is needed; it goes
where the imports have most of their paths in common.
-/
import ComposeStability.Instrument.Function

namespace ComposeStability.Instrument

set_option autoImplicit false

open Source (File Decl ImportSpec FuncDecl)

/-- A traced function of a file. -/
structure Target where
  /-- Its number among the functions of the file. -/
  function : Nat
  name : String
  tag : List UInt8
  threshold : Int
  summary : Stability.Summary

/-- What was done to functions. -/
structure Stats where
  injected : Nat := 0
  skipped : Nat := 0
  params : Nat := 0
deriving DecidableEq, Repr

def Stats.add (a b : Stats) : Stats :=
  ⟨a.injected + b.injected, a.skipped + b.skipped, a.params + b.params⟩

/-! ## Names -/

/-- The last part of a path, which names a package by default. -/
def defaultName (path : String) : String :=
  match Text.cutLastString path "/" with
  | some (_, name) => name
  | none => path

/-- The path of an import, if it is well written. -/
def importPath? (spec : ImportSpec) : Option String := Text.unquote? spec.literal

/-- The name that an import binds. -/
def boundName (spec : ImportSpec) (path : String) : String :=
  spec.name.getD (defaultName path)

/-- The names that the declarations of a file bind at package level. -/
def declaredNames (decls : List Decl) : List String :=
  decls.flatMap fun
    | .func f => if f.receiver.isNone then [f.name.name] else []
    | .types _ _ specs => specs.map (·.name.name)
    | .values names => names
    | .imports _ _ _ => []

/-- Searches imports for the runtime.  The result is the name it can be used
under, or else the names that are taken. -/
def findImport (runtime : String) : List String → List ImportSpec → Except (List String) String
  | taken, [] => .error taken
  | taken, spec :: rest =>
      match importPath? spec with
      | none => findImport runtime taken rest
      | some path =>
          let name := boundName spec path
          if path == runtime && name != "_" && name != "." && !taken.contains name then .ok name
          else findImport runtime (name :: taken) rest

/-- The name under which the runtime is used in a file. -/
def importName (f : File) (functions : List FuncDecl) (s : Symbols) : String :=
  match findImport s.path (functions.flatMap (·.signatureNames)) f.imports with
  | .ok name => name
  | .error taken => Text.freshName s.package (declaredNames f.decls ++ taken)

/-! ## Imports -/

/-- The number of slashes in the longest common start of two paths. -/
def sharedSlashes : List Char → List Char → Nat
  | a :: as, b :: bs => if a == b then (if a == '/' then 1 else 0) + sharedSlashes as bs else 0
  | _, _ => 0

/-- Whether a path looks like that of a package from elsewhere. -/
def isThirdParty (path : String) : Bool := path.toList.contains '.'

/-- The path of an import; empty if it is not well written. -/
def pathText (spec : ImportSpec) : String := (importPath? spec).getD ""

/-- Where a new import goes. -/
structure Spot where
  /-- How well it fits: the shared slashes plus one; zero for no import at all. -/
  fit : Nat := 0
  /-- The declaration to extend. -/
  decl : Option Nat := none
  /-- The import to stand after. -/
  spec : Option Nat := none
  /-- The last declaration of imports. -/
  last : Option Nat := none

/-- Compares the place after one import with the best so far. -/
def Spot.consider (path : String) (decl : Nat) (acc : Spot × Bool) (entry : ImportSpec × Nat) :
    Spot × Bool :=
  let (best, seenThirdParty) := acc
  let (spec, index) := entry
  let fit := sharedSlashes (pathText spec).toList path.toList + 1
  let better := best.fit < fit || (best.fit = 1 && !seenThirdParty && isThirdParty path)
  let best := if better then { best with fit, decl := some decl, spec := some index } else best
  (best, seenThirdParty || isThirdParty (pathText spec))

/-- Whether imports are those of foreign code, which stay alone. -/
def isForeign (specs : List ImportSpec) : Bool := specs.any fun spec => pathText spec == "C"

/-- The best place for a new import. -/
def findSpot (path : String) (decls : List Decl) : Spot :=
  decls.zipIdx.foldl (fun best entry =>
    match entry with
    | (.imports _ _ specs, i) =>
        let best := { best with last := some i }
        if isForeign specs then best
        else
          let best := if specs.isEmpty && best.fit = 0 then { best with decl := some i } else best
          (specs.zipIdx.foldl (Spot.consider path i) (best, false)).1
    | _ => best) {}

/-- Adds an import to a declaration of imports. -/
def insertSpec (spec : ImportSpec) (after : Option Nat) : Decl → Decl
  | .imports pos _ specs =>
      let n := match after with
        | some i => i + 1
        | none => 0
      let specs := specs.take n ++ spec :: specs.drop n
      .imports pos (specs.length != 1) specs
  | d => d

/-- Changes one element of a list. -/
def modifyAt {α : Type} (f : α → α) : Nat → List α → List α
  | _, [] => []
  | 0, x :: rest => f x :: rest
  | n + 1, x :: rest => x :: modifyAt f n rest

/-- The imports of all declarations but those of foreign code. -/
def mergeable (decls : List Decl) : List ImportSpec :=
  decls.flatMap fun
    | .imports _ _ specs => if isForeign specs then [] else specs
    | _ => []

/-- Moves all imports into the first declaration of imports. -/
def mergeImports : List Decl → List Decl
  | [] => []
  | .imports pos grouped specs :: rest =>
      if isForeign specs then .imports pos grouped specs :: mergeImports rest
      else
        let specs := specs ++ mergeable rest
        .imports pos (grouped || specs.length != 1) specs :: rest.filter fun
          | .imports _ _ others => isForeign others
          | _ => true
  | d :: rest => d :: mergeImports rest

/-- The declarations with an import in the place found for it. -/
def placeImport (spec : ImportSpec) (path : String) (decls : List Decl) : List Decl :=
  let spot := findSpot path decls
  match spot.decl with
  | some i => mergeImports (modifyAt (insertSpec spec spot.spec) i decls)
  | none =>
      let n := match spot.last with
        | some i => i + 1
        | none => 0
      mergeImports (decls.take n ++ .imports 0 false [spec] :: decls.drop n)

/-- Whether a file has an import with a given name and path. -/
def hasImport (f : File) (name : Option String) (path : String) : Bool :=
  f.imports.any fun spec => spec.name == name && pathText spec == path

/-! ## Files -/

/-- A file after instrumentation. -/
structure Instrumented where
  file : File
  stats : Stats := {}
  /-- The import that was added. -/
  added : Option ImportSpec := none

/-- Replaces a function of a file by its number. -/
def replaceFunction (new : FuncDecl) : Nat → List Decl → List Decl
  | _, [] => []
  | 0, .func _ :: rest => .func new :: rest
  | n + 1, .func f :: rest => .func f :: replaceFunction new n rest
  | n, d :: rest => d :: replaceFunction new n rest

/-- Instruments one function. -/
def instrumentTarget (s : Symbols) (acc : File × Stats) (t : Target) : File × Stats :=
  let (file, stats) := acc
  match file.allFunctions[t.function]? with
  | none => (file, stats.add { skipped := 1 })
  | some f =>
      let params := paramsOf f t.summary
      match inject f t.name t.tag t.threshold params s with
      | none => (file, stats.add { skipped := 1 })
      | some f =>
          ({ file with decls := replaceFunction f t.function file.decls },
            stats.add { injected := 1, params := params.length })

/-- Adds the import of the runtime, unless it is there. -/
def addRuntime (s : Symbols) (file : File) (stats : Stats) : Instrumented :=
  let name := if s.package == defaultName s.path then none else some s.package
  if stats.injected = 0 || s.path.isEmpty || hasImport file name s.path then { file, stats }
  else
    let spec : ImportSpec := { name, literal := Text.quote s.path }
    { file := { file with decls := placeImport spec s.path file.decls }, stats, added := some spec }

/-- Instruments the traced functions of a file. -/
def instrument (f : File) (targets : List Target) (s : Symbols) : Instrumented :=
  if targets.isEmpty then { file := f }
  else
    let functions := targets.filterMap fun t => f.allFunctions[t.function]?
    let s := { s with package := importName f functions s }
    let (file, stats) := targets.foldl (instrumentTarget s) (f, {})
    addRuntime s file stats

end ComposeStability.Instrument
