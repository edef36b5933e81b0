/-
# Session.Unit -- analysis of the functions of a package, with a memory

A session remembers the verdicts on types and the summaries of functions under
a version number, so that advancing the version forgets them all.  What it
remembers them in is up to the stores that it is given.  Every examined function
of a unit contributes one finding: an entry, or the reason why it could not be
analyzed, and what is wrong with its directives.  Only the analysis of a function
is guarded against types that refuse to be inspected; a receiver that refuses
before it ends the analysis of the unit.
-/
import ComposeStability.Cache.Disk
import ComposeStability.Session.Recency
import ComposeStability.Program.Function

namespace ComposeStability.Session

set_option autoImplicit false

open Stability (Verdict Summary)
open TypeGraph (Failure Markers)
open Program (Ty Packages MarkerSource)
open Source (Pos File Layout FuncDecl)

/-! ## Options -/

/-- Switches of the analysis. -/
abbrev Behavior := Flags 8

namespace Behavior

/-- Generated files are analyzed too. -/
def includeGenerated : BitVec 8 := 1

/-- Test files are analyzed too. -/
def includeTests : BitVec 8 := 2

/-- Every restartable function counts as skippable. -/
def strongSkipping : BitVec 8 := 4

/-- The switch with a name. -/
def bitOf : String → BitVec 8
  | "generated" => includeGenerated
  | "tests" => includeTests
  | "strong" => strongSkipping
  | _ => 0

/-- The switches with these names. -/
def ofNames (names : List String) : Behavior := .ofList (names.map bitOf)

end Behavior

/-- How a session analyzes. -/
structure Options where
  behavior : Behavior := Flags.empty
  stableTypes : List TypeGraph.Pattern := []
  /-- The capacity of each memory; without one, the default. -/
  cacheSize : Int := 0
  /-- Where results are kept between runs. -/
  disk : Option Cache.Disk := none

/-- The capacity of a memory for which none is given. -/
def defaultCacheSize : Nat := 4096

def Options.capacity (o : Options) : Nat :=
  if o.cacheSize ≤ 0 then defaultCacheSize else o.cacheSize.toNat

/-! ## Memory -/

/-- What identifies a function: its place, its name, and the version it was seen in. -/
structure FunctionKey where
  place : String
  name : String
  version : UInt64
deriving DecidableEq, Repr

/-- What identifies a verdict: the version it was given in, and the key of the type. -/
def versionedKey (version : UInt64) (key : String) : String :=
  String.ofList (Text.base36 version.toNat) ++ ":" ++ key

/-- Verdicts by version and key. -/
abbrev VerdictMemory := Recency String Verdict

/-- Summaries of functions. -/
abbrev FunctionMemory := Recency FunctionKey Summary

/-- The stores that a new session is given, by their capacity. -/
structure Stores (μ φ : Type) where
  verdicts : Nat → μ
  functions : Nat → φ

/-- Bounded stores. -/
def Stores.bounded : Stores VerdictMemory FunctionMemory := ⟨Recency.empty, Recency.empty⟩

section
variable {μ φ : Type} [Store μ String Verdict] [Store φ FunctionKey Summary]

/-- The memory of verdicts as classification uses it, at a fixed version. -/
def verdictMemo (version : UInt64) : TypeGraph.Memo μ where
  get s key := Store.get s (versionedKey version key)
  add s key verdict := Store.add s (versionedKey version key) verdict

/-- An analysis that remembers. -/
structure State (μ : Type := VerdictMemory) (φ : Type := FunctionMemory) where
  options : Options
  version : UInt64 := 0
  verdicts : μ
  functions : φ

namespace State

/-- A session that remembers nothing yet. -/
def new (stores : Stores μ φ) (options : Options) : State μ φ where
  options
  verdicts := stores.verdicts options.capacity
  functions := stores.functions options.capacity

/-- Forgets everything, unless so many versions came and went that their numbers start over. -/
def bump (s : State μ φ) : State μ φ := { s with version := s.version + 1 }

/-- The stability of a type. -/
def classify (s : State μ φ) (ps : Packages) (source : MarkerSource) (t : Ty) :
    Except Failure Verdict × State μ φ :=
  let (verdict, verdicts) :=
    TypeGraph.classifyMemo (ps.graph source) s.options.stableTypes (verdictMemo s.version)
      s.verdicts (some t)
  (verdict, { s with verdicts })

/-- The summary of a function. -/
def analyze (s : State μ φ) (ps : Packages) (source : MarkerSource) (fn : Composable.Function Ty) :
    Except Failure Summary × State μ φ :=
  let classifier :=
    Composable.Classifier.memoizing (ps.graph source) s.options.stableTypes
      (verdictMemo s.version)
  let strong := s.options.behavior.enabled Behavior.strongSkipping
  let (summary, verdicts) := Composable.analyze classifier strong s.verdicts fn
  (summary, { s with verdicts })

/-- The summary of a function found at `place`, asked of the memory first. -/
def summarize (s : State μ φ) (ps : Packages) (source : MarkerSource) (place : String)
    (fn : Composable.Function Ty) : Except Failure Summary × State μ φ :=
  let key : FunctionKey := ⟨place, fn.qualifiedName, s.version⟩
  match Store.get s.functions key with
  | (some summary, functions) => (.ok summary, { s with functions })
  | (none, functions) =>
      match { s with functions }.analyze ps source fn with
      | (.ok summary, s) => (.ok summary, { s with functions := Store.add s.functions key summary })
      | (.error failure, s) => (.error failure, s)

end State

end

/-! ## Results -/

/-- The analysis of one function. -/
structure Entry where
  summary : Summary
  directives : Directive.OnFunction := {}
  /-- The declaration; results from a store have none. -/
  decl : Option FuncDecl := none

/-- Why a function has no summary. -/
inductive Obstruction where
  /-- The type checker does not know the function. -/
  | noObject
  | failed (cause : Composable.Unanalyzable)

def Obstruction.message : Obstruction → String
  | .noObject => "declaration has no type information"
  | .failed cause => cause.message

/-- A function without a summary. -/
structure Unanalyzed where
  qualifiedName : String
  pos : Pos
  cause : Obstruction

/-- Something wrong with a package that does not stop its analysis. -/
inductive Problem where
  /-- The invalid directives of one declaration; there is at least one. -/
  | directives (mistakes : List Directive.Mistake)
  /-- The type checker has no results for the package. -/
  | noTypes (path : String)

namespace Problem

def message : Problem → String
  | .directives mistakes => "\n".intercalate (mistakes.map (·.message))
  | .noTypes path => "package has no type information: " ++ path

end Problem

/-- The analysis of a package. -/
structure Result where
  path : String := ""
  entries : List Entry := []
  /-- The qualified names of functions to leave out of reports. -/
  ignored : List String := []
  unanalyzed : List Unanalyzed := []
  problems : List Problem := []
  cached : Bool := false

/-- The summaries of a result. -/
def Result.summaries (r : Result) : List Summary := r.entries.map (·.summary)

/-- What one function contributes to a result. -/
structure Finding where
  entry : Option Entry := none
  ignored : Option String := none
  unanalyzed : Option Unanalyzed := none
  problems : List Problem := []

/-- The result that findings make up. -/
def Result.ofFindings (path : String) (findings : List Finding) : Result where
  path
  entries := findings.filterMap (·.entry)
  ignored := findings.filterMap (·.ignored)
  unanalyzed := findings.filterMap (·.unanalyzed)
  problems := findings.flatMap (·.problems)

/-! ## Units -/

/-- The checked files of a package. -/
structure Unit where
  packages : Packages
  layout : Layout
  path : String
  files : List File

/-- The invalid directives of one declaration as problems. -/
def problemsOf (mistakes : List Directive.Mistake) : List Problem :=
  if mistakes.isEmpty then [] else [.directives mistakes]

section
variable {μ φ : Type} [Store μ String Verdict] [Store φ FunctionKey Summary]

/-- Analyzes one function.  Nothing guards the question whether its receiver is left out, so that a
receiver that refuses it ends the analysis of the unit. -/
def examine (u : Unit) (source : MarkerSource) (s : State μ φ) (f : FuncDecl) :
    Except Failure Finding × State μ φ :=
  let (d, mistakes) := Directive.ofFunction (f.doc.getD [])
  let problems := problemsOf mistakes
  if !d.composable then
    let stray := (d.trace.map fun t => Problem.directives [Directive.strayTrace t.pos]).toList
    (.ok { problems := problems ++ stray }, s)
  else if !f.checked then
    (.ok { unanalyzed := some ⟨f.name.name, f.pos, .noObject⟩, problems }, s)
  else
    match u.packages.skippedReceiver source f with
    | .error failure => (.error failure, s)
    | .ok skipped =>
        let d := if skipped then { d with ignore := true } else d
        let fn := u.packages.describe u.path f d
        let ignored := if d.ignore then some fn.qualifiedName else none
        match s.summarize u.packages source (u.layout.describe f.pos) fn with
        | (.ok summary, s) => (.ok { entry := some ⟨summary, d, some f⟩, ignored, problems }, s)
        | (.error failure, s) =>
            let cause := Obstruction.failed ⟨fn.qualifiedName, failure⟩
            (.ok { unanalyzed := some ⟨fn.qualifiedName, f.pos, cause⟩, ignored, problems }, s)

/-- The functions of a unit that are examined, in source order. -/
def Unit.examined (u : Unit) (behavior : Behavior) : List FuncDecl :=
  let generated := behavior.enabled Behavior.includeGenerated
  let tests := behavior.enabled Behavior.includeTests
  (u.files.filter fun f => !f.skipped generated tests).flatMap (·.functions)

/-- Analyzes the composable functions of a unit. -/
def State.analyzeUnit (s : State μ φ) (u : Unit) (source : MarkerSource) :
    Except Failure Result × State μ φ :=
  let (findings, s) := Composable.askAll (examine u source) s (u.examined s.options.behavior)
  (findings.map (Result.ofFindings u.path), s)

end

/-! ## Markers -/

/-- The markers of declared types, by path and name. -/
abbrev MarkerIndex := List ((String × String) × Markers)

/-- The markers of a type; a type without an entry has none. -/
def MarkerIndex.get (idx : MarkerIndex) (path name : String) : Markers :=
  ((List.find? (fun e => e.1 == (path, name)) idx).map (·.2)).getD Flags.empty

/-- An index in which these types have these markers; no markers remove the entries. -/
def MarkerIndex.mark (idx : MarkerIndex) (types : List (String × String)) (markers : Markers) :
    MarkerIndex :=
  let others := List.filter (fun e => !types.contains e.1) idx
  if markers.bits == 0 then others else types.map (·, markers) ++ others

/-- The index as a source. -/
def MarkerIndex.source (idx : MarkerIndex) : MarkerSource :=
  fun path name => .ok (idx.get path name)

/-- The markers that the files of a package put on its types, and the problems
of each declaration. -/
def indexTypes (p : Program.Package) (files : List File) : MarkerIndex × List Problem :=
  let read := (files.flatMap (·.typeSpecs)).map fun (name, doc) =>
    (name, Directive.ofType (doc.getD []))
  let marked := read.filterMap fun (name, markers, _) =>
    if markers.bits == 0 || !(p.types.any fun d => d.name == name.name) then none
    else some ((p.path, name.name), markers)
  (marked.reverse, read.flatMap fun (_, _, mistakes) => problemsOf mistakes)

end ComposeStability.Session
