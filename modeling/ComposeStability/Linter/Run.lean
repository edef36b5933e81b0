/-
# Linter.Run -- the linter on the packages of a program

Packages are checked one at a time.  The markers on the types of a package are
facts that later packages see; within a package, its own source decides.
-/
import ComposeStability.Linter.Diagnostic
import ComposeStability.Linter.Options

namespace ComposeStability.Linter

set_option autoImplicit false

open Program (Package Packages MarkerSource)
open Session (MarkerIndex Store Stores FunctionKey)
open Source (File Layout)
open Stability (Verdict Summary)

/-- The capacity of the memories of one check. -/
def memorySize : Int := 1024

/-- What the linter says about a package. -/
structure Outcome where
  diagnostics : List Diagnostic
  /-- The markers on its types. -/
  facts : MarkerIndex
  functions : List Summary
  ignored : List String

/-- Why a package was not checked. -/
inductive CheckError where
  /-- The host did not provide what the linter builds on. -/
  | resultMissing (name : String)
  /-- A receiver refused to tell its markers. -/
  | refused (cause : TypeGraph.Failure)

def CheckError.message : CheckError → String
  | .refused cause => cause.cause
  | .resultMissing name => "stableguard: " ++ name ++ " analyzer result missing"

/-- What the linter needs from the host. -/
def requirement : String := "inspect"

/-- The report of a file whose positions are not known. -/
def misplacedFile (f : File) : Diagnostic :=
  internalError f.package f.declsStop ("File " ++ f.packageName ++ " without valid info")

/-- The markers as seen from one package. -/
def markersFrom (path : String) (own facts : MarkerIndex) : MarkerSource := fun typePath name =>
  .ok (if typePath == path then own.get typePath name else facts.get typePath name)

/-- What the linter says about a package, given the analysis of its functions. -/
def Outcome.ofResult (o : Options) (p : Package) (r : Session.Result) : Outcome :=
  let files := p.files.filter (·.placed)
  let misplaced := (p.files.filter fun f => !f.placed).map misplacedFile
  let (own, indexProblems) := Session.indexTypes p files
  let r := { r with problems := r.problems ++ indexProblems }
  { diagnostics := misplaced ++ Linter.diagnostics files o.report r
    facts := own
    functions := r.summaries
    ignored := r.ignored }

section
variable {μ φ : Type} [Store μ String Verdict] [Store φ FunctionKey Summary] (stores : Stores μ φ)
  (o : Options) (ps : Packages) (layout : Layout)

/-- Checks a package, given the facts of earlier ones. -/
def check (facts : MarkerIndex) (p : Package) : Except CheckError Outcome :=
  let files := p.files.filter (·.placed)
  let own := (Session.indexTypes p files).1
  let state := Session.State.new stores
    { behavior := o.behavior, stableTypes := o.stableTypes, cacheSize := memorySize }
  let (r, _) := state.analyzeUnit ⟨ps, layout, p.path, files⟩ (markersFrom p.path own facts)
  (r.mapError .refused).map (.ofResult o p)

/-- Checks packages in order, until one fails. -/
def checkAll : MarkerIndex → List Package → Except CheckError (List Outcome)
  | _, [] => .ok []
  | facts, p :: rest => do
      let outcome ← check stores o ps layout facts p
      let others ← checkAll (outcome.facts ++ facts) rest
      return outcome :: others

end

/-- A fact as text: the name of a type and its markers as binary digits. -/
def factText (name : String) (markers : TypeGraph.Markers) : String :=
  name ++ ": markers(" ++ Text.padded 2 5 markers.bits.toNat ++ ")"

/-- The facts of an index as sorted texts. -/
def factTexts (idx : MarkerIndex) : List String :=
  let names := (idx.map fun e => e.1).eraseDups
  (names.map fun (path, name) => factText name (idx.get path name)).mergeSort
    fun a b => decide (a ≤ b)

end ComposeStability.Linter
