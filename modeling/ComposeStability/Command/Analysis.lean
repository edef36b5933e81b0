/-
# Command.Analysis -- the packages a command works on

A command loads the packages that its arguments select, by default those of the
module, and analyzes them.  What goes wrong on the way is logged; without any
package there is nothing to do.
-/
import ComposeStability.Config.Load
import ComposeStability.Program.Build
import ComposeStability.Report.Selection
import ComposeStability.Session.Packages

namespace ComposeStability.Command

set_option autoImplicit false

open Program (Build Package)

/-- What a command finds: how configurations are read, files, variables and packages. -/
structure World where
  reader : Config.Reader
  files : FileSystem
  environment : Cache.Environment := {}
  build : Build := []

/-- Why packages can't be analyzed. -/
inductive AnalysisError where
  | noPackages (patterns : List String)
  | run (cause : Session.RunError)

def AnalysisError.message : AnalysisError → String
  | .noPackages patterns => "no packages loaded: " ++ " ".intercalate patterns
  | .run cause => cause.message

/-- Packages with their results, in the same order. -/
structure Analysis where
  packages : List Package
  results : List Session.Result

namespace Analysis

/-- The functions to report. -/
def summaries (a : Analysis) (c : Config) : List Stability.Summary :=
  Report.select (a.results.map fun r => (r.summaries, r.ignored)) c.ignoredPackages c.ignoredTypes

end Analysis

/-- The patterns that arguments stand for. -/
def patternsOf (args : List String) : List String :=
  if args.isEmpty then [Program.wholeModule] else args

/-- The directory of stored results, if it can be used. -/
def openCache (w : World) (c : Config) : Option Cache.Disk × FileSystem × List Log.Record :=
  match Cache.Disk.open w.environment w.files (c.resolve c.cacheDir) with
  | .ok (disk, files) => (some disk, files, [])
  | .error e =>
      (none, e.files w.files, [⟨.warn, "Result cache disabled", [("error", .text e.message)]⟩])

/-- The records on what went wrong in a package. -/
def problemRecords (r : Session.Result) : List Log.Record :=
  (r.problems.map fun p =>
    ⟨.warn, "Analysis problem", [("package", .text r.path), ("error", .text p.message)]⟩) ++
  r.unanalyzed.map fun u =>
    ⟨.warn, "Function not analyzed",
      [("function", .text u.qualifiedName), ("error", .text u.cause.message)]⟩

/-- Analyzes the packages that arguments select. -/
def analyze (w : World) (c : Config) (args : List String) (useCache : Bool) :
    Except AnalysisError Analysis × FileSystem × List Log.Record :=
  let patterns := patternsOf args
  let packages := Program.withoutTestMains (w.build.load patterns c.includeTests)
  if !packages.any (·.checked) then (.error (.noPackages patterns), w.files, [])
  else
    let (disk, files, log) := if useCache then openCache w c else (none, w.files, [])
    let options : Session.Options :=
      { behavior := c.behavior, stableTypes := c.stableTypes.map TypeGraph.Pattern.mk, disk }
    let known := w.build.packages
    let layout := packages.flatMap (·.files)
    match Session.analyze known layout packages ⟨.new .bounded options, files, log⟩ with
    | (.error e, work) => (.error (.run e), work.files, work.log)
    | (.ok results, work) =>
        (.ok { packages, results }, work.files, work.log ++ results.flatMap problemRecords)

end ComposeStability.Command
