/-
# Session.Packages -- analysis of packages together, with stored results

The markers on the types of all given packages count for each of them.  With a
directory of stored results, a package is looked up there first, under a key
made from the options, its files and the files of everything it imports; a
result without any problem is stored there.
-/
import ComposeStability.Session.Unit
import ComposeStability.Log.Record

namespace ComposeStability.Session

set_option autoImplicit false

open Program (Package Packages MarkerSource)
open Source (Layout)
open Stability (Verdict Summary)
open TypeGraph (Failure)

/-! ## Keys of stored results -/

/-- The toolchain whose type checker results depend on. -/
def toolchain : String := "go1.25.5"

/-- The options that results depend on. -/
def Options.fingerprint (o : Options) : String :=
  let types := o.stableTypes.map fun p => Text.quote p.text
  toString o.behavior.bits.toNat ++ " [" ++ " ".intercalate types ++ "]"

/-- The contents of files as items of a key. -/
def readItems (files : FileSystem) (paths : List String) :
    Except FileSystem.Failure (List Cache.Item) :=
  paths.mapM fun path => (files.read path).map (Cache.Item.file path)

/-- The imported packages in the order of their paths. -/
def importsOf (ps : Packages) (p : Package) : List Package :=
  (p.imports.mergeSort fun a b => decide (a ≤ b)).eraseReps.filterMap ps.find?

/-- Adds a package and what it imports to the packages seen and their items.
Chains of imports are followed `fuel` steps. -/
def visit (ps : Packages) (files : FileSystem) :
    Nat → List String × List Cache.Item → Package →
      Except FileSystem.Failure (List String × List Cache.Item)
  | 0, acc, _ => .ok acc
  | fuel + 1, (seen, items), p =>
      if seen.contains p.id then .ok (seen, items)
      else do
        let own ← readItems files p.sources
        (importsOf ps p).foldlM (visit ps files fuel) (p.id :: seen, items ++ .text p.id :: own)

/-- The items that the key of a package is made from. -/
def keyItems (o : Options) (ps : Packages) (files : FileSystem) (p : Package) :
    Except FileSystem.Failure (List Cache.Item) := do
  let (_, items) ← visit ps files (ps.length + 2) ([], []) p
  return .text toolchain :: .text o.fingerprint :: items

/-! ## Runs -/

/-- Why packages could not be analyzed. -/
inductive RunError where
  | cancelled
  /-- A file of a package could not be read. -/
  | unreadable (path : String) (cause : FileSystem.Failure)
  /-- A receiver refused to tell its markers. -/
  | refused (cause : Failure)

def RunError.message : RunError → String
  | .cancelled => "context canceled"
  | .refused cause => cause.cause
  | .unreadable path cause =>
      "package " ++ path ++ ": hashing " ++ cause.path ++ ": " ++ cause.message

/-- A session at work: what it remembers, the files, and what it logged. -/
structure Work (μ : Type := VerdictMemory) (φ : Type := FunctionMemory) where
  state : State μ φ
  files : FileSystem := {}
  log : List Log.Record := []

namespace Work

/-- Adds records to the log. -/
def note {μ φ : Type} (w : Work μ φ) (records : List Log.Record) : Work μ φ :=
  { w with log := w.log ++ records }

end Work

/-- A record on a package. -/
def packageRecord (level : Log.Level) (message path : String)
    (more : List (String × Log.Value)) : Log.Record :=
  ⟨level, message, ("package", .text path) :: more⟩

/-- The records on functions whose analysis failed. -/
def failureRecords (r : Result) : List Log.Record :=
  r.unanalyzed.filterMap fun u =>
    match u.cause with
    | .noObject => none
    | .failed _ => some ⟨.warn, "Function analysis failed",
        [("function", .text u.qualifiedName), ("error", .text u.cause.message)]⟩

/-- A stored result. -/
def Result.ofStored (e : Cache.Entry) : Result where
  path := e.path
  entries := (e.functions.getD []).map fun record => { summary := record.summary }
  ignored := e.ignored.getD []
  cached := true

/-- What is stored of a result. -/
def Result.toStored (r : Result) : Cache.Entry where
  path := r.path
  functions := some (r.summaries.map .ofSummary)
  ignored := Cache.unlessEmpty r.ignored

section
variable {μ φ : Type} [Store μ String Verdict] [Store φ FunctionKey Summary]

/-- Analyzes a package, without stored results. -/
def analyzeFresh (ps : Packages) (layout : Layout) (source : MarkerSource) (p : Package)
    (w : Work μ φ) : Except RunError Result × Work μ φ :=
  match w.state.analyzeUnit ⟨ps, layout, p.path, p.files⟩ source with
  | (.error failure, state) => (.error (.refused failure), { w with state })
  | (.ok r, state) => (.ok r, { w with state }.note (failureRecords r))

/-- Looks up a stored result. -/
def lookUp (disk : Cache.Disk) (key : Cache.Key) (p : Package) (w : Work μ φ) :
    Option Result × Work μ φ :=
  match disk.get w.files key with
  | .error e =>
      (none, w.note [packageRecord .warn "Ignoring cache entry" p.path [("error", .text e.message)]])
  | .ok none => (none, w)
  | .ok (some e) => (some (.ofStored e), w.note [packageRecord .debug "Cache hit" p.path []])

/-- Stores a result. -/
def store (disk : Cache.Disk) (key : Cache.Key) (p : Package) (r : Result) (w : Work μ φ) :
    Work μ φ :=
  match disk.put w.files key r.toStored with
  | (.ok (), files) => { w with files }
  | (.error e, files) =>
      { w with files }.note
        [packageRecord .warn "Can't store cache entry" p.path [("error", .text e.message)]]

/-- Whether a result may be stored: nothing went wrong. -/
def isStorable (p : Package) (r : Result) : Bool :=
  r.unanalyzed.isEmpty && r.problems.isEmpty && p.errors = 0

/-- Analyzes a package whose types were checked. -/
def analyzePackage (ps : Packages) (layout : Layout) (source : MarkerSource) (p : Package)
    (w : Work μ φ) : Except RunError Result × Work μ φ :=
  match w.state.options.disk with
  | none => analyzeFresh ps layout source p w
  | some disk =>
      match keyItems w.state.options ps w.files p with
      | .error cause => (.error (.unreadable p.path cause), w)
      | .ok items =>
          let key := Cache.Key.ofItems items
          match lookUp disk key p w with
          | (some r, w) => (.ok r, w)
          | (none, w) =>
              match analyzeFresh ps layout source p w with
              | (.error e, w) => (.error e, w)
              | (.ok r, w) => (.ok r, if isStorable p r then store disk key p r w else w)

/-- The markers on the types of packages. -/
def markersOfAll (targets : List Package) : MarkerIndex :=
  targets.foldl (fun idx p => if p.checked then (indexTypes p p.files).1 ++ idx else idx) []

/-- Analyzes one of several packages. -/
def analyzeTarget (ps : Packages) (layout : Layout) (source : MarkerSource) (p : Package)
    (w : Work μ φ) : Except RunError Result × Work μ φ :=
  if !p.checked then (.ok { path := p.path, problems := [.noTypes p.path] }, w)
  else
    let (r, w) := analyzePackage ps layout source p w
    (r.map fun r => { r with problems := (indexTypes p p.files).2 ++ r.problems }, w)

/-- Analyzes packages one after the other, until one fails. -/
def analyzeTargets (ps : Packages) (layout : Layout) (source : MarkerSource) :
    List Package → Work μ φ → Except RunError (List Result) × Work μ φ
  | [], w => (.ok [], w)
  | p :: rest, w =>
      match analyzeTarget ps layout source p w with
      | (.error e, w) => (.error e, w)
      | (.ok r, w) =>
          let (rs, w) := analyzeTargets ps layout source rest w
          (rs.map (r :: ·), w)

/-- Analyzes packages.  The results stand in the order of the packages. -/
def analyze (ps : Packages) (layout : Layout) (targets : List Package) (w : Work μ φ) :
    Except RunError (List Result) × Work μ φ :=
  analyzeTargets ps layout (markersOfAll targets).source targets w

end

end ComposeStability.Session
