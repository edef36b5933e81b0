/-
# Instrument.Package -- tracking in the traced functions of a package

The traced functions among the analyzed ones are instrumented file by file, and
the changed files go to the overlay.  A package whose build does not see the
runtime is skipped.
-/
import ComposeStability.Instrument.Overlay
import ComposeStability.Instrument.Print
import ComposeStability.Session.Packages

namespace ComposeStability.Instrument

set_option autoImplicit false

open Program (Package Packages)
open Source (File FuncDecl)

/-! ## Targets -/

/-- Whether a function lies in a file. -/
def liesIn (f : File) (fn : FuncDecl) : Bool :=
  f.start ≤ fn.pos && fn.stop ≤ f.stop

/-- The number of a function among those of a file. -/
def functionIndex? (f : File) (fn : FuncDecl) : Option Nat :=
  f.allFunctions.findIdx? fun other => other.pos == fn.pos && other.name == fn.name

/-- The number of the file that an analyzed function is traced in, and the
target it makes. -/
def targetOf? (files : List File) (e : Session.Entry) : Option (Nat × Target) := do
  let trace ← e.directives.trace
  let fn ← e.decl
  let i ← files.findIdx? fun f => liesIn f fn
  let index ← files[i]?.bind fun f => functionIndex? f fn
  return (i, ⟨index, e.summary.qualifiedName, trace.tag, trace.threshold, e.summary⟩)

/-! ## Runtime -/

/-- How packages of a build are found. -/
structure Loader where
  /-- The package with the runtime, as seen from a directory. -/
  runtime : String → Except MissingSymbol Package

/-- The directory of a package. -/
def packageDir (p : Package) : Except MissingSymbol String :=
  match p.sources with
  | file :: _ => .ok (Path.dir file)
  | [] => .error (.noFiles p.path)

/-- The symbols that a package uses: those of the runtime it imports, or else
those of the runtime that its build sees. -/
def symbolsFor (ps : Packages) (loader : Loader) (convention : Convention) (p : Package) :
    Except MissingSymbol Symbols :=
  if !p.checked then .error (.noTypes p.path)
  else if p.imports.contains runtimePath then
    resolve ps (ps.find? runtimePath) convention
  else do
    let runtime ← loader.runtime (← packageDir p)
    resolve ps (some runtime) convention

/-! ## Packages -/

/-- Instrumentation at work. -/
structure Work where
  files : FileSystem
  overlay : Overlay := {}
  stats : Stats := {}
  errors : List OverlayError := []
  log : List Log.Record := []
  /-- The instrumented files by the path of their copy. -/
  copies : List (String × File) := []

/-- Instruments one file of a package, with the targets in it. -/
def instrumentFile (out : String) (s : Symbols) (w : Work) (file : File) (targets : List Target) :
    File × Work :=
  let done := instrument file targets s
  let w := { w with stats := w.stats.add done.stats }
  if done.stats.injected = 0 then (done.file, w)
  else
    match w.overlay.writeFile w.files out file.placeName (Text.toBytes (fileText done.file)) with
    | (.error e, files) => (done.file, { w with files, errors := w.errors ++ [e] })
    | (.ok overlay, files) =>
        let source := Path.absolute files.workingPath file.placeName
        (done.file,
          { w with
            files, overlay
            log := w.log ++ [⟨.debug, "Instrumented file",
              [("file", .text file.placeName), ("functions", .int done.stats.injected)]⟩]
            copies := (Overlay.targetOf out source, done.file) :: w.copies })

/-- Instruments the files of a package that have targets. -/
def instrumentFiles (out : String) (s : Symbols) (targets : List (Nat × Target)) :
    Work → List (File × Nat) → List File × Work
  | w, [] => ([], w)
  | w, (file, i) :: rest =>
      let own := (targets.filter fun t => t.1 == i).map (·.2)
      let (file, w) := if own.isEmpty then (file, w) else instrumentFile out s w file own
      let (files, w) := instrumentFiles out s targets w rest
      (file :: files, w)

/-- Instruments the traced functions of a package.  The result holds the files
of the package as they are then. -/
def instrumentPackage (ps : Packages) (loader : Loader) (convention : Convention) (out : String)
    (p : Package) (r : Session.Result) (w : Work) : List File × Work :=
  let targets := r.entries.filterMap (targetOf? p.files)
  if targets.isEmpty then (p.files, w)
  else
    match symbolsFor ps loader convention p with
    | .error missing =>
        (p.files,
          { w with
            stats := w.stats.add { skipped := targets.length }
            log := w.log ++ [⟨.warn, "Skipping package",
              [("package", .text p.path), ("error", .text missing.message)]⟩] })
    | .ok s => instrumentFiles out s targets w p.files.zipIdx

end ComposeStability.Instrument
