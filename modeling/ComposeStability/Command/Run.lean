/-
# Command.Run -- the commands

`report` writes the report of the analyzed functions, `check` compares them with
a golden report, `inspect` shows them as a tree, and `instrument` writes copies
of the files with traced functions.
-/
import ComposeStability.Command.Analysis
import ComposeStability.Command.Help
import ComposeStability.Command.Setup
import ComposeStability.Instrument.Package
import ComposeStability.Report.Change
import ComposeStability.Report.Store
import ComposeStability.Report.Tree

namespace ComposeStability.Command

set_option autoImplicit false

/-! ## Outcomes -/

/-- Why a command fails. -/
inductive Error where
  | line (cause : LineError)
  | setup (cause : SetupError)
  | missingFlags (names : List String)
  | analysis (cause : AnalysisError)
  | store (cause : Report.StoreFault)
  | fetch (cause : Report.FetchError)
  /-- Functions are less stable than in the golden report. -/
  | regressions (count : Nat)
  /-- The golden report differs in another way. -/
  | outdated (count : Nat)
  | overlay (causes : List Instrument.OverlayError)

def Error.message : Error → String
  | .line cause => cause.message
  | .setup cause => cause.message
  | .missingFlags names =>
      "required flag(s) " ++ ", ".intercalate (names.map fun name => "\"" ++ name ++ "\"") ++ " not set"
  | .analysis cause => cause.message
  | .store cause => cause.message
  | .fetch cause => cause.message
  | .regressions count => s!"stability regressions: {count} functions"
  | .outdated count => s!"report out of date: {count} changes"
  | .overlay causes => "\n".intercalate (causes.map (·.message))

/-- What a command did. -/
structure Outcome where
  output : String := ""
  log : List Log.Record := []
  error : Option Error := none
  files : FileSystem
  /-- The overlay that was written, and where. -/
  overlay : Option (String × Instrument.Overlay) := none
  /-- The instrumented files by the path of their copy. -/
  copies : List (String × Source.File) := []

/-! ## Commands -/

/-- Writes the report. -/
def report (w : World) (s : Setup) (given : Given) : Outcome :=
  match analyze w s.config given.args true with
  | (.error e, files, log) => { files, log, error := some (.analysis e) }
  | (.ok a, files, log) =>
      let summaries := a.summaries s.config
      if given.text "output" == "-" then { files, log, output := Report.write summaries }
      else
        let path := reportPath given s.config
        match Report.store files path summaries with
        | .error e => { files := e.files, log, error := some (.store e.cause) }
        | .ok files =>
            let written : Log.Record := ⟨.info, "Report written",
              [("path", .text path), ("functions", .int summaries.length)]⟩
            { files, log := log ++ [written] }

/-- What the changes since the golden report mean. -/
def verdictOn (strict : Bool) (changes : List Report.Change) : Option Error :=
  match (Report.regressions changes).length with
  | 0 => if strict && !changes.isEmpty then some (.outdated changes.length) else none
  | count => some (.regressions count)

/-- The path of the golden report. -/
def goldenPath (given : Given) (c : Config) : String :=
  match given.text "golden" with
  | "" => reportPath given c
  | path => path

/-- Compares with the golden report. -/
def check (w : World) (s : Setup) (given : Given) : Outcome :=
  match Report.fetch w.files (goldenPath given s.config) with
  | .error e => { files := w.files, error := some (.fetch e) }
  | .ok golden =>
      match analyze w s.config given.args true with
      | (.error e, files, log) => { files, log, error := some (.analysis e) }
      | (.ok a, files, log) =>
          let changes := Report.diff golden (a.summaries s.config)
          { files, log, output := Report.showChanges s.colour changes
            error := verdictOn (given.switch "strict") changes }

/-- The tree of a package; nothing without functions. -/
def packageTree (s : Setup) (unstable : Bool) (r : Session.Result) : String :=
  let summaries := if unstable then Report.notSkippable r.summaries else r.summaries
  if summaries.isEmpty then ""
  else Text.paint s.colour .bold r.path ++ "\n" ++ Report.tree s.colour summaries

/-- Shows the functions as a tree. -/
def inspect (w : World) (s : Setup) (given : Given) : Outcome :=
  match analyze w s.config given.args true with
  | (.error e, files, log) => { files, log, error := some (.analysis e) }
  | (.ok a, files, log) =>
      { files, log, output := String.join (a.results.map (packageTree s (given.switch "unstable"))) }

/-- The name of the overlay in the output directory. -/
def overlayFile : String := "overlay.json"

/-- How the runtime is found in a build. -/
def loaderOf (b : Program.Build) : Instrument.Loader where
  runtime _ := match b.packages.find? Instrument.runtimePath with
    | some p => .ok p
    | none => .error (.unloadable "-: no such package")

/-- Instruments packages one after the other.  The result holds the errors of the first package that
has some. -/
def instrumentAll (w : World) (given : Given) (out : String) (a : Analysis) (files : FileSystem) :
    List Instrument.OverlayError × Instrument.Work :=
  let convention : Instrument.Convention :=
    if given.switch "method-expressions" then .methodExpression else .methodValue
  let start : Instrument.Work := { files }
  (a.packages.zip a.results).foldl (fun (failed, work) (p, r) =>
    let (_, work) := Instrument.instrumentPackage w.build.packages (loaderOf w.build) convention out
      p r { work with errors := [] }
    (if failed.isEmpty then work.errors else failed, work)) ([], start)

/-- The record on what was instrumented. -/
def instrumentedRecord (work : Instrument.Work) : Log.Record :=
  ⟨.info, "Instrumented", [("functions", .int work.stats.injected), ("skipped", .int work.stats.skipped),
    ("parameters", .int work.stats.params), ("files", .int work.overlay.size)]⟩

/-- Writes instrumented copies and the overlay. -/
def instrument (w : World) (s : Setup) (given : Given) : Outcome :=
  let out := Path.absolute w.files.workingPath (given.text "output")
  match analyze w s.config given.args false with
  | (.error e, files, log) => { files, log, error := some (.analysis e) }
  | (.ok a, files, log) =>
      let (failed, work) := instrumentAll w given out a files
      let log := log ++ work.log
      let done : Outcome := { files := work.files, log, copies := work.copies }
      if !failed.isEmpty then { done with error := some (.overlay failed) }
      else if work.overlay.size = 0 then
        { done with log := log ++ [⟨.info, "No traced composable functions found", []⟩] }
      else
        let path := Path.join [out, overlayFile]
        match work.overlay.save work.files path with
        | .error e => { done with error := some (.overlay [e]) }
        | .ok files =>
            { done with
              files
              log := log ++ [instrumentedRecord work]
              output := "go build -overlay=" ++ path ++ "\n"
              overlay := some (path, work.overlay) }

/-! ## Lines -/

/-- Runs a command once it is set up. -/
def perform (name : Name) (w : World) (s : Setup) (given : Given) : Outcome :=
  match name with
  | .report => report w s given
  | .check => check w s given
  | .instrument => instrument w s given
  | .inspect => inspect w s given

/-- The records that are shown. -/
def shown (level : Log.Level) (log : List Log.Record) : List Log.Record :=
  log.filter fun r => level ≤ r.level

/-- Goes on once it is decided what the flags say. -/
def withSetup (w : World) (given : Given) (go : Setup → Outcome) : Outcome :=
  match setup w.reader w.files given with
  | (s, .error e) => { files := s.files, log := shown s.logLevel s.log, error := some (.setup e) }
  | (s, .ok ()) =>
      let done := go s
      { done with log := shown s.logLevel (s.log ++ done.log) }

/-- Runs a command. -/
def runCommand (w : World) (name : Name) (given : Given) : Outcome :=
  withSetup w given fun s =>
    match name.required.filter (!given.has ·) with
    | [] => perform name { w with files := s.files } s given
    | missing => { files := s.files, error := some (.missingFlags missing) }

/-- Runs a command line. -/
def run (w : World) (args : List String) : Outcome :=
  match readLine args with
  | .error e => { files := w.files, error := some (.line e) }
  | .ok (.help subject) => { files := w.files, output := helpText subject }
  | .ok (.explain given) =>
      withSetup w given fun s => { files := s.files, output := explain given.args }
  | .ok (.script _ given) => withSetup w given fun s => { files := s.files }
  | .ok (.run name given) => runCommand w name given

end ComposeStability.Command
