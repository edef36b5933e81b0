/-
# Linter.Diagnostic -- what the linter reports

Three kinds of findings are reported: functions that run again with every
update, directives that are not valid, and functions whose analysis failed.
The parameters and receivers that keep a function from being skipped are shown
beside it.
-/
import ComposeStability.Linter.ReportLevel
import ComposeStability.Session.Unit

namespace ComposeStability.Linter

set_option autoImplicit false

open Source (Pos FuncDecl File)
open Session (Entry Problem Unanalyzed)

/-! ## Diagnostics -/

/-- A remark on a range of the source. -/
structure Remark where
  start : Pos
  stop : Pos
  message : String
deriving DecidableEq, Repr

/-- A change of the source that mends a finding. -/
structure Fix where
  message : String
  /-- Each range is replaced by a text. -/
  edits : List Remark
deriving DecidableEq, Repr

structure Diagnostic extends Remark where
  category : String := ""
  related : List Remark := []
  fixes : List Fix := []
deriving DecidableEq, Repr

/-! ## Functions that can't be skipped -/

/-- A stability in words. -/
def describe : Stability.Value → String
  | .unstable => "unstable"
  | .runtime => "only known at runtime"
  | _ => "stable"

/-- The identifier that declares a parameter; of several the last. -/
def parameterIdent? (f : FuncDecl) (name : String) : Option Source.Ident :=
  (f.params.flatMap (·.names)).reverse.find? fun id => id.name == name

/-- The remarks on receivers that are not stable. -/
def receiverRemarks (f : FuncDecl) (s : Stability.Summary) : List Remark :=
  match f.receiver with
  | some (group :: _) => (s.receivers.filter fun r => r.stability != .stable).map fun r =>
      ⟨group.pos, group.stop,
        "Receiver of type " ++ r.type ++ " is " ++ describe r.stability ++ ": " ++ r.reason⟩
  | _ => []

/-- The remarks on parameters that are not stable. -/
def parameterRemarks (f : FuncDecl) (s : Stability.Summary) : List Remark :=
  (s.parameters.filter fun p => p.stability != .stable).map fun p =>
    let id := (parameterIdent? f p.name).getD f.name
    ⟨id.pos, id.stop, "Parameter '" ++ p.name ++ "' of type " ++ p.type ++ " is " ++
      describe p.stability ++ ": " ++ p.reason⟩

/-- The report of a function that runs again with every update. -/
def notSkippable (f : FuncDecl) (s : Stability.Summary) : Diagnostic where
  start := f.name.pos
  stop := f.name.stop
  message := "Composable function '" ++ s.name ++
    "' is restartable but not skippable (stable:nsk)"
  related := receiverRemarks f s ++ parameterRemarks f s

/-- The file that a position lies in. -/
def fileAt? (files : List File) (pos : Pos) : Option File :=
  files.find? fun f => f.placed && f.contains pos

/-- Whether a function is reported at a level. -/
def isReported (files : List File) (level : ReportLevel) (e : Entry) (f : FuncDecl) : Bool :=
  !e.directives.ignore && level.includes (e.summary.visibility == Program.exportedText) &&
    e.summary.restartable && !e.summary.skippable &&
    !((fileAt? files f.pos).any fun file => file.silencedAt f.name.pos)

/-- The report of an analyzed function, if there is one. -/
def ofEntry (files : List File) (level : ReportLevel) (e : Entry) : Option Diagnostic :=
  e.decl.bind fun f =>
    if isReported files level e f then some (notSkippable f e.summary) else none

/-! ## Directives -/

/-- The report of a problem; of the invalid directives of one declaration, the
first is reported. -/
def ofProblem (fallback : Pos) : Problem → Diagnostic
  | .directives (⟨⟨pos, text⟩, fault⟩ :: _) =>
      let stop := pos + text.utf8ByteSize
      if fault = .traceNotComposable then
        { start := pos, stop
          message := "Trace directive on a function that is not composable (stable:trc)"
          fixes := [⟨"Mark the function composable",
            [⟨pos, pos, Directive.start ++ "composable\n"⟩]⟩] }
      else
        { start := pos, stop
          message := "Invalid directive " ++ Text.quote text ++ ": " ++ fault.message ++
            " (stable:dir)" }
  | problem =>
      { start := fallback
        stop := 0
        message := "Invalid directive: " ++ problem.message ++ " (stable:dir)" }

/-! ## Failures -/

/-- The report of something that the linter itself failed on. -/
def internalError (start stop : Pos) (message : String) : Diagnostic where
  start
  stop
  category := "internal"
  message := "Internal error: " ++ message ++ " (stable:int)"

/-- The report of a function whose analysis failed. -/
def ofUnanalyzed (u : Unanalyzed) : Diagnostic :=
  internalError u.pos u.pos ("Can't analyze " ++ u.qualifiedName ++ ": " ++ u.cause.message)

/-- The reports of a result, in order. -/
def diagnostics (files : List File) (level : ReportLevel) (r : Session.Result) : List Diagnostic :=
  r.entries.filterMap (ofEntry files level) ++
    r.problems.map (ofProblem (((files.head?).map (·.package)).getD 0)) ++
    r.unanalyzed.map ofUnanalyzed

end ComposeStability.Linter
