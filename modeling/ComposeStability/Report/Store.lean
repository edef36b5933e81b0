/-
# Report.Store -- reports in files

A report replaces an older one as a whole: it is written beside its place and
then moved there, after the directories on the way to it were made.
-/
import ComposeStability.FileSystem.Basic
import ComposeStability.Report.Parse
import ComposeStability.Report.Write

namespace ComposeStability.Report

set_option autoImplicit false

open Stability (Summary)

/-! ## Writing -/

/-- Why a report could not be written. -/
inductive StoreFault where
  | directory (cause : FileSystem.Failure)
  | file (cause : FileSystem.ReplaceFault)

def StoreFault.message : StoreFault → String
  | .directory cause => "report directory: " ++ cause.message
  | .file (.create cause) => "report: " ++ cause.message
  | .file (.write cause closing) =>
      "report: writing report: " ++ cause.message ++
        match closing with
        | .ok () => ""
        | .error failure => "\n" ++ failure.message
  | .file (.close cause) => "report: " ++ cause.message
  | .file (.rename cause) => cause.message

/-- Why a report could not be written, and the files as they are then. -/
abbrev StoreError := FileSystem.Stopped StoreFault

def StoreError.message (e : StoreError) : String := e.cause.message

/-- Writes a report to a file. -/
def store (fs : FileSystem) (path : String) (summaries : List Summary)
    (refusals : FileSystem.Refusals := {}) : Except StoreError FileSystem :=
  match fs.makeDirs (Path.dir path) refusals with
  | .error stopped => .error ⟨.directory stopped.cause, stopped.files⟩
  | .ok fs =>
      match fs.replaceFile path ".stability-" (Text.toBytes (write summaries)) refusals with
      | .error stopped => .error ⟨.file stopped.cause, stopped.files⟩
      | .ok fs => .ok fs

/-! ## Reading -/

/-- Why a report could not be read. -/
inductive FetchError where
  | missing (cause : FileSystem.Failure)
  | unreadable (cause : FileSystem.Failure)
  | malformed (cause : ReadError)

def FetchError.message : FetchError → String
  | .missing cause => "golden report: " ++ cause.message
  | .unreadable cause => "reading report: " ++ cause.message
  | .malformed cause => cause.message

/-- Reads a report from a file. -/
def fetch (fs : FileSystem) (path : String) : Except FetchError (List Summary) :=
  match fs.read path with
  | .error cause =>
      .error (if cause.refusal = .isDirectory then .unreadable cause else .missing cause)
  | .ok content => (parse (Text.ofBytes content)).mapError .malformed

end ComposeStability.Report
