/-
# Instrument.Overlay -- instrumented copies in place of source files

Each instrumented file is written below an output directory, under the path of
its source.  The overlay maps sources to their copies, in the form that a build
reads.
-/
import ComposeStability.FileSystem.Basic
import ComposeStability.Text.Json

namespace ComposeStability.Instrument

set_option autoImplicit false

/-- The copies by the absolute paths of their sources. -/
structure Overlay where
  replace : List (String × String) := []

/-- Why a copy or the overlay could not be written. -/
inductive OverlayError where
  /-- A relative source is nowhere without the working directory. -/
  | source (path : String) (refusal : FileSystem.Refusal)
  | directory (cause : FileSystem.Failure)
  | file (cause : FileSystem.Failure)
  | save (cause : FileSystem.Failure)

def OverlayError.message : OverlayError → String
  | .source path refusal => "overlay source " ++ path ++ ": getwd: " ++ refusal.message
  | .directory cause => "overlay directory: " ++ cause.message
  | .file cause => "overlay file: " ++ cause.message
  | .save cause => "writing overlay: " ++ cause.message

namespace Overlay

def size (o : Overlay) : Nat := o.replace.length

/-- The copy of a source. -/
def get? (o : Overlay) (source : String) : Option String :=
  (o.replace.find? fun e => e.1 == source).map (·.2)

/-- Records a copy. -/
def insert (o : Overlay) (source target : String) : Overlay :=
  ⟨(source, target) :: o.replace.filter fun e => e.1 != source⟩

/-- Where the copy of a source goes. -/
def targetOf (dir source : String) : String := Path.join [dir, source]

/-- Writes the copy of a source below a directory and records it.  Missing
directories stay made when the copy itself can't be written, and a copy that
can't be written in full stays as it is then. -/
def writeFile (o : Overlay) (fs : FileSystem) (dir source : String) (content : List UInt8)
    (refusals : FileSystem.Refusals := {}) : Except OverlayError Overlay × FileSystem :=
  match (if Path.isAbsolute source then none else refusals.workingDir) with
  | some refusal => (.error (.source source refusal), fs)
  | none =>
      let source := Path.absolute fs.workingPath source
      let target := targetOf dir source
      match fs.makeDirs (Path.dir target) refusals with
      | .error stopped => (.error (.directory stopped.cause), stopped.files)
      | .ok fs =>
          match fs.overwrite target content refusals with
          | (some cause, fs) => (.error (.file cause), fs)
          | (none, fs) => (.ok (o.insert source target), fs)

/-- The overlay as a document, sorted by source. -/
def document (o : Overlay) : String :=
  let entries := (o.replace.mergeSort fun a b => decide (a.1 ≤ b.1)).map fun (source, target) =>
    "    " ++ Text.jsonString .document source ++ ": " ++ Text.jsonString .document target
  let map := if entries.isEmpty then "\x7b\x7d"
    else "\x7b\n" ++ ",\n".intercalate entries ++ "\n  \x7d"
  "\x7b\n  \"Replace\": " ++ map ++ "\n\x7d"

/-- Writes the overlay as a document. -/
def save (o : Overlay) (fs : FileSystem) (path : String) : Except OverlayError FileSystem :=
  (fs.write path (Text.toBytes o.document)).mapError .save

end Overlay

end ComposeStability.Instrument
