/-
# Config.Load -- finding and reading a configuration

A configuration is a TOML document.  How a document is read is not decided here
(`Reader`).  A key of it names a setting exactly or, failing that, in another case;
keys that name none are refused, all of them together.  The file is looked for in a
directory and in those above it, from the innermost outwards.
-/
import ComposeStability.Config.Basic
import ComposeStability.FileSystem.Ascent
import ComposeStability.FileSystem.Basic
import ComposeStability.Text.Fold
import ComposeStability.Text.Quoted
import ComposeStability.Toml.Document

namespace ComposeStability.Config

set_option autoImplicit false

/-- The name of the configuration file. -/
def fileName : String := "stableguard.toml"

/-! ## Causes -/

/-- Why there is no configuration. -/
inductive LoadError where
  | unreadable (path : String) (cause : FileSystem.Failure)
  | malformed (path : String)
  | unknownKeys (path : String) (keys : List Toml.Key)
  | negativeJobs (path : String)
  /-- A search from a relative path starts nowhere without the working directory. -/
  | start (refusal : FileSystem.Refusal)
  /-- The search cannot tell whether there is a file. -/
  | search (path : String) (cause : FileSystem.Failure)

def LoadError.message : LoadError → String
  | .unreadable path cause => path ++ ": failed to parse TOML: " ++ cause.message
  | .malformed path => path ++ ": failed to parse TOML"
  | .unknownKeys path keys =>
      path ++ ": unknown configuration key: " ++ ", ".intercalate (keys.map Toml.keyText)
  | .negativeJobs path => path ++ ": jobs must not be negative"
  | .start refusal => "failed to resolve start directory: getwd: " ++ refusal.message
  | .search path cause => "failed to stat " ++ Text.quote path ++ ": " ++ cause.message

/-! ## Settings -/

/-- A part of a configuration that has a name, and how it is read from a node of a document, unless
the node is of another type. -/
structure Setting where
  name : String
  {α : Type}
  read : Toml.Node → Option α
  get : Config → α
  set : α → Config → Config

namespace Setting

/-- A setting takes the value of a node. -/
def apply (s : Setting) (node : Toml.Node) (c : Config) : Option Config :=
  (s.read node).map (s.set · c)

def switch? : Toml.Node → Option Bool
  | .value (.bool b) => some b
  | _ => none

def number? : Toml.Node → Option Int
  | .value (.int n) => some n
  | _ => none

/-- The text of a value. -/
def valueText? : Toml.Value → Option String
  | .text s => some s
  | _ => none

def text? : Toml.Node → Option String
  | .value v => valueText? v
  | _ => none

def texts? : Toml.Node → Option (List String)
  | .value (.list items) => items.mapM valueText?
  | _ => none

end Setting

/-- All settings. -/
def settings : List Setting :=
  [⟨"include-tests", Setting.switch?, Config.includeTests,
      fun b c => { c with includeTests := b }⟩,
   ⟨"include-generated", Setting.switch?, Config.includeGenerated,
      fun b c => { c with includeGenerated := b }⟩,
   ⟨"strong-skipping", Setting.switch?, Config.strongSkipping,
      fun b c => { c with strongSkipping := b }⟩,
   ⟨"ignored-packages", Setting.texts?, Config.ignoredPackages,
      fun l c => { c with ignoredPackages := l }⟩,
   ⟨"ignored-types", Setting.texts?, Config.ignoredTypes, fun l c => { c with ignoredTypes := l }⟩,
   ⟨"stable-types", Setting.texts?, Config.stableTypes, fun l c => { c with stableTypes := l }⟩,
   ⟨"output-dir", Setting.text?, Config.outputDir, fun s c => { c with outputDir := s }⟩,
   ⟨"report-name", Setting.text?, Config.reportName, fun s c => { c with reportName := s }⟩,
   ⟨"jobs", Setting.number?, Config.jobs, fun n c => { c with jobs := n }⟩,
   ⟨"cache-dir", Setting.text?, Config.cacheDir, fun s c => { c with cacheDir := s }⟩]

/-- The setting that a key names. -/
def setting? (key : String) : Option Setting :=
  (settings.find? (·.name == key)).orElse fun _ => settings.find? (Text.sameFolded ·.name key)

/-- Whether a key names a setting. -/
def isKnown : Toml.Key → Bool
  | [name] => (setting? name).isSome
  | _ => false

/-- The configuration that a document describes, over the defaults; `none` if a value has the wrong
type. -/
def ofDocument (d : Toml.Document) : Option Config :=
  d.root.foldlM (fun c (name, node) =>
    match setting? name with
    | none => some c
    | some s => s.apply node c) default

/-! ## Loading -/

/-- Reads a document from the bytes of a file; `none` if they are none. -/
abbrev Reader := List UInt8 → Option Toml.Document

/-- Reads a configuration from the bytes of its file. -/
def ofBytes (reader : Reader) (path : String) (bytes : List UInt8) : Except LoadError Config :=
  match reader bytes with
  | none => .error (.malformed path)
  | some d =>
      match ofDocument d with
      | none => .error (.malformed path)
      | some c =>
          match d.keys.filter (!isKnown ·) with
          | [] => if c.jobs < 0 then .error (.negativeJobs path) else .ok { c with path }
          | unknown => .error (.unknownKeys path unknown)

/-- Reads a configuration file. -/
def load (reader : Reader) (fs : FileSystem) (path : String) : Except LoadError Config :=
  match fs.read path with
  | .error cause => .error (.unreadable path cause)
  | .ok bytes => ofBytes reader path bytes

/-- What a search finds, and the paths that it asks the system about, in order. -/
structure Searched where
  asked : List String
  found : Except LoadError (Option String)

/-- Looks for a configuration file in a directory and in those above it, until it is there, the
system refuses to tell whether it is, or a directory has none above it. -/
def search (stat : String → Except FileSystem.Failure FileSystem.Node) (dir : String) : Searched :=
  let candidate := Path.join [dir, fileName]
  match stat candidate with
  | .ok _ => ⟨[candidate], .ok (some candidate)⟩
  | .error cause =>
      if cause.refusal = .noSuchFile then
        let parent := Path.dir dir
        if parent = dir then ⟨[candidate], .ok none⟩
        else
          let above := search stat parent
          { above with asked := candidate :: above.asked }
      else ⟨[candidate], .error (.search candidate cause)⟩
termination_by Path.depth dir
decreasing_by exact Path.depth_dir_lt ‹_›

/-- The path in which a search starts: nothing is as good as `.`. -/
def startPath (start : String) : String := if start.isEmpty then "." else start

/-- The directory in which a search starts, as seen from the root.  A relative path is nowhere
without the working directory. -/
def startOf (fs : FileSystem) (start : String) (refusals : FileSystem.Refusals := {}) :
    Except LoadError String :=
  match (if Path.isAbsolute (startPath start) then none else refusals.workingDir) with
  | some refusal => .error (.start refusal)
  | none => .ok (Path.absolute fs.workingPath (startPath start))

/-- The configuration file for a directory. -/
def find (fs : FileSystem) (start : String) (refusals : FileSystem.Refusals := {}) :
    Except LoadError (Option String) := do
  (search (fs.stat · refusals) (← startOf fs start refusals)).found

/-- The configuration for a directory. -/
def loadFrom (reader : Reader) (fs : FileSystem) (start : String)
    (refusals : FileSystem.Refusals := {}) : Except LoadError Config := do
  match ← find fs start refusals with
  | none => return default
  | some path => load reader fs path

/-- A directory and those above it, from the innermost outwards, given by their steps. -/
def upwards (steps : List String) : List (List String) :=
  ((List.range (steps.length + 1)).map steps.take).reverse

/-- The paths at which a configuration for a directory is looked for. -/
def candidates (fs : FileSystem) (start : String) : List String :=
  (upwards (Path.steps (Path.absolute fs.workingPath (startPath start)))).map fun steps =>
    FileSystem.pathOf (steps ++ [fileName])

end ComposeStability.Config
