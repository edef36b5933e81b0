/-
# Config.Basic -- the configuration of a project

The configuration says which functions are analyzed, what is left out of
reports, and where reports and stored results go.  Relative paths in it start
from the directory of its file.
-/
import ComposeStability.Session.Unit
import ComposeStability.FileSystem.Path

namespace ComposeStability

set_option autoImplicit false

structure Config where
  includeTests : Bool := false
  includeGenerated : Bool := false
  strongSkipping : Bool := false
  /-- Packages left out of reports, with those below them. -/
  ignoredPackages : List String := []
  /-- Receiver types left out of reports. -/
  ignoredTypes : List String := []
  /-- Further types that are known to be stable. -/
  stableTypes : List String := []
  outputDir : String := ""
  reportName : String := ""
  /-- How many packages are analyzed at a time; zero for all. -/
  jobs : Int := 0
  /-- Where results are stored; empty for the user's directory of cached files. -/
  cacheDir : String := ""
  /-- The file of the configuration; empty if there is none. -/
  path : String := ""
deriving DecidableEq, Repr

namespace Config

/-- The configuration of a project without a file. -/
def default : Config := { outputDir := ".", reportName := "stability" }

/-- What the analysis includes. -/
def behavior (c : Config) : Session.Behavior :=
  ((Flags.empty.set Session.Behavior.includeTests c.includeTests).set
    Session.Behavior.includeGenerated c.includeGenerated).set
    Session.Behavior.strongSkipping c.strongSkipping

/-- The directory that relative paths start from. -/
def dir (c : Config) : String := if c.path.isEmpty then "." else Path.dir c.path

/-- A path of the configuration as seen from the working directory. -/
def resolve (c : Config) (path : String) : String :=
  if path.isEmpty || Path.isAbsolute path then path else Path.join [c.dir, path]

end Config

end ComposeStability
