/-
# Command.Setup -- what is decided before a command runs

The flags of all commands decide on the log, the colours and the configuration.
Flags that are given win over the configuration file.
-/
import ComposeStability.Command.Flag
import ComposeStability.Config.Load
import ComposeStability.Log.Record
import ComposeStability.Report.Write

namespace ComposeStability.Command

set_option autoImplicit false

/-- Why a command can't start. -/
inductive SetupError where
  | colourMode (mode : String)
  | config (cause : Config.LoadError)
  | trace (cause : FileSystem.Failure)

def SetupError.message : SetupError → String
  | .colourMode mode => "unknown color mode " ++ Text.quote mode
  | .config cause => cause.message
  | .trace cause => "trace: " ++ cause.message

/-- What is decided. -/
structure Setup where
  config : Config := {}
  /-- The least level of records that are shown. -/
  logLevel : Log.Level := .info
  colour : Bool := false
  files : FileSystem
  log : List Log.Record := []

/-- Whether colours are used, given whether they are by default. -/
def colourOf (byDefault : Bool) : String → Except SetupError Bool
  | "auto" => .ok byDefault
  | "on" => .ok true
  | "off" => .ok false
  | mode => .error (.colourMode mode)

/-- The configuration that flags name, or else the one for the working directory. -/
def loadConfig (reader : Config.Reader) (files : FileSystem) (given : Given) :
    Except Config.LoadError Config :=
  match given.text "config" with
  | "" => Config.loadFrom reader files "."
  | path => Config.load reader files path

/-- What is left of the configuration when it can't be loaded: a search that fails has not seen a
file yet. -/
def configAfter : Config.LoadError → Config
  | .search _ _ | .start _ => .default
  | _ => {}

/-- A configuration with the flags that are given. -/
def overridden (given : Given) (c : Config) : Config :=
  let c := if given.has "jobs" then { c with jobs := given.number "jobs" } else c
  let c := if given.has "tests" then { c with includeTests := given.switch "tests" } else c
  if given.has "strong-skipping" then { c with strongSkipping := given.switch "strong-skipping" } else c

/-- Decides what the flags say.  What is decided before an error counts. -/
def setup (reader : Config.Reader) (files : FileSystem) (given : Given) :
    Setup × Except SetupError Unit :=
  let s : Setup := { files, logLevel := if given.switch "verbose" then .debug else .info }
  match colourOf s.colour (if given.has "color" then given.text "color" else "auto") with
  | .error e => (s, .error e)
  | .ok colour =>
      match loadConfig reader files given with
      | .error e => ({ s with colour, config := configAfter e }, .error (.config e))
      | .ok c =>
          let log := if c.path.isEmpty then []
            else [⟨.debug, "Configuration loaded", [("path", .text c.path)]⟩]
          let s := { s with colour, config := overridden given c, log }
          match given.text "trace" with
          | "" => (s, .ok ())
          | path =>
              match files.write path [] with
              | .error cause => (s, .error (.trace cause))
              | .ok files => ({ s with files }, .ok ())

/-- Where the report is, from flags and configuration. -/
def reportPath (given : Given) (c : Config) : String :=
  let dir := match given.text "output" with
    | "" => c.resolve c.outputDir
    | dir => dir
  let name := match given.text "name" with
    | "" => c.reportName
    | name => name
  Path.join [dir, name ++ Report.extension]

end ComposeStability.Command
