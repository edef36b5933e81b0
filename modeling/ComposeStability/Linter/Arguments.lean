/-
# Linter.Arguments -- flags given as arguments

A flag starts with one or two dashes.  Its value follows an equals sign or, for
flags other than switches, in the next argument.  Flags end at the first
argument that is none, or after two dashes alone.  An error leaves the flags
set that were read before it.
-/
import ComposeStability.Linter.Options
import ComposeStability.Text.Blank

namespace ComposeStability.Linter

set_option autoImplicit false

/-! ## Flags -/

/-- A flag that changes options. -/
structure Flag where
  name : String
  usage : String
  /-- A switch needs no value. -/
  isSwitch : Bool
  /-- The options after the flag was given a value, or why it is refused. -/
  set : String → Options → Except String Options
  /-- The current value. -/
  value : Options → String
  /-- The value that needs no mention. -/
  blank : String

/-- The texts that turn a switch on or off. -/
def switchValue (s : String) : Except String Bool :=
  if ["1", "t", "T", "true", "TRUE", "True", "on", "On", "full", "Full"].contains s then .ok true
  else if ["0", "f", "F", "false", "FALSE", "False", "off", "Off"].contains s then .ok false
  else .error ("strconv.ParseBool: parsing " ++ Text.quote s ++ ": invalid syntax")

/-- A flag for a switch of the analysis. -/
def behaviorFlag (bit : BitVec 8) (name usage : String) : Flag where
  name
  usage
  isSwitch := true
  set s o := (switchValue s).map fun on => { o with behavior := o.behavior.set bit on }
  value o := Text.truthText (o.behavior.enabled bit)
  blank := "false"

/-- The patterns in a list divided by commas. -/
def patternsIn (s : String) : List TypeGraph.Pattern :=
  (((Text.split ',' s).map Text.trim).filter (· != "")).map TypeGraph.Pattern.mk

/-- The flag for types known to be stable, which adds to those given before. -/
def stableTypesFlag : Flag where
  name := "stable-types"
  usage := "comma-separated list of types known to be stable"
  isSwitch := false
  set s o := .ok { o with stableTypes := o.stableTypes ++ patternsIn s }
  value o := ",".intercalate (o.stableTypes.map (·.text))
  blank := ""

/-- The flag for the report level. -/
def reportFlag : Flag where
  name := "report"
  usage := "report non-skippable functions: all, exported or off"
  isSwitch := false
  set s o := match ReportLevel.parse s with
    | .ok level => .ok { o with report := level }
    | .error unknown => .error unknown.message
  value o := match o.report.name with
    | .ok name => name
    | .error _ => ""
  blank := ""

/-- The flags of the linter, sorted by name. -/
def flags : List Flag :=
  [behaviorFlag Session.Behavior.includeGenerated "generated" "analyze generated files",
   behaviorFlag Session.Behavior.includeTests "include-tests" "analyze functions in test files",
   reportFlag,
   stableTypesFlag,
   behaviorFlag Session.Behavior.strongSkipping "strong-skipping"
     "treat every restartable function as skippable"]

/-! ## Parsing -/

/-- What is wrong with arguments. -/
inductive ArgumentError where
  | badSyntax (argument : String)
  | undefined (name : String)
  | helpRequested
  | needsArgument (name : String)
  | invalidSwitch (value name cause : String)
  | invalidValue (value name cause : String)

def ArgumentError.message : ArgumentError → String
  | .badSyntax argument => "bad flag syntax: " ++ argument
  | .undefined name => "flag provided but not defined: -" ++ name
  | .helpRequested => "flag: help requested"
  | .needsArgument name => "flag needs an argument: -" ++ name
  | .invalidSwitch value name cause =>
      "invalid boolean value " ++ Text.quote value ++ " for -" ++ name ++ ": " ++ cause
  | .invalidValue value name cause =>
      "invalid value " ++ Text.quote value ++ " for flag -" ++ name ++ ": " ++ cause

/-- How an argument reads. -/
inductive Reading where
  /-- Not a flag. -/
  | plain
  /-- Two dashes: the end of the flags. -/
  | stop
  | malformed
  | flag (name : String) (value : Option String)

/-- The name and value of a flag without its dashes.  The name has at least one
character. -/
def readFlag (first : Char) (rest : List Char) : Reading :=
  match Text.cut ['='] rest with
  | some (before, after) => .flag (String.ofList (first :: before)) (some (String.ofList after))
  | none => .flag (String.ofList (first :: rest)) none

/-- Reads one argument. -/
def readArgument (argument : String) : Reading :=
  match argument.toList with
  | ['-', '-'] => .stop
  | '-' :: '-' :: first :: rest =>
      if first == '-' || first == '=' then .malformed else readFlag first rest
  | '-' :: first :: rest => if first == '=' then .malformed else readFlag first rest
  | _ => .plain

/-- Reads flags into options.  The result holds the arguments after the flags. -/
def parseArguments (o : Options) (args : List String) :
    Except ArgumentError (List String) × Options :=
  match args with
  | [] => (.ok [], o)
  | argument :: rest =>
      match readArgument argument with
      | .plain => (.ok (argument :: rest), o)
      | .stop => (.ok rest, o)
      | .malformed => (.error (.badSyntax argument), o)
      | .flag name value =>
          match flags.find? fun f => f.name == name with
          | none =>
              if name == "help" || name == "h" then (.error .helpRequested, o)
              else (.error (.undefined name), o)
          | some f =>
              if f.isSwitch then
                let value := value.getD "true"
                match f.set value o with
                | .ok o => parseArguments o rest
                | .error cause => (.error (.invalidSwitch value name cause), o)
              else
                match value, rest with
                | some value, rest =>
                    match f.set value o with
                    | .ok o => parseArguments o rest
                    | .error cause => (.error (.invalidValue value name cause), o)
                | none, value :: rest =>
                    match f.set value o with
                    | .ok o => parseArguments o rest
                    | .error cause => (.error (.invalidValue value name cause), o)
                | none, [] => (.error (.needsArgument name), o)
termination_by args.length

/-! ## Usage -/

/-- The lines on one flag.  Values other than blank ones are mentioned. -/
def Flag.help (f : Flag) (defaults : Options) : String :=
  let default := f.value defaults
  "  -" ++ f.name ++ (if f.isSwitch then "" else " value") ++ "\n    \t" ++ f.usage ++
    (if default == f.blank then "" else " (default " ++ default ++ ")") ++ "\n"

/-- The description of all flags, for given default values. -/
def usage (defaults : Options) : String :=
  "".intercalate (flags.map fun f => f.help defaults)

end ComposeStability.Linter
