/-
# Directive -- instructions in doc comments

A directive is a comment `//stableguard:NAME ARGUMENTS`; a comment after it
starts with ` //`.  Five directives belong to functions and five to types.
Reading a doc comment applies every valid directive and reports each other one
at its own position, so one mistake never hides another (`ofFunction`,
`ofType`).
-/
import ComposeStability.Source.Comment
import ComposeStability.Text.Quoted
import ComposeStability.TypeGraph.Marker

namespace ComposeStability.Directive

set_option autoImplicit false

open Source (Pos Comment)
open TypeGraph (Marker Markers)

/-! ## Causes -/

/-- Why a directive is not valid. -/
inductive Fault where
  | unknownName
  | unexpectedArguments (arguments : String)
  | argumentWithoutValue (argument : String)
  | unknownArgument (key : String)
  | appliesToTypes (name : String)
  | appliesToFunctions (name : String)
  | malformedTag (literal : String)
  | invalidThreshold (value : String)
  /-- Only composable functions can be traced. -/
  | traceNotComposable
deriving DecidableEq, Repr

def Fault.message : Fault → String
  | .unknownName => "unknown directive"
  | .unexpectedArguments arguments =>
      "unknown directive: unexpected arguments " ++ Text.quote arguments
  | .argumentWithoutValue argument =>
      "unknown directive: argument " ++ Text.quote argument ++ " has no value"
  | .unknownArgument key => "unknown directive: argument " ++ Text.quote key
  | .appliesToTypes name => "misplaced directive: " ++ Text.quote name ++ " applies to types"
  | .appliesToFunctions name =>
      "misplaced directive: " ++ Text.quote name ++ " applies to functions"
  | .malformedTag literal => "tag " ++ literal ++ ": invalid syntax"
  | .invalidThreshold value =>
      "trace threshold must be a positive integer: " ++ Text.quote value
  | .traceNotComposable => "trace directive on a function that is not composable"

/-- A directive that is not valid. -/
structure Mistake where
  comment : Comment
  fault : Fault
deriving DecidableEq, Repr

def Mistake.message (m : Mistake) : String :=
  "invalid directive " ++ Text.quote m.comment.text ++ ": " ++ m.fault.message

/-- What every directive starts with. -/
def start : String := "//stableguard:"

/-- The mistake of a trace directive at a position on a function that is not composable. -/
def strayTrace (pos : Pos) : Mistake := ⟨⟨pos, start ++ "trace"⟩, .traceNotComposable⟩

/-! ## Splitting a comment -/

/-- A directive's name and arguments; `none` for any other comment. -/
def nameAndArguments? (text : String) : Option (String × String) :=
  (Text.stripStart? start text).map fun body =>
    let body := match Text.cutString body " //" with
      | some (before, _) => before
      | none => body
    match Text.cutString body " " with
    | some (name, arguments) => (name, Text.trim arguments)
    | none => (body, "")

/-! ## Functions -/

/-- The arguments of a trace directive. -/
structure Trace where
  pos : Pos := 0
  /-- The bytes of the tag; a literal may denote some that are no text. -/
  tag : List UInt8 := []
  /-- Events are reported from this call on. -/
  threshold : Int := 1
deriving DecidableEq, Repr

/-- The directives of a function. -/
structure OnFunction where
  composable : Bool := false
  nonRestartable : Bool := false
  readonly : Bool := false
  ignore : Bool := false
  trace : Option Trace := none
deriving DecidableEq, Repr

/-- The directives of functions that take no arguments. -/
inductive FunctionFlag where
  | composable
  | nonRestartable
  | readonly
  | ignore
deriving DecidableEq, Repr

namespace FunctionFlag

def ofName? : String → Option FunctionFlag
  | "composable" => some .composable
  | "nonrestartable" => some .nonRestartable
  | "readonly" => some .readonly
  | "ignore" => some .ignore
  | _ => none

def apply (flag : FunctionFlag) (d : OnFunction) : OnFunction :=
  match flag with
  | .composable => { d with composable := true }
  | .nonRestartable => { d with nonRestartable := true }
  | .readonly => { d with readonly := true }
  | .ignore => { d with ignore := true }

end FunctionFlag

/-- The tag a text denotes: a quoted literal, or the text itself. -/
def tagOf (value : String) : Except Fault (List UInt8) :=
  if Text.startsWith "\"" value then
    match Text.unquoteBytes? value with
    | some tag => .ok tag
    | none => .error (.malformedTag value)
  else .ok (Text.toBytes value)

/-- The threshold a text denotes: an integer of at least one. -/
def thresholdOf (value : String) : Except Fault Int :=
  match Text.integer? value with
  | some n => if 1 ≤ n then .ok n else .error (.invalidThreshold value)
  | none => .error (.invalidThreshold value)

/-- Adds one argument to a trace directive. -/
def addArgument (t : Trace) (argument : String) : Except Fault Trace :=
  match Text.cutString argument "=" with
  | none => .error (.argumentWithoutValue argument)
  | some ("tag", value) => (tagOf value).map fun tag => { t with tag }
  | some ("threshold", value) => (thresholdOf value).map fun threshold => { t with threshold }
  | some (key, _) => .error (.unknownArgument key)

/-- The trace that a list of arguments describes. -/
def traceOf (arguments : String) : Except Fault Trace :=
  (Text.fields arguments).foldlM addArgument {}

/-- The effect of one directive on a function. -/
def functionEffect (pos : Pos) (name arguments : String) :
    Except Fault (OnFunction → OnFunction) :=
  match FunctionFlag.ofName? name with
  | some flag =>
      if arguments.isEmpty then .ok flag.apply else .error (.unexpectedArguments arguments)
  | none =>
      if name == "trace" then
        (traceOf arguments).map fun t d => { d with trace := some { t with pos } }
      else if (Marker.ofName? name).isSome then .error (.appliesToTypes name)
      else .error .unknownName

/-- Reads one comment of a function. -/
def readOnFunction (acc : OnFunction × List Mistake) (c : Comment) : OnFunction × List Mistake :=
  match nameAndArguments? c.text with
  | none => acc
  | some (name, arguments) =>
      match functionEffect c.pos name arguments with
      | .ok effect => (effect acc.1, acc.2)
      | .error fault => (acc.1, acc.2 ++ [⟨c, fault⟩])

/-- The directives in the doc comment of a function, and the invalid ones. -/
def ofFunction (doc : List Comment) : OnFunction × List Mistake :=
  doc.foldl readOnFunction ({}, [])

/-! ## Types -/

/-- The marker that one directive puts on a type. -/
def typeMarker (name arguments : String) : Except Fault Marker :=
  match Marker.ofName? name with
  | some marker =>
      if arguments.isEmpty then .ok marker else .error (.unexpectedArguments arguments)
  | none =>
      if name == "trace" || (FunctionFlag.ofName? name).isSome then
        .error (.appliesToFunctions name)
      else .error .unknownName

/-- Reads one comment of a type. -/
def readOnType (acc : Markers × List Mistake) (c : Comment) : Markers × List Mistake :=
  match nameAndArguments? c.text with
  | none => acc
  | some (name, arguments) =>
      match typeMarker name arguments with
      | .ok marker => (acc.1.enable marker.bit, acc.2)
      | .error fault => (acc.1, acc.2 ++ [⟨c, fault⟩])

/-- The markers in the doc comment of a type, and the invalid directives. -/
def ofType (doc : List Comment) : Markers × List Mistake :=
  doc.foldl readOnType (Flags.empty, [])

/-- The comments of a group that are directives. -/
def comments (doc : List Comment) : List Comment :=
  doc.filter fun c => Text.startsWith start c.text

end ComposeStability.Directive
