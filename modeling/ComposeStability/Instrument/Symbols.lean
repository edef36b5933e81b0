/-
# Instrument.Symbols -- the runtime that injected code calls

Injected code acquires a tracker, tells it every parameter and flushes it.  The
names of these functions are looked up in the runtime package, which has to
provide them with the expected numbers of parameters.
-/
import ComposeStability.Program.MethodSet

namespace ComposeStability.Instrument

set_option autoImplicit false

open Program (Package Packages Ty)

/-- How methods of the tracker are called. -/
inductive Convention where
  /-- On the tracker. -/
  | methodValue
  /-- As functions of their type, with the tracker as first argument. -/
  | methodExpression
  /-- Any other convention, which calls methods on the tracker. -/
  | other (code : UInt8)
deriving DecidableEq, Repr

namespace Convention

def ofCode (code : UInt8) : Convention :=
  if code = 0 then .methodValue else if code = 1 then .methodExpression else .other code

def code : Convention → UInt8
  | .methodValue => 0
  | .methodExpression => 1
  | .other code => code

/-- Where an argument of a method stands in a call. -/
def argSlot (c : Convention) (i : Nat) : Nat :=
  if c = .methodExpression then i + 1 else i

end Convention

/-- The names that injected code uses. -/
structure Symbols where
  /-- The name the runtime package is imported as. -/
  package : String
  path : String
  tracker : String
  acquire : String
  track : String
  flush : String
  convention : Convention := .methodValue
deriving DecidableEq, Repr

/-- The path of the runtime package. -/
def runtimePath : String := "fillmore-labs.com/stableguard/recompose"

namespace Symbols

/-- The symbols of the runtime package. -/
def runtime : Symbols where
  package := "recompose"
  path := runtimePath
  tracker := "Tracker"
  acquire := "Acquire"
  track := "TrackParameter"
  flush := "LogIfThresholdMet"

/-- Whether all names that the convention needs are there. -/
def isValid (s : Symbols) : Bool :=
  !s.package.isEmpty && !s.acquire.isEmpty && !s.track.isEmpty && !s.flush.isEmpty &&
    (s.convention == .methodValue || !s.tracker.isEmpty)

end Symbols

/-! ## Resolution -/

/-- Why the runtime can't be used. -/
inductive MissingSymbol where
  | notLoaded
  | symbol (path name : String)
  | method (path name : String)
  | noTypes (path : String)
  | noFiles (path : String)
  /-- Loading the runtime package failed. -/
  | unloadable (cause : String)
deriving DecidableEq, Repr

def MissingSymbol.message (m : MissingSymbol) : String :=
  "runtime symbol missing: " ++ match m with
    | .notLoaded => "package " ++ runtimePath ++ " not loaded"
    | .symbol path name => path ++ "." ++ name
    | .method path name => "(*" ++ path ++ ".Tracker)." ++ name
    | .noTypes path => path ++ " has no type information"
    | .noFiles path => path ++ " has no source files"
    | .unloadable cause => cause

/-- Whether an object is a function of three parameters that returns a tracker. -/
def isAcquire (ps : Packages) (tracker : Ty) : Option Program.Object → Bool
  | some (.func s) =>
      s.params.length = 3 && match s.results with
        | [r] => ps.identical r.type tracker
        | _ => false
  | _ => false

/-- Whether a type has a method with a number of parameters. -/
def hasMethod (ps : Packages) (t : Ty) (name : String) (arity : Nat) : Bool :=
  match ps.select? t name with
  | some (.method s _) => s.params.length = arity
  | _ => false

/-- The symbols of the runtime, looked up in its package. -/
def resolve (ps : Packages) (p : Option Package) (convention : Convention) :
    Except MissingSymbol Symbols :=
  match p with
  | none => .error .notLoaded
  | some p =>
      match p.lookup "Tracker" with
      | some (.type _) =>
          let tracker := Ty.pointer (.named p.path "Tracker" [])
          if !isAcquire ps tracker (p.lookup "Acquire") then .error (.symbol p.path "Acquire")
          else if !hasMethod ps tracker "TrackParameter" 4 then
            .error (.method p.path "TrackParameter")
          else if !hasMethod ps tracker "LogIfThresholdMet" 0 then
            .error (.method p.path "LogIfThresholdMet")
          else .ok { Symbols.runtime with package := p.name, path := p.path, convention }
      | _ => .error (.symbol p.path "Tracker")

end ComposeStability.Instrument
