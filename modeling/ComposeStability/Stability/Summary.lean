/-
# Stability.Summary -- the stability of one function

A summary says of a function that produces user interface whether it can be
restarted and skipped, and lists the stability of its parameters and receivers.
-/
import ComposeStability.Stability.Value

namespace ComposeStability.Stability

set_option autoImplicit false

/-- The stability of one parameter. -/
structure Parameter where
  name : String
  type : String
  stability : Value
  /-- Why the parameter is not stable; empty if it is. -/
  reason : String := ""
deriving DecidableEq, Repr, Inhabited

/-- The stability of one receiver. -/
structure Receiver where
  type : String
  stability : Value
  /-- Why the receiver is not stable; empty if it is. -/
  reason : String := ""
  kind : ReceiverKind
deriving DecidableEq, Repr, Inhabited

/-- The stability of a function. -/
structure Summary where
  name : String
  qualifiedName : String
  visibility : String
  returnType : String
  restartable : Bool
  skippable : Bool
  readonly : Bool := false
  /-- The function is skippable only because every restartable function is. -/
  strongSkipping : Bool := false
  parameters : List Parameter := []
  receivers : List Receiver := []
deriving DecidableEq, Repr, Inhabited

namespace Summary

/-- The unstable parameters, in order. -/
def unstableParameters (s : Summary) : List Parameter :=
  s.parameters.filter fun p => p.stability == .unstable

/-- The unstable receivers, in order. -/
def unstableReceivers (s : Summary) : List Receiver :=
  s.receivers.filter fun r => r.stability == .unstable

/-- One line about the function. -/
def line (s : Summary) : String :=
  let outcome :=
    if s.skippable then "✅ Skippable"
    else if s.restartable then "⚠️ Restartable but not skippable"
    else "❌ Not restartable"
  let names := s.unstableParameters.map (·.name)
  let unstable := if names.isEmpty then "" else " (unstable: " ++ ", ".intercalate names ++ ")"
  s.name ++ ": " ++ outcome ++ unstable

end Summary

end ComposeStability.Stability
