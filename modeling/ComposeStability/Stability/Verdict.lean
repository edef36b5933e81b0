/-
# Stability.Verdict -- what classification finds out about a type

A verdict is stable with a reason, one obstacle to stability, or the combined
obstacles of several parts.  `combine` is the only way parts are put together:
stable parts drop out, combined parts dissolve into theirs, and the obstacles
are listed once each, in the order of their texts.  `value` forgets everything
but the three-valued outcome, and `explain` gives the reason for it.
-/
import ComposeStability.Stability.Value

namespace ComposeStability.Stability

set_option autoImplicit false

/-! ## Obstacles -/

/-- A reason why a type is not known to be stable. -/
inductive Obstacle where
  /-- The type can change unnoticed. -/
  | unstable (reason : String)
  /-- The outcome depends on something only seen at run time; the reason may be empty. -/
  | runtime (typeName reason : String)
  /-- An interface or abstract type without a shape to inspect. -/
  | unknown (declaration : String)
  /-- A type parameter that is not yet resolved. -/
  | parametric (parameter : String)
deriving DecidableEq, Repr

namespace Obstacle

def text : Obstacle → String
  | .unstable reason => "Unstable(" ++ reason ++ ")"
  | .runtime typeName reason =>
      if reason.isEmpty then "Runtime(" ++ typeName ++ ")"
      else "Runtime(" ++ typeName ++ ": " ++ reason ++ ")"
  | .unknown declaration => "Unknown(" ++ declaration ++ ")"
  | .parametric parameter => "Parametric(" ++ parameter ++ ")"

/-- An obstacle makes a type unstable, or leaves the decision to run time. -/
def value : Obstacle → Value
  | .unstable _ => .unstable
  | .runtime _ _ | .unknown _ | .parametric _ => .runtime

def explain : Obstacle → String
  | .unstable reason => reason
  | .runtime typeName reason =>
      if reason.isEmpty then "stability of " ++ typeName ++ " is decided at runtime"
      else typeName ++ ": " ++ reason
  | .unknown declaration => declaration ++ " is an interface or abstract type"
  | .parametric parameter => "depends on type parameter " ++ parameter

end Obstacle

/-! ## Verdicts -/

/-- The stability of a type, as far as analysis can tell. -/
inductive Verdict where
  | stable (reason : String)
  | obstacle (o : Obstacle)
  /-- The parts come from `Verdict.combine`, which keeps them sorted and distinct. -/
  | combined (parts : List Obstacle)
deriving DecidableEq, Repr

namespace Verdict

/-- A type that can change unnoticed. -/
def unstable (reason : String) : Verdict := .obstacle (.unstable reason)

/-- A type without a shape to inspect. -/
def unknown (declaration : String) : Verdict := .obstacle (.unknown declaration)

/-- A type whose stability is decided at run time. -/
def runtime (typeName reason : String) : Verdict := .obstacle (.runtime typeName reason)

def text : Verdict → String
  | .stable reason => "Stable(" ++ reason ++ ")"
  | .obstacle o => o.text
  | .combined parts => "Combined[" ++ ", ".intercalate (parts.map Obstacle.text) ++ "]"

/-- The obstacles that a verdict contributes to a combination. -/
def obstacles : Verdict → List Obstacle
  | .stable _ => []
  | .obstacle o => [o]
  | .combined parts => parts

/-- Unstable wins over runtime, and runtime over stable. -/
def worst (values : List Value) : Value :=
  if .unstable ∈ values then .unstable
  else if .runtime ∈ values then .runtime
  else .stable

/-- The three-valued outcome. -/
def value : Verdict → Value
  | .stable _ => .stable
  | .obstacle o => o.value
  | .combined parts => worst (parts.map Obstacle.value)

/-- The reason for the outcome.  Of combined parts those speak that have the
outcome of the whole. -/
def explain : Verdict → String
  | .stable reason => reason
  | .obstacle o => o.explain
  | .combined parts =>
      let outcome := worst (parts.map Obstacle.value)
      "; ".intercalate ((parts.filter fun o => o.value == outcome).map Obstacle.explain)

/-- Obstacles in the order of their texts.  Those of one text keep their order, as they do in a sort
of a few elements; of longer lists nothing is promised. -/
def sortByText (parts : List Obstacle) : List Obstacle :=
  parts.mergeSort fun a b => decide (a.text ≤ b.text)

/-- Of neighbours with one text the first. -/
def dropRepeats : List Obstacle → List Obstacle
  | [] => []
  | [o] => [o]
  | a :: b :: rest =>
      if a.text = b.text then dropRepeats (a :: rest) else a :: dropRepeats (b :: rest)
termination_by parts => parts.length

/-- The verdict on several parts together; unresolved parts are left out. -/
def combine (parts : List (Option Verdict)) : Verdict :=
  .combined (dropRepeats (sortByText (parts.flatMap fun part => (part.map obstacles).getD [])))

end Verdict

/-! ## Unresolved types -/

/-- The outcome of a type that may be unresolved. -/
def valueOf (verdict : Option Verdict) : Value :=
  (verdict.map Verdict.value).getD .runtime

/-- The reason for the outcome of a type that may be unresolved. -/
def explain (verdict : Option Verdict) : String :=
  (verdict.map Verdict.explain).getD "unresolved type"

end ComposeStability.Stability
