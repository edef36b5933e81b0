/-
# Linter.Options -- how the linter is configured in code

Options start from the defaults and are changed by a list of choices, the later
ones on top of the earlier ones.  Choices may be grouped, and an empty choice
changes nothing.
-/
import ComposeStability.Linter.ReportLevel
import ComposeStability.Session.Unit
import ComposeStability.Log.Record

namespace ComposeStability.Linter

set_option autoImplicit false

open Session (Behavior)

/-- How the linter runs. -/
structure Options where
  behavior : Behavior := Flags.empty
  stableTypes : List TypeGraph.Pattern := []
  report : ReportLevel := .all

/-- A change of the options. -/
inductive Choice where
  | nothing
  | generated (on : Bool)
  | tests (on : Bool)
  | strongSkipping (on : Bool)
  | stableTypes (patterns : List String)
  | report (level : ReportLevel)
  | group (choices : List Choice)
deriving Inhabited

namespace Choice

mutual

/-- The options after a choice. -/
def apply (o : Options) : Choice → Options
  | .nothing => o
  | .generated on => { o with behavior := o.behavior.set Behavior.includeGenerated on }
  | .tests on => { o with behavior := o.behavior.set Behavior.includeTests on }
  | .strongSkipping on => { o with behavior := o.behavior.set Behavior.strongSkipping on }
  | .stableTypes patterns =>
      { o with stableTypes := o.stableTypes ++ patterns.map TypeGraph.Pattern.mk }
  | .report level => { o with report := level }
  | .group choices => applyAll o choices

/-- The options after choices in order. -/
def applyAll (o : Options) : List Choice → Options
  | [] => o
  | choice :: rest => applyAll (choice.apply o) rest

end

mutual

/-- A choice as named values for a log; groups are flattened. -/
def attributes : Choice → List (String × Log.Value)
  | .nothing => [("nil", .text "<nil>")]
  | .generated on => [("generated", .bool on)]
  | .tests on => [("include-tests", .bool on)]
  | .strongSkipping on => [("strong-skipping", .bool on)]
  | .stableTypes patterns => [("stable-types", .texts (some patterns))]
  | .report level => [("report", .int level.code.toNat)]
  | .group choices => attributesOfAll choices

/-- Choices in order as named values for a log. -/
def attributesOfAll : List Choice → List (String × Log.Value)
  | [] => []
  | choice :: rest => choice.attributes ++ attributesOfAll rest

end

/-- The name under which choices are logged. -/
def logName : String := "options"

end Choice

/-- The options that choices lead to. -/
def Options.ofChoices (choices : List Choice) : Options := Choice.applyAll {} choices

end ComposeStability.Linter
