/-
# Report.Selection -- which functions a report lists

A report leaves out functions that are marked so, functions of ignored
packages, and methods of ignored types.  Of several functions with one name it
lists the first.
-/
import ComposeStability.Stability.Summary
import ComposeStability.Text.Cut

namespace ComposeStability.Report

set_option autoImplicit false

open Stability (Summary)

/-- What a report leaves out. -/
structure Filter where
  /-- Beginnings of qualified names. -/
  packages : List String := []
  /-- Simple names of receiver types. -/
  types : List String := []
  /-- Qualified names of functions. -/
  functions : List String := []

/-- The name of a method's receiver type: what stands between the package name
and the method name.  A function without a receiver has none. -/
def receiverName? (s : Summary) : Option String :=
  if s.receivers.isEmpty then none
  else
    let owner := (Text.stripEnd? ("." ++ s.name) s.qualifiedName).getD s.qualifiedName
    let lastElement := ((Text.cutLastString owner "/").map (·.2)).getD owner
    (Text.cutString lastElement ".").map (·.2)

namespace Filter

/-- Whether a function belongs in the report. -/
def keeps (f : Filter) (s : Summary) : Bool :=
  !f.functions.contains s.qualifiedName &&
    !f.packages.any (Text.startsWith · s.qualifiedName) &&
    !(receiverName? s).any fun receiver => receiver != "" && f.types.contains receiver

def apply (f : Filter) (summaries : List Summary) : List Summary :=
  summaries.filter f.keeps

end Filter

/-- Of the summaries with one qualified name the first. -/
def firstOfEachName : List String → List Summary → List Summary
  | _, [] => []
  | seen, s :: rest =>
      if seen.contains s.qualifiedName then firstOfEachName seen rest
      else s :: firstOfEachName (s.qualifiedName :: seen) rest

/-- The functions to report, given the summaries and ignored names of each
package and the ignored packages and types. -/
def select (results : List (List Summary × List String)) (packages types : List String) :
    List Summary :=
  let filter : Filter := ⟨packages, types, results.flatMap (·.2)⟩
  filter.apply (firstOfEachName [] (results.flatMap (·.1)))

end ComposeStability.Report
