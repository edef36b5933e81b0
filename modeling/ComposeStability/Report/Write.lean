/-
# Report.Write -- the text of a stability report

A report starts with two comment lines.  Each function is an entry after an
empty line, in the order of qualified names: a heading, the signature, two
properties and, if there are parameters, the stability of each.
-/
import ComposeStability.Stability.Summary
import ComposeStability.Text.Number

namespace ComposeStability.Report

set_option autoImplicit false

open Stability (Summary Parameter)

/-- The extension of report files. -/
def extension : String := ".stability"

/-- The line that starts an entry. -/
def heading : String := "@Composable"

/-- The lines that start a report. -/
def opening : List String :=
  ["// Stability report generated by stableguard.",
   "// Do not edit, regenerate with: stableguard report"]

/-- What comes before a property. -/
def propertyIndent : String := "  "

/-- What comes before the stability of a parameter. -/
def itemIndent : String := "    - "

/-- The line with the signature of a function. -/
def signatureLine (s : Summary) : String :=
  let params := ", ".intercalate (s.parameters.map fun p => p.name ++ ": " ++ p.type)
  s.visibility ++ " func " ++ s.qualifiedName ++ "(" ++ params ++ "): " ++ s.returnType

/-- The line with the stability of a parameter. -/
def itemLine (p : Parameter) : String :=
  let reason := if p.reason.isEmpty then "" else " (" ++ p.reason ++ ")"
  itemIndent ++ p.name ++ ": " ++ p.stability.text ++ reason

/-- The lines of an entry. -/
def entryLines (s : Summary) : List String :=
  [heading, signatureLine s,
   propertyIndent ++ "skippable: " ++ Text.truthText s.skippable,
   propertyIndent ++ "restartable: " ++ Text.truthText s.restartable] ++
    if s.parameters.isEmpty then []
    else (propertyIndent ++ "params:") :: s.parameters.map itemLine

/-- Summaries in the order of qualified names; those of one name keep their order. -/
def sortByName (summaries : List Summary) : List Summary :=
  summaries.mergeSort fun a b => decide (a.qualifiedName ≤ b.qualifiedName)

/-- The lines of a report. -/
def lines (summaries : List Summary) : List String :=
  opening ++ (sortByName summaries).flatMap fun s => "" :: entryLines s

/-- The report on a list of functions, given in any order. -/
def write (summaries : List Summary) : String :=
  String.join ((lines summaries).map (· ++ "\n"))

end ComposeStability.Report
