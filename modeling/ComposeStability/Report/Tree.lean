/-
# Report.Tree -- functions drawn as a tree

Each function is a branch with its outcome, and below it stand its receivers
and parameters with their stability.
-/
import ComposeStability.Stability.Summary
import ComposeStability.Text.Colour

namespace ComposeStability.Report

set_option autoImplicit false

open Stability (Summary Value)

/-- The restartable functions that cannot be skipped. -/
def notSkippable (summaries : List Summary) : List Summary :=
  summaries.filter fun s => s.restartable && !s.skippable

/-- What leads to a branch, and what stands below it. -/
def branch (last : Bool) : String × String :=
  if last then ("└─ ", "   ") else ("├─ ", "│  ")

/-- The outcome of a function. -/
def outcomeText (colour : Bool) (s : Summary) : String :=
  if !s.restartable then Text.paint colour .faint "[non-restartable]"
  else if s.strongSkipping then Text.paint colour .yellow "[skippable by strong skipping]"
  else if s.skippable then Text.paint colour .green "[skippable]"
  else Text.paint colour .red "[restartable, not skippable]"

def valueStyle : Value → Text.Style
  | .stable => .green
  | .unstable => .red
  | _ => .yellow

/-- A stability with the reason for it. -/
def valueText (colour : Bool) (v : Value) (reason : String) : String :=
  Text.paint colour (valueStyle v)
    (if reason.isEmpty then v.text else v.text ++ " (" ++ reason ++ ")")

/-- The lines below a function. -/
def leaves (colour : Bool) (s : Summary) : List String :=
  s.receivers.map (fun r => "receiver " ++ r.type ++ " " ++ valueText colour r.stability r.reason) ++
    s.parameters.map fun p => p.name ++ ": " ++ p.type ++ " " ++ valueText colour p.stability p.reason

/-- Lines on branches, the last one marked. -/
def branches (indent : String) : List String → List String
  | [] => []
  | [line] => [indent ++ (branch true).1 ++ line]
  | line :: rest => (indent ++ (branch false).1 ++ line) :: branches indent rest

/-- The lines of a tree of functions. -/
def treeLines (colour : Bool) : List Summary → List String
  | [] => []
  | s :: rest =>
      let (lead, indent) := branch rest.isEmpty
      (lead ++ s.name ++ " " ++ outcomeText colour s) ::
        (branches indent (leaves colour s) ++ treeLines colour rest)

/-- Functions drawn as a tree. -/
def tree (colour : Bool) (summaries : List Summary) : String :=
  String.join ((treeLines colour summaries).map (· ++ "\n"))

end ComposeStability.Report
