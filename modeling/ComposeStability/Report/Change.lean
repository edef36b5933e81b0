/-
# Report.Change -- what changed between two reports

The entries of a recorded and of a current report are compared by qualified
name; of several entries with one name the last counts.  A function that can no
longer be restarted or skipped, or a parameter that is no longer stable, is a
regression.
-/
import ComposeStability.Stability.Summary
import ComposeStability.Text.Colour

namespace ComposeStability.Report

set_option autoImplicit false

open Stability (Summary Parameter Value)

/-! ## Kinds -/

/-- The kind of a difference. -/
inductive ChangeKind where
  | added
  | removed
  | regressed
  | improved
  | modified
deriving DecidableEq, Repr

namespace ChangeKind

/-- All kinds, in the order of their codes. -/
def all : List ChangeKind := [.added, .removed, .regressed, .improved, .modified]

def text : ChangeKind → String
  | .added => "added"
  | .removed => "removed"
  | .regressed => "regressed"
  | .improved => "improved"
  | .modified => "modified"

/-- The text of a code, which need not name a kind. -/
def textOfCode (code : UInt8) : String :=
  match all[code.toNat]? with
  | some kind => kind.text
  | none => "ChangeKind(" ++ toString code.toNat ++ ")"

end ChangeKind

/-- A difference of one function between two reports. -/
structure Change where
  qualifiedName : String
  kind : ChangeKind
  detail : String := ""
deriving DecidableEq, Repr

def Change.text (c : Change) : String :=
  let detail := if c.detail.isEmpty then "" else " (" ++ c.detail ++ ")"
  c.qualifiedName ++ ": " ++ c.kind.text ++ detail

/-! ## Comparison -/

/-- The first difference between two parameter lists of one length: its
description, and whether it is a regression. -/
def parameterChange? : List Parameter → List Parameter → Option (String × Bool)
  | old :: olds, cur :: curs =>
      if old.name ≠ cur.name ∨ old.type ≠ cur.type then
        some ("parameter " ++ cur.name ++ ": " ++ cur.type ++ ", was " ++ old.name ++ ": " ++
          old.type, false)
      else if old.stability ≠ cur.stability then
        some ("parameter " ++ cur.name ++ ": " ++ cur.stability.text ++ ", was " ++
          old.stability.text, old.stability == .stable)
      else parameterChange? olds curs
  | _, _ => none

/-- The first difference between two parameter lists. -/
def parametersChange? (old cur : List Parameter) : Option (String × Bool) :=
  if old.length ≠ cur.length then
    some (s!"{cur.length} parameters, was {old.length}", false)
  else parameterChange? old cur

/-- The difference between two entries of one function. -/
def compare? (old cur : Summary) : Option Change :=
  let change (kind : ChangeKind) (detail : String) : Option Change :=
    some ⟨cur.qualifiedName, kind, detail⟩
  if old.restartable ∧ ¬ cur.restartable then change .regressed "no longer restartable"
  else if old.skippable ∧ ¬ cur.skippable then change .regressed "no longer skippable"
  else if ¬ old.skippable ∧ cur.skippable then change .improved "now skippable"
  else match parametersChange? old.parameters cur.parameters with
    | some (detail, regressed) => change (if regressed then .regressed else .modified) detail
    | none =>
        if old.restartable = cur.restartable ∧ old.returnType = cur.returnType ∧
            old.visibility = cur.visibility then none
        else change .modified ""

/-- The entry of a function: the last one with its name. -/
def entry? (report : List Summary) (name : String) : Option Summary :=
  report.reverse.find? fun s => s.qualifiedName == name

/-- What happened to the function of a given name. -/
def change? (golden current : List Summary) (name : String) : Option Change :=
  match entry? golden name, entry? current name with
  | none, none => none
  | none, some _ => some ⟨name, .added, ""⟩
  | some _, none => some ⟨name, .removed, ""⟩
  | some old, some cur => compare? old cur

/-- The names in two reports, sorted, each once. -/
def allNames (golden current : List Summary) : List String :=
  let names := (golden ++ current).map (·.qualifiedName)
  (names.mergeSort fun a b => decide (a ≤ b)).eraseReps

/-- The differences between a recorded and a current report, by name. -/
def diff (golden current : List Summary) : List Change :=
  (allNames golden current).filterMap (change? golden current)

/-- The changes for the worse. -/
def regressions (changes : List Change) : List Change :=
  changes.filter fun c => c.kind == .regressed

/-! ## Display -/

/-- The style a change is shown in. -/
def Change.style (c : Change) : Text.Style :=
  match c.kind with
  | .regressed | .removed => .red
  | .improved => .green
  | _ => .plain

/-- The changes, one a line. -/
def showChanges (colour : Bool) (changes : List Change) : String :=
  String.join (changes.map fun c => Text.paint colour c.style c.text ++ "\n")

end ComposeStability.Report
