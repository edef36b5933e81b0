/-
# Tracing.Event -- what a traced call reports

An event lists the parameters of one call together with their values in the
previous one.  It is shown to a person as a few lines of text, or handed to a
structured log as one record.
-/
import ComposeStability.Tracing.Value
import ComposeStability.Text.Colour
import ComposeStability.Log.Record

namespace ComposeStability.Tracing

set_option autoImplicit false

/-! ## Events -/

/-- A parameter compared with the previous call. -/
structure Change where
  name : String
  type : String
  old : Value
  new : Value
  changed : Bool
  stable : Bool

structure Event where
  name : String
  tag : String
  /-- The number of the call, from one. -/
  count : Int
  changes : List Change
  /-- The names of the unstable parameters; a hand-made event may lack the list. -/
  unstable : Option (List String)

/-- The names of the unstable parameters, or nothing if there are none. -/
def unstableNames (changes : List Change) : Option (List String) :=
  match (changes.filter (!·.stable)).map (·.name) with
  | [] => none
  | names => some names

/-! ## Text -/

/-- The line of a parameter. -/
def Change.line (colour : Bool) (c : Change) : String :=
  let values :=
    if c.changed then
      Text.paintReset colour .yellow (c.old.describe ++ " → " ++ c.new.describe ++ " (changed)")
    else Text.paintReset colour .green (c.new.describe ++ " (unchanged)")
  let remark := if c.stable then "" else " " ++ Text.paintReset colour .redBold "[unstable]"
  "  " ++ c.name ++ ": " ++ c.type ++ " " ++ values ++ remark ++ "\n"

/-- An event as lines of text. -/
def Event.text (colour : Bool) (e : Event) : String :=
  let header := Text.paintReset colour .cyanBold s!"[Recomposition #{e.count}] {e.name}"
  let tag := if e.tag.isEmpty then "" else " (tag: " ++ e.tag ++ ")"
  let unstable := match e.unstable.getD [] with
    | [] => ""
    | names => "  unstable parameters: " ++ ", ".intercalate names ++ "\n"
  header ++ tag ++ "\n" ++ String.join (e.changes.map (Change.line colour)) ++ unstable

/-! ## Records -/

/-- A parameter as a group of a record. -/
def Change.attribute (c : Change) : String × Log.Value :=
  (c.name, .group [("type", .text c.type), ("old", .text c.old.describe),
    ("new", .text c.new.describe), ("changed", .bool c.changed), ("stable", .bool c.stable)])

/-- An event as a record of a structured log. -/
def Event.record (level : Log.Level) (e : Event) : Log.Record where
  level := level
  message := "recomposition"
  attributes := [("composable", .text e.name), ("tag", .text e.tag), ("count", .int e.count),
    ("params", .group (e.changes.map Change.attribute)), ("unstable", .texts e.unstable)]

/-- What a structured log writes, which leaves out records below its least level. -/
def Event.logged (asJson : Bool) (least level : Log.Level) (e : Event) : String :=
  if level < least then ""
  else if asJson then (e.record level).json
  else (e.record level).line

end ComposeStability.Tracing
