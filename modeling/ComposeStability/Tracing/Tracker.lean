/-
# Tracing.Tracker -- the memory of a traced call site

A tracker remembers the values of the parameters in the previous call.  During a
call values are staged; a flush completes the call.  It counts the call, makes
an event of what is staged if enough calls have been seen, and makes the staged
values the baseline of the next call, whether or not there is an event.
-/
import ComposeStability.Tracing.Event

namespace ComposeStability.Tracing

set_option autoImplicit false

structure Tracker where
  name : String
  tag : String
  /-- The number of the first call that gives an event. -/
  threshold : Int
  /-- The number of completed calls. -/
  count : Nat := 0
  /-- The parameters of the current call, in order. -/
  staged : List Change := []
  /-- The values of completed calls by parameter, the newest first. -/
  baseline : List (String × Value) := []

namespace Tracker

/-- A tracker that has seen no call; a threshold below one counts as one. -/
def new (name tag : String) (threshold : Int) : Tracker where
  name := name
  tag := tag
  threshold := max threshold 1

/-- The value of a parameter in the last completed call that had it. -/
def previous? (t : Tracker) (name : String) : Option Value := t.baseline.lookup name

/-- The comparison of a parameter with its previous value. -/
def compare (t : Tracker) (name type : String) (value : Value) (stable : Bool) : Change :=
  match t.previous? name with
  | none => ⟨name, type, .absent, value, true, stable⟩
  | some old => ⟨name, type, old, value, !old.equal value, stable⟩

/-- Records a parameter of the current call. -/
def track (t : Tracker) (name type : String) (value : Value) (stable : Bool) : Tracker :=
  { t with staged := t.staged ++ [t.compare name type value stable] }

/-- The event of the current call, as the one with the given number. -/
def event (t : Tracker) (count : Nat) : Event where
  name := t.name
  tag := t.tag
  count := count
  changes := t.staged
  unstable := unstableNames t.staged

/-- Completes the current call, with an event if the threshold is met. -/
def flush (t : Tracker) : Option Event × Tracker :=
  let count := t.count + 1
  (if (count : Int) ≥ t.threshold then some (t.event count) else none,
   { t with
      count := count
      staged := []
      baseline := (t.staged.map fun c => (c.name, c.new)).reverse ++ t.baseline })

/-- A tracker as text: its name, its tag and the number of calls. -/
def text (t : Tracker) : String :=
  t.name ++ (if t.tag.isEmpty then "" else "[" ++ t.tag ++ "]") ++ "#" ++ toString t.count

end Tracker

end ComposeStability.Tracing
