/-
# Tracing.Interleaving -- calls that acquire trackers at the same time

Acquiring a tracker looks up the site.  If it is unknown, the call makes a
tracker of its own and then stores it, unless the site has a tracker by then, in
one step with looking it up again.  Steps of other calls may come before and
after each of these steps, in any order.
-/
import ComposeStability.Tracing.Recorder

namespace ComposeStability.Tracing

set_option autoImplicit false

/-- What a call asks for. -/
structure Request where
  site : Site
  threshold : Int

/-- How far a call has come. -/
inductive Progress where
  /-- It has not looked up the site yet. -/
  | waiting
  /-- The site was unknown. -/
  | missed
  /-- It has made a tracker, which is not shared yet. -/
  | made (own : Handle)
  | returned (h : Handle)
deriving DecidableEq, Repr

/-- The trackers, and how far each call has come; calls go by number. -/
structure Overlap where
  registry : Registry := {}
  progress : Nat → Progress := fun _ => .waiting

namespace Overlap

def setProgress (w : Overlap) (call : Nat) (p : Progress) : Overlap :=
  { w with progress := fun other => if other = call then p else w.progress other }

/-- A call takes its next step, if it is not over. -/
def step (requests : Nat → Request) (w : Overlap) (call : Nat) : Overlap :=
  let request := requests call
  match w.progress call with
  | .waiting =>
      match w.registry.find? request.site with
      | some found => w.setProgress call (.returned found)
      | none => w.setProgress call .missed
  | .missed =>
      let (own, registry) := w.registry.create request.site request.threshold
      { w with registry }.setProgress call (.made own)
  | .made own =>
      let (stored, registry) := w.registry.findOrStore request.site own
      { w with registry }.setProgress call (.returned stored)
  | .returned _ => w

/-- The calls after steps in a given order, from the start of a program. -/
def run (requests : Nat → Request) (schedule : List Nat) : Overlap :=
  schedule.foldl (step requests) {}

end Overlap

end ComposeStability.Tracing
