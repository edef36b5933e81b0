/-
# Session.Interleaving -- calls that overlap on one session

A call for the stability of a type uses the memory twice.  It looks the type up
under the version of the session; if nothing is found, it reads the types as
they are and, at the end, stores its verdict, under the version that the session
has by then.  Calls of other threads and new versions may come in between.  One
thread makes one call at a time.
-/
import ComposeStability.Session.Unit

namespace ComposeStability.Session

set_option autoImplicit false

open Stability (Verdict)
open TypeGraph (Failure)
open Program (Ty Packages MarkerSource)

/-- What a lookup tells a call. -/
inductive Looked where
  /-- The memory knows the type, and the call is over. -/
  | found (verdict : Verdict)
  /-- The memory does not know the type; this is what the types say now. -/
  | missed (result : Except Failure Verdict)

section
variable {μ φ : Type} [Store μ String Verdict]

namespace State

/-- The first half of a call. -/
def look (s : State μ φ) (ps : Packages) (source : MarkerSource) (t : Ty) :
    Looked × State μ φ :=
  match Store.get s.verdicts (versionedKey s.version (ps.key t)) with
  | (some verdict, verdicts) => (.found verdict, { s with verdicts })
  | (none, verdicts) =>
      (.missed (TypeGraph.classify (ps.graph source) s.options.stableTypes (some t)),
        { s with verdicts })

/-- The second half of a call. -/
def store (s : State μ φ) (key : String) (verdict : Verdict) : State μ φ :=
  { s with verdicts := Store.add s.verdicts (versionedKey s.version key) verdict }

end State

/-- A step on the session: half a call by a thread, or a new version. -/
inductive Event where
  | look (thread : Nat) (ps : Packages) (source : MarkerSource) (t : Ty)
  | store (thread : Nat)
  | bump

/-- A session, and by thread the key and the verdict that it has not stored yet. -/
structure Shared (μ : Type := VerdictMemory) (φ : Type := FunctionMemory) where
  state : State μ φ
  pending : Nat → Option (String × Verdict) := fun _ => none

namespace Shared

def setPending (w : Shared μ φ) (thread : Nat) (p : Option (String × Verdict)) : Shared μ φ :=
  { w with pending := fun other => if other = thread then p else w.pending other }

/-- A thread begins a call only when its last one is over, and stores only what is pending.  A
failed classification is not stored. -/
def step (w : Shared μ φ) : Event → Shared μ φ
  | .look thread ps source t =>
      match w.pending thread with
      | some _ => w
      | none =>
          match w.state.look ps source t with
          | (.missed (.ok verdict), state) =>
              { w with state }.setPending thread (some (ps.key t, verdict))
          | (_, state) => { w with state }
  | .store thread =>
      match w.pending thread with
      | none => w
      | some (key, verdict) => { w with state := w.state.store key verdict }.setPending thread none
  | .bump => { w with state := w.state.bump }

/-- The session after some steps. -/
def run (w : Shared μ φ) (events : List Event) : Shared μ φ := events.foldl step w

end Shared

end

end ComposeStability.Session
