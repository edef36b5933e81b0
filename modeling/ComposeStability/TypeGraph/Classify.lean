/-
# TypeGraph.Classify -- the stability of a type

Classification asks in a fixed order: wrappers that may be empty are looked
through; type parameters and functions are decided by their kind; then names
known to be stable, declared markers, names of collections, the remaining
kinds, and at last the members and supertypes.  A type that is met again while
its own members are being classified is left to run time.

The walk carries the keys of the types in progress.  Each nested step adds a
key, so its depth is bounded by the number of types; `depth` of the graph is
that bound, and `Failure.tooDeep` tells a walk that ran past it.
-/
import ComposeStability.TypeGraph.Basic
import ComposeStability.TypeGraph.Pattern
import ComposeStability.Stability.Verdict

namespace ComposeStability.TypeGraph

set_option autoImplicit false

open Stability (Verdict)

variable {τ : Type}

/-! ## Declared stability -/

mutual

/-- Whether a type or one of its supertypes is marked stable or immutable, and
the keys searched so far. -/
def searchMarked (g : TypeGraph τ) :
    Nat → List String → Option τ → Except Failure (Bool × List String)
  | _, seen, none => .ok (false, seen)
  | 0, _, some _ => .error .tooDeep
  | fuel + 1, seen, some t => do
      if (← g.markers t).declareStable then return (true, seen)
      let key ← g.key t
      if seen.contains key then return (false, seen)
      searchAnyMarked g fuel (key :: seen) (← g.supertypes t)
termination_by fuel _ _ => (fuel, 0)

/-- `searchMarked` over a list of types, up to the first that is marked. -/
def searchAnyMarked (g : TypeGraph τ) (fuel : Nat) (seen : List String) :
    List (Option τ) → Except Failure (Bool × List String)
  | [] => .ok (false, seen)
  | t :: rest => do
      let (found, seen) ← searchMarked g fuel seen t
      if found then return (true, seen) else searchAnyMarked g fuel seen rest
termination_by types => (fuel, types.length + 1)

end

/-- Whether a type or one of its supertypes, at any distance, is marked stable
or immutable. -/
def declaredStable (g : TypeGraph τ) (t : τ) : Except Failure Bool := do
  return (← searchMarked g (g.depth + 1) [] (some t)).1

/-! ## The walk -/

/-- Looks through wrappers that may be empty. -/
def unwrap (g : TypeGraph τ) : Nat → Option τ → Except Failure (Option τ)
  | _, none => .ok none
  | 0, some _ => .error .tooDeep
  | fuel + 1, some t => do
      if (← g.kind t) = .nullable then unwrap g fuel (← g.elem t) else return some t

/-- The verdict on a type that is not resolved. -/
def unresolved : Verdict := .unknown "<unresolved>"

/-- Names the member that an unstable verdict is about. -/
def inMember (owner member : String) : Verdict → Verdict
  | .obstacle (.unstable reason) => .unstable (owner ++ "." ++ member ++ ": " ++ reason)
  | verdict => verdict

/-- The verdict on a type as one on the member of `t` that has the type.  Only where the member is
named, `t` is asked for its text. -/
def memberVerdict (g : TypeGraph τ) (t : τ) (member : String) (verdict : Verdict) :
    Except Failure Verdict :=
  match verdict with
  | .obstacle (.unstable _) => do return inMember (← g.text t) member verdict
  | _ => .ok verdict

mutual

/-- The verdict on a type while the types with keys in `visiting` are in progress. -/
def walk (g : TypeGraph τ) (patterns : List Pattern) :
    Nat → List String → Option τ → Except Failure Verdict
  | 0, _, _ => .error .tooDeep
  | fuel + 1, visiting, start => do
      let some t ← unwrap g (g.depth + 1) start | return unresolved
      let kind ← g.kind t
      match kind with
      | .typeParameter => return .obstacle (.parametric (← g.text t))
      | .function => return .stable ((← g.text t) ++ " is a function type")
      | _ =>
      let name ← g.name t
      if isKnownStable patterns name then return .stable (name ++ " is known to be stable")
      if ← declaredStable g t then return .stable ((← g.text t) ++ " is declared stable")
      if immutableCollections.contains name then
        return .stable ((← g.text t) ++ " is an immutable collection")
      if mutableCollections.contains name then
        return .unstable ((← g.text t) ++ " is a mutable collection")
      match kind with
      | .primitive => return .stable ((← g.text t) ++ " is a primitive type")
      | .immutableCollection => return .stable ((← g.text t) ++ " is an immutable collection")
      | .mutableCollection => return .unstable ((← g.text t) ++ " is a mutable collection")
      | .enum => return .stable ((← g.text t) ++ " is an enum")
      | .value =>
          let key ← g.key t
          if visiting.contains key then
            return .runtime (← g.text t) "recursive type reference"
          walk g patterns fuel (key :: visiting) (← g.elem t)
      | _ =>
      let markers ← g.markers t
      if markers.has .serializable then
        walkParts g patterns fuel visiting t (.ok [])
      else match kind with
        | .composite => walkParts g patterns fuel visiting t (g.supertypes t)
        | .hidden =>
            if markers.has .runtime then return .runtime (← g.text t) ""
            else return .unknown (← g.text t)
        | _ => return .unknown (← g.text t)
termination_by fuel _ _ => (fuel, 0, 0)

/-- The verdict on the members of a type together with the given supertypes, which are asked for
once the type is in progress. -/
def walkParts (g : TypeGraph τ) (patterns : List Pattern) (fuel : Nat) (visiting : List String)
    (t : τ) (supertypes : Except Failure (List (Option τ))) : Except Failure Verdict := do
  let key ← g.key t
  if visiting.contains key then return .runtime (← g.text t) "recursive type reference"
  let supertypes ← supertypes
  let members ← g.members t
  match members.find? (·.mutable) with
  | some m => return .unstable ((← g.text t) ++ "." ++ m.name ++ " is mutable")
  | none =>
      let own ← walkMembers g patterns fuel (key :: visiting) t members
      let inherited ← walkAll g patterns fuel (key :: visiting) supertypes
      return .combine ((own ++ inherited).map some)
termination_by (fuel, 2, 0)

/-- The verdicts on members, each naming its member. -/
def walkMembers (g : TypeGraph τ) (patterns : List Pattern) (fuel : Nat) (visiting : List String)
    (owner : τ) : List (Member τ) → Except Failure (List Verdict)
  | [] => .ok []
  | m :: rest => do
      let verdict ← walk g patterns fuel visiting m.type
      let named ← memberVerdict g owner m.name verdict
      return named :: (← walkMembers g patterns fuel visiting owner rest)
termination_by members => (fuel, 1, members.length)

/-- The verdicts on a list of types. -/
def walkAll (g : TypeGraph τ) (patterns : List Pattern) (fuel : Nat) (visiting : List String) :
    List (Option τ) → Except Failure (List Verdict)
  | [] => .ok []
  | t :: rest => do
      let verdict ← walk g patterns fuel visiting t
      return verdict :: (← walkAll g patterns fuel visiting rest)
termination_by types => (fuel, 1, types.length)

end

/-- The stability of a type.  It is asked for its key first, with or without a memo. -/
def classify (g : TypeGraph τ) (patterns : List Pattern) (t : Option τ) : Except Failure Verdict :=
  match t with
  | none => .ok unresolved
  | some t => do
      let _ ← g.key t
      walk g patterns (g.depth + 1) [] (some t)

/-! ## Remembering verdicts -/

/-- A store of verdicts by key.  Looking up may change it, as its order of
eviction may depend on use. -/
structure Memo (σ : Type) where
  get : σ → String → Option Verdict × σ
  add : σ → String → Verdict → σ

namespace Memo

/-- Remembers nothing. -/
def off {σ : Type} : Memo σ where
  get s _ := (none, s)
  add s _ _ := s

/-- Remembers everything, and keeps a transcript of what was asked and added. -/
def transcribed : Memo (List (String × Verdict) × List String) where
  get s key :=
    let found := s.1.lookup key
    (found, (s.1, s.2 ++ ["get " ++ key ++ " " ++ toString found.isSome]))
  add s key verdict := ((key, verdict) :: s.1, s.2 ++ ["add " ++ key])

end Memo

/-- The stability of a type, asked of the memo first.  A failed classification
is not remembered. -/
def classifyMemo {σ : Type} (g : TypeGraph τ) (patterns : List Pattern) (memo : Memo σ) (s : σ)
    (t : Option τ) : Except Failure Verdict × σ :=
  match t with
  | none => (.ok unresolved, s)
  | some t =>
      match g.key t with
      | .error failure => (.error failure, s)
      | .ok key =>
          match memo.get s key with
          | (some verdict, s) => (.ok verdict, s)
          | (none, s) =>
              match classify g patterns (some t) with
              | .ok verdict => (.ok verdict, memo.add s key verdict)
              | .error failure => (.error failure, s)

end ComposeStability.TypeGraph
