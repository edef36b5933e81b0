/-
# Composable.Analysis -- the summary of a function

The summary of a function follows from the verdicts on the types of its
receivers and parameters.  A function is skippable when it can be restarted and
everything it is given is stable; strong skipping drops the second condition.
The failure of one function does not touch the others (`analyzeAll`).
-/
import ComposeStability.TypeGraph.Classify
import ComposeStability.Stability.Summary

namespace ComposeStability.Composable

set_option autoImplicit false

open TypeGraph (Failure)
open Stability (Verdict Summary Parameter Receiver ReceiverKind)

variable {σ τ : Type}

/-- A function that produces user interface. -/
structure Function (τ : Type) where
  name : String
  qualifiedName : String
  visibility : String
  returnType : String
  receivers : List (ReceiverKind × Option τ) := []
  params : List (String × Option τ) := []
  nonRestartable : Bool := false
  readonly : Bool := false

/-- Asks about several items in order, up to the first failure. -/
def askAll {α β : Type} (ask : σ → α → Except Failure β × σ) :
    σ → List α → Except Failure (List β) × σ
  | s, [] => (.ok [], s)
  | s, a :: rest =>
      match ask s a with
      | (.error failure, s) => (.error failure, s)
      | (.ok b, s) =>
          match askAll ask s rest with
          | (.error failure, s) => (.error failure, s)
          | (.ok bs, s) => (.ok (b :: bs), s)

/-- Decides the stability of types, with a state for what it remembers. -/
structure Classifier (σ τ : Type) where
  text : τ → Except Failure String
  classify : σ → Option τ → Except Failure Verdict × σ

/-- What a summary says about a type. -/
structure Finding where
  verdict : Verdict
  /-- The display form of the type. -/
  text : String

namespace Classifier

/-- A classifier that remembers nothing. -/
def plain (g : TypeGraph τ) (patterns : List TypeGraph.Pattern) : Classifier Unit τ where
  text := g.text
  classify s t := (TypeGraph.classify g patterns t, s)

/-- A classifier that remembers verdicts in a memo. -/
def memoizing (g : TypeGraph τ) (patterns : List TypeGraph.Pattern) (memo : TypeGraph.Memo σ) :
    Classifier σ τ where
  text := g.text
  classify := TypeGraph.classifyMemo g patterns memo

/-- The display form of a type that may be unresolved. -/
def typeText (c : Classifier σ τ) : Option τ → Except Failure String
  | none => .ok "<unresolved>"
  | some t => c.text t

/-- Classifies a type and then asks it for its text.  What the classifier remembers of a type that
does not tell its text stays remembered. -/
def judge (c : Classifier σ τ) (s : σ) (t : Option τ) : Except Failure Finding × σ :=
  match c.classify s t with
  | (.error failure, s) => (.error failure, s)
  | (.ok verdict, s) => ((c.typeText t).map (⟨verdict, ·⟩), s)

end Classifier

/-- The reason shown with a verdict: none for a stable one. -/
def shownReason (verdict : Verdict) : String :=
  if verdict.value = .stable then "" else verdict.explain

/-- The summary of a function with what was found about its receivers and parameters. -/
def summarize (strong : Bool) (fn : Function τ) (receivers params : List Finding) : Summary :=
  let allStable := (receivers ++ params).all fun found => found.verdict.value == .stable
  let restartable := !fn.nonRestartable
  { name := fn.name
    qualifiedName := fn.qualifiedName
    visibility := fn.visibility
    returnType := fn.returnType
    restartable
    skippable := restartable && (strong || allStable)
    readonly := fn.readonly
    strongSkipping := strong && restartable && !allStable
    parameters := (fn.params.zip params).map fun ((name, _), found) =>
      ⟨name, found.text, found.verdict.value, shownReason found.verdict⟩
    receivers := (fn.receivers.zip receivers).map fun ((kind, _), found) =>
      ⟨found.text, found.verdict.value, shownReason found.verdict, kind⟩ }

/-- The summary of a function, or why a type of it could not be inspected. -/
def analyze (c : Classifier σ τ) (strong : Bool) (s : σ) (fn : Function τ) :
    Except Failure Summary × σ :=
  match askAll c.judge s (fn.receivers.map (·.2)) with
  | (.error failure, s) => (.error failure, s)
  | (.ok receivers, s) =>
      match askAll c.judge s (fn.params.map (·.2)) with
      | (.error failure, s) => (.error failure, s)
      | (.ok params, s) => (.ok (summarize strong fn receivers params), s)

/-- A function that could not be analyzed. -/
structure Unanalyzable where
  qualifiedName : String
  failure : Failure
deriving DecidableEq, Repr

def Unanalyzable.message (u : Unanalyzable) : String :=
  "analyzing " ++ u.qualifiedName ++ ": " ++ u.failure.cause

/-- The summaries of the functions that can be analyzed, and the others, each in order. -/
def analyzeAll (c : Classifier σ τ) (strong : Bool) :
    σ → List (Function τ) → List Summary × List Unanalyzable × σ
  | s, [] => ([], [], s)
  | s, fn :: rest =>
      match analyze c strong s fn with
      | (.ok summary, s) =>
          let (summaries, failed, s) := analyzeAll c strong s rest
          (summary :: summaries, failed, s)
      | (.error failure, s) =>
          let (summaries, failed, s) := analyzeAll c strong s rest
          (summaries, ⟨fn.qualifiedName, failure⟩ :: failed, s)

end ComposeStability.Composable
