/-
# Proofs.Composable.Isolation -- a failure stays with its function

A type may refuse any question, at any depth, and even its text after the verdict
on it was remembered.  Then the functions that are given it have no summary.
Nothing of that is left behind: a memo takes verdicts only, and none for a
classification that failed.  So in every state that the analysis of functions can
reach (`Reached`), the memo is right about the types that occur, and a function
has the outcome that it has on its own.

If each single analysis is isolated in this way, so is the analysis of a list
(`analyzeAll_of_step`), and lists can be analyzed in parts
(`Isolates.of_step`).
-/
import ComposeStability.Proofs.Composable.Classifier
import ComposeStability.Proofs.Session.Stores
import ComposeStability.Proofs.TypeGraph.Leaf
import ComposeStability.TypeGraph.Table
import Mathlib.Data.List.Nodup

namespace ComposeStability.Composable

set_option autoImplicit false

open TypeGraph (Failure)
open Stability (Verdict Summary)
open Session (Store)

/-! ## Lists of functions -/

section
variable {σ τ : Type}

/-- The summaries of the functions that have one. -/
def summariesOf (alone : Function τ → Except Failure Summary) (fns : List (Function τ)) :
    List Summary :=
  fns.filterMap fun fn => (alone fn).toOption

/-- The functions that have no summary, each with its failure. -/
def unanalyzableOf (alone : Function τ → Except Failure Summary) (fns : List (Function τ)) :
    List Unanalyzable :=
  fns.filterMap fun fn =>
    match alone fn with
    | .ok _ => none
    | .error failure => some ⟨fn.qualifiedName, failure⟩

/-- In each state that is ready, known functions are analyzed with the outcome that each of them has
on its own, whatever the outcome for the others is. -/
structure Isolates (c : Classifier σ τ) (strong : Bool)
    (alone : Function τ → Except Failure Summary) (ready : σ → Prop) (known : Function τ → Prop) :
    Prop where
  single : ∀ fn s, known fn → ready s → (analyze c strong s fn).1 = alone fn
  all : ∀ fns s, (∀ fn ∈ fns, known fn) → ready s → ∃ s', ready s' ∧
    analyzeAll c strong s fns = (summariesOf alone fns, unanalyzableOf alone fns, s')
  append : ∀ first rest s s₁ s₂, (∀ fn ∈ first ++ rest, known fn) → ready s → ready s₁ →
    ready s₂ →
    (analyzeAll c strong s (first ++ rest)).1 =
        (analyzeAll c strong s₁ first).1 ++ (analyzeAll c strong s₂ rest).1 ∧
      (analyzeAll c strong s (first ++ rest)).2.1 =
        (analyzeAll c strong s₁ first).2.1 ++ (analyzeAll c strong s₂ rest).2.1

variable {c : Classifier σ τ} {strong : Bool} {alone : Function τ → Except Failure Summary}
  {ready : σ → Prop} {known : Function τ → Prop}

theorem analyzeAll_of_step
    (step : ∀ fn s, known fn → ready s →
      (analyze c strong s fn).1 = alone fn ∧ ready (analyze c strong s fn).2)
    {fns : List (Function τ)} (among : ∀ fn ∈ fns, known fn) {s : σ} (start : ready s) :
    ∃ s', ready s' ∧
      analyzeAll c strong s fns = (summariesOf alone fns, unanalyzableOf alone fns, s') := by
  -- the state is ready again after each function, also after one that failed
  induction fns generalizing s with
  | nil => exact ⟨s, start, rfl⟩
  | cons fn fns ih =>
      rw [List.forall_mem_cons] at among
      obtain ⟨here, kept⟩ := step fn s among.1 start
      obtain ⟨s', held, later⟩ := ih among.2 kept
      refine ⟨s', held, ?_⟩
      rw [analyzeAll, summariesOf, unanalyzableOf, List.filterMap_cons, List.filterMap_cons, ← here]
      generalize analyze c strong s fn = done at later
      obtain ⟨outcome, after⟩ := done
      cases outcome with
      | ok summary => simp only [later]; rfl
      | error failure => simp only [later]; rfl

theorem Isolates.of_step
    (step : ∀ fn s, known fn → ready s →
      (analyze c strong s fn).1 = alone fn ∧ ready (analyze c strong s fn).2) :
    Isolates c strong alone ready known where
  single fn s among start := (step fn s among start).1
  all fns s among start := analyzeAll_of_step step among start
  append first rest s s₁ s₂ among start start₁ start₂ := by
    obtain ⟨_, _, both⟩ := analyzeAll_of_step step among start
    rw [List.forall_mem_append] at among
    obtain ⟨_, _, left⟩ := analyzeAll_of_step step among.1 start₁
    obtain ⟨_, _, right⟩ := analyzeAll_of_step step among.2 start₂
    rw [both, left, right]
    exact ⟨List.filterMap_append, List.filterMap_append⟩

end

/-! ## Reached states -/

section
variable {μ τ : Type} [Store μ String Verdict] {g : TypeGraph τ}
  {patterns : List TypeGraph.Pattern} {types : τ → Prop}

/-- The outcome for a function with a new classifier that remembers nothing. -/
def alone (g : TypeGraph τ) (patterns : List TypeGraph.Pattern) (strong : Bool)
    (fn : Function τ) : Except Failure Summary :=
  (analyze (.plain g patterns) strong () fn).1

/-- A store of verdicts as a memo. -/
def storeMemo : TypeGraph.Memo μ := ⟨Store.get, Store.add⟩

/-- A function that is only given certain types. -/
def GivenOnly (types : τ → Prop) (fn : Function τ) : Prop := ∀ t, some t ∈ givenTypes fn → types t

/-- The stores that a new store becomes while functions are analyzed, with or without success. -/
inductive Reached (g : TypeGraph τ) (patterns : List TypeGraph.Pattern) (types : τ → Prop) :
    μ → Prop where
  | new {s : μ} : Store.Blank s → Reached g patterns types s
  | analyzed {s : μ} {fn : Function τ} (strong : Bool) : Reached g patterns types s →
      GivenOnly types fn →
      Reached g patterns types (analyze (.memoizing g patterns storeMemo) strong s fn).2

/-- Types with the same key are the same type, as far as can be seen of them and of those below.
Types that do not tell their keys may be whatever they are. -/
def KeysIdentify (g : TypeGraph τ) (types : τ → Prop) : Prop :=
  ∃ R, TypeGraph.Matching g g R ∧
    ∀ t u key, types t → types u → g.key t = .ok key → g.key u = .ok key → R t u

theorem KeysIdentify.of_injective
    (tell : ∀ t u key, types t → types u → g.key t = .ok key → g.key u = .ok key → t = u) :
    KeysIdentify g types :=
  ⟨Eq, TypeGraph.matching_eq g, tell⟩

/-- A verdict that is right for a key. -/
def VerdictFor (g : TypeGraph τ) (patterns : List TypeGraph.Pattern) (types : τ → Prop)
    (key : String) (verdict : Verdict) : Prop :=
  ∃ t, types t ∧ g.key t = .ok key ∧ TypeGraph.classify g patterns (some t) = .ok verdict

/-- A store of right verdicts is right about each of the types. -/
theorem KeysIdentify.rightAbout (identify : KeysIdentify g types) {t : τ} (among : types t) :
    RightAbout storeMemo g patterns
      (fun s : μ => Store.Holds (VerdictFor g patterns types) s) t where
  answer s key verdict told holds got := by
    obtain ⟨R, matching, related⟩ := identify
    obtain ⟨u, other, same, right⟩ := holds.right_of_get got
    rwa [matching.classify_eq (.some (related u t key other among same told))] at right
  get _ key _ holds := holds.get key
  add _ _ _ told holds correct := holds.add ⟨t, among, told, correct⟩

theorem Reached.holds (identify : KeysIdentify g types) {s : μ}
    (reached : Reached g patterns types s) : Store.Holds (VerdictFor g patterns types) s := by
  -- a failed analysis may have added verdicts before it failed, which are right all the same
  induction reached with
  | new blank => exact blank.holds
  | analyzed strong _ given ih =>
      exact (analyze_memoizing (fun t member => identify.rightAbout (given t member)) strong ih).2

/-- Failures stay with their functions, with or without a memo: the functions that have a summary
on their own are found with it, in order, and so are the others with their failures. -/
theorem analyzeAll_isolated (identify : KeysIdentify g types) (strong : Bool) :
    Isolates (.plain g patterns) strong (alone g patterns strong) (fun _ => True)
        (fun _ => True) ∧
      Isolates (.memoizing g patterns (storeMemo : TypeGraph.Memo μ)) strong
        (alone g patterns strong) (Reached g patterns types) (GivenOnly types) := by
  refine ⟨.of_step fun _ _ _ _ => ⟨rfl, trivial⟩, .of_step fun fn s given reached => ⟨?_, ?_⟩⟩
  · exact (analyze_memoizing (fun t member => identify.rightAbout (given t member)) strong
      (reached.holds identify)).1
  · exact reached.analyzed strong given

end

namespace Demo

/-- A text. -/
def label : TypeGraph.Node :=
  ⟨.primitive, "string", "string", "string", none, Flags.empty, [], [], none⟩

/-- A type that refuses to be inspected. -/
def broken : TypeGraph.Node :=
  ⟨.composite, "ui.Broken", "ui.Broken", "ui.Broken", none, Flags.empty, [], [],
    some "broken type ui.Broken"⟩

/-- A type with a member of that type. -/
def box : TypeGraph.Node :=
  ⟨.composite, "ui.Box", "ui.Box", "ui.Box", none, Flags.empty,
    [⟨"inner", false, some "ui.Broken"⟩], [], none⟩

/-- A type without members. -/
def mark : TypeGraph.Node :=
  ⟨.composite, "ui.Mark", "ui.Mark", "ui.Mark", none, Flags.empty, [], [], none⟩

/-- All these types. -/
def shapes : TypeGraph.Table :=
  ⟨[("string", label), ("ui.Broken", broken), ("ui.Box", box), ("ui.Mark", mark)]⟩

/-- The same types, but the one without members does not tell its text. -/
def gallery : TypeGraph TypeGraph.Node :=
  { shapes.graph with
    text := fun n => if n.key = "ui.Mark" then .error (.refused "no text") else .ok n.text }

/-- A function with parameters of certain types. -/
def shown (name : String) (params : List (String × Option TypeGraph.Node)) :
    Function TypeGraph.Node where
  name := name
  qualifiedName := "ui." ++ name
  visibility := "exported"
  returnType := "()"
  params := params

/-- Functions that can't be analyzed, between others. -/
def pages : List (Function TypeGraph.Node) :=
  [shown "Header" [("title", some label)], shown "Panel" [("title", some label), ("box", some box)],
    shown "Stamp" [("mark", some mark)], shown "Footer" [("title", some label)],
    shown "Seal" [("mark", some mark)]]

/-- A store with room for one verdict. -/
def smallStore : Session.Recency String Verdict := Session.Recency.empty 1

theorem label_judged (s : Unit) :
    (Classifier.plain gallery []).judge s (some label) =
      (.ok ⟨.stable "string is a primitive type", "string"⟩, ()) := by
  have kind : gallery.kind label = .ok .primitive := rfl
  have declared : TypeGraph.declaredStable gallery label =
      .ok (TypeGraph.Markers.declareStable Flags.empty) :=
    TypeGraph.declaredStable_alone rfl rfl rfl
  have classified : TypeGraph.classify gallery [] (some label) =
      .ok (.stable "string is a primitive type") := by
    rw [TypeGraph.classify, TypeGraph.walk, TypeGraph.unwrap_bare kind (by decide)]
    simp only [bind, Except.bind, kind, declared]
    rfl
  rw [judge_eq, classified]
  rfl

theorem box_judged (s : Unit) :
    (Classifier.plain gallery []).judge s (some box) =
      (.error (.refused "broken type ui.Broken"), ()) := by
  have refused : TypeGraph.walk gallery [] 4 ["ui.Box"] (some broken) =
      .error (.refused "broken type ui.Broken") := TypeGraph.walk_refused rfl 3 _
  have key : gallery.key box = .ok "ui.Box" := rfl
  have members : gallery.members box = .ok [⟨"inner", false, some broken⟩] := rfl
  have classified : TypeGraph.classify gallery [] (some box) =
      .error (.refused "broken type ui.Broken") := by
    show TypeGraph.walk gallery [] 5 [] (some box) = _
    rw [TypeGraph.walk_composite rfl rfl rfl rfl rfl rfl (by decide)]
    simp [TypeGraph.walkParts, TypeGraph.walkMembers, key, members, refused, bind, Except.bind]
  rw [judge_eq, classified]
  rfl

/-- A type without members is stable, also if it does not tell its text. -/
theorem mark_classified : TypeGraph.classify gallery [] (some mark) = .ok (.combine []) := by
  have key : gallery.key mark = .ok "ui.Mark" := rfl
  have members : gallery.members mark = .ok [] := rfl
  show TypeGraph.walk gallery [] 5 [] (some mark) = _
  rw [TypeGraph.walk_composite rfl rfl rfl rfl rfl rfl (by decide)]
  simp [TypeGraph.walkParts, TypeGraph.walkMembers, TypeGraph.walkAll, key, members, bind,
    Except.bind, pure, Except.pure]

theorem mark_judged (s : Unit) :
    (Classifier.plain gallery []).judge s (some mark) = (.error (.refused "no text"), ()) := by
  rw [judge_eq, mark_classified]
  rfl

/-- The functions that are given a type below which one refuses to be inspected, or one whose
verdict is remembered and whose text is refused, are left out, and no others. -/
theorem pages_isolated : KeysIdentify gallery (· ∈ [label, box, mark]) ∧
    ∃ summaries s', analyzeAll (.memoizing gallery [] storeMemo) false smallStore pages =
        (summaries, [⟨"ui.Panel", .refused "broken type ui.Broken"⟩,
          ⟨"ui.Stamp", .refused "no text"⟩, ⟨"ui.Seal", .refused "no text"⟩], s') ∧
      summaries.map (·.name) = ["Header", "Footer"] := by
  have identify : KeysIdentify gallery (· ∈ [label, box, mark]) := by
    refine .of_injective fun t u key listed listed' told told' => ?_
    have keys : ([label, box, mark].map (·.key)).Nodup := by decide
    exact List.inj_on_of_nodup_map keys listed listed'
      (Except.ok.inj (told.trans told'.symm))
  have isolated := (@analyzeAll_isolated (Session.Recency String Verdict) _ _ gallery [] _
    identify false).2
  have given : ∀ fn ∈ pages, GivenOnly (· ∈ [label, box, mark]) fn := by
    simp only [pages, GivenOnly, givenTypes, shown]
    grind
  obtain ⟨s', -, found⟩ := isolated.all pages smallStore given
    (.new (Session.Recency.empty_blank 1))
  have outcomes : (summariesOf (alone gallery [] false) pages).map (·.name) =
      ["Header", "Footer"] ∧ unanalyzableOf (alone gallery [] false) pages =
        [⟨"ui.Panel", .refused "broken type ui.Broken"⟩, ⟨"ui.Stamp", .refused "no text"⟩,
          ⟨"ui.Seal", .refused "no text"⟩] := by
    simp [summariesOf, unanalyzableOf, pages, shown, alone, analyze, askAll, label_judged,
      box_judged, mark_judged, Except.toOption, summarize]
  rw [outcomes.2] at found
  exact ⟨identify, _, s', found, outcomes.1⟩

end Demo

end ComposeStability.Composable
