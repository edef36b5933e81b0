/-
# Proofs.Session.Memory -- a session's memory does not change its answers

What a session may remember at its version is an expectation: verdicts by the
keys of types, summaries by the places and names of functions (`Expectation`).
A session remembers it if nothing else was added to its stores at that version
(`State.Remembers`).  Where the expectation is right about a function
(`Expectation.Covers`), asking gives the answer that analysis without a memory
gives (`State.summarize_spec`), and the session still remembers it.  So a unit
is analyzed as a new session would analyze it (`State.analyzeUnit_covered`).

One way to a right expectation is to fix the functions that are known.  If keys
tell their types apart, and places and names tell the functions apart
(`Coherent`), the answers about them are right (`State.analyzeUnit_agrees`).
-/
import ComposeStability.Proofs.Composable.Classifier
import ComposeStability.Proofs.Program.Answers
import ComposeStability.Proofs.Session.Stores

namespace ComposeStability.Session

set_option autoImplicit false

open Stability (Verdict Summary)
open TypeGraph (Failure)
open Program (Ty Packages MarkerSource)
open Source (FuncDecl)

/-! ## Expectations -/

/-- What a session may remember at its version: verdicts by the key of a type, summaries by the
place and the name of a function. -/
structure Expectation where
  verdict : String → Verdict → Prop
  summary : String → String → Summary → Prop

/-- The summary of a function, without a memory. -/
def plainSummary (o : Options) (ps : Packages) (source : MarkerSource)
    (fn : Composable.Function Ty) : Except Failure Summary :=
  (Composable.analyze (.plain (ps.graph source) o.stableTypes)
    (o.behavior.enabled Behavior.strongSkipping) () fn).1

namespace Expectation

/-- A verdict that is stored is expected, or one of an earlier version. -/
def Verdicts (e : Expectation) (now : UInt64) (stored : String) (verdict : Verdict) : Prop :=
  ∃ version key, stored = versionedKey version key ∧ version ≤ now ∧
    (version = now → e.verdict key verdict)

/-- A summary that is stored is expected, or one of an earlier version. -/
def Summaries (e : Expectation) (now : UInt64) (stored : FunctionKey) (summary : Summary) : Prop :=
  stored.version ≤ now ∧ (stored.version = now → e.summary stored.place stored.name summary)

/-- The verdict that is expected for the key of a type is the verdict on the type. -/
def CoversType (e : Expectation) (o : Options) (ps : Packages) (source : MarkerSource) (t : Ty) :
    Prop :=
  ∀ verdict, e.verdict (ps.key t) verdict ↔
    TypeGraph.classify (ps.graph source) o.stableTypes (some t) = .ok verdict

/-- What is expected of a function and of the types that it is given is right. -/
structure Covers (e : Expectation) (o : Options) (ps : Packages) (source : MarkerSource)
    (place : String) (fn : Composable.Function Ty) : Prop where
  types : ∀ t, some t ∈ Composable.givenTypes fn → e.CoversType o ps source t
  summary : ∀ summary, e.summary place fn.qualifiedName summary ↔
    plainSummary o ps source fn = .ok summary

section
variable {e : Expectation} {now : UInt64}

theorem verdict_of_stored {key : String} {verdict : Verdict}
    (stored : e.Verdicts now (versionedKey now key) verdict) : e.verdict key verdict := by
  obtain ⟨version, key', same, -, right⟩ := stored
  obtain ⟨rfl, rfl⟩ := versionedKey_inj same
  exact right rfl

theorem stored_of_verdict {key : String} {verdict : Verdict} (right : e.verdict key verdict) :
    e.Verdicts now (versionedKey now key) verdict :=
  ⟨now, key, rfl, UInt64.le_refl now, fun _ => right⟩

end

end Expectation

/-! ## Answers -/

section
variable {μ φ : Type} [Store μ String Verdict] [Store φ FunctionKey Summary]
  {e e' : Expectation} {ps : Packages} {source : MarkerSource}

/-- A memory of what is expected is right about a type that the expectation covers. -/
theorem Expectation.CoversType.rightAbout {o : Options} {version : UInt64} {t : Ty}
    (covers : e.CoversType o ps source t) :
    Composable.RightAbout (verdictMemo version) (ps.graph source) o.stableTypes
      (fun memory : μ => Store.Holds (e.Verdicts version) memory) t where
  answer _ key verdict told holds got := by
    obtain rfl : ps.key t = key := Except.ok.inj told
    exact (covers verdict).1 (Expectation.verdict_of_stored (holds.right_of_get got))
  get _ _ _ holds := holds.get _
  add _ key verdict told holds correct := by
    obtain rfl : ps.key t = key := Except.ok.inj told
    exact holds.add (Expectation.stored_of_verdict ((covers verdict).2 correct))

/-- The verdict on a type is the same with a memory of what is expected, which stays so. -/
theorem classifyMemo_spec {o : Options} {version : UInt64} {memory : μ}
    (holds : Store.Holds (e.Verdicts version) memory) {t : Option Ty}
    (covered : ∀ u, t = some u → e.CoversType o ps source u) :
    (TypeGraph.classifyMemo (ps.graph source) o.stableTypes (verdictMemo version) memory t).1 =
        TypeGraph.classify (ps.graph source) o.stableTypes t ∧
      Store.Holds (e.Verdicts version)
        (TypeGraph.classifyMemo (ps.graph source) o.stableTypes
          (verdictMemo version) memory t).2 :=
  Composable.classifyMemo_agrees (fun u same => (covered u same).rightAbout) holds

namespace State

/-- A session in a later state, at the same version. -/
structure Continues (s' s : State μ φ) : Prop where
  options : s'.options = s.options
  version : s'.version = s.version

omit [Store μ String Verdict] [Store φ FunctionKey Summary] in
theorem Continues.refl (s : State μ φ) : s.Continues s := ⟨rfl, rfl⟩

omit [Store μ String Verdict] [Store φ FunctionKey Summary] in
theorem Continues.trans {s s' s'' : State μ φ} (later : s''.Continues s') (first : s'.Continues s) :
    s''.Continues s :=
  ⟨later.options.trans first.options, later.version.trans first.version⟩

/-- Asking for a summary changes what is remembered at most. -/
theorem summarize_continues (s : State μ φ) (ps : Packages) (source : MarkerSource)
    (place : String) (fn : Composable.Function Ty) :
    (s.summarize ps source place fn).2.Continues s := by
  unfold summarize
  dsimp only
  generalize Store.get s.functions ⟨place, fn.qualifiedName, s.version⟩ = got
  obtain ⟨_ | summary, functions⟩ := got
  · unfold analyze
    dsimp only
    generalize Composable.analyze _ _ _ fn = analyzed
    obtain ⟨_ | summary, verdicts⟩ := analyzed <;> exact ⟨rfl, rfl⟩
  · exact ⟨rfl, rfl⟩

/-- At the version of the session, its stores were only given what is expected. -/
structure Remembers (e : Expectation) (s : State μ φ) : Prop where
  verdicts : Store.Holds (e.Verdicts s.version) s.verdicts
  functions : Store.Holds (e.Summaries s.version) s.functions

variable {s : State μ φ}

omit [Store μ String Verdict] [Store φ FunctionKey Summary] in
theorem bump_version (room : s.version.toNat + 1 < 2 ^ 64) :
    s.bump.version.toNat = s.version.toNat + 1 := by
  rw [bump, UInt64.toNat_add]
  exact Nat.mod_eq_of_lt room

/-- A session with blank stores remembers nothing unexpected. -/
theorem remembers_of_blank (verdicts : Store.Blank s.verdicts)
    (functions : Store.Blank s.functions) : s.Remembers e :=
  ⟨verdicts.holds, functions.holds⟩

theorem Remembers.mono (remembers : s.Remembers e)
    (verdicts : ∀ key verdict, e.verdict key verdict → e'.verdict key verdict)
    (summaries : ∀ place name summary, e.summary place name summary →
      e'.summary place name summary) : s.Remembers e' := by
  refine ⟨remembers.verdicts.mono ?_, remembers.functions.mono ?_⟩
  · rintro stored verdict ⟨version, key, same, past, right⟩
    exact ⟨version, key, same, past, fun now => verdicts key verdict (right now)⟩
  · rintro stored summary ⟨past, right⟩
    exact ⟨past, fun now => summaries _ _ summary (right now)⟩

/-- After a new version anything may be expected, if there is one. -/
theorem Remembers.bump (remembers : s.Remembers e) (room : s.version.toNat + 1 < 2 ^ 64) :
    s.bump.Remembers e' := by
  have later : s.version < s.bump.version := by
    rw [UInt64.lt_iff_toNat_lt, bump_version room]
    exact Nat.lt_succ_self _
  have new {version : UInt64} (past : version ≤ s.version) : version < s.bump.version :=
    UInt64.lt_of_le_of_lt past later
  refine ⟨remembers.verdicts.mono ?_, remembers.functions.mono ?_⟩
  · rintro stored verdict ⟨version, key, same, past, -⟩
    exact ⟨version, key, same, UInt64.le_of_lt (new past),
      fun now => absurd now (UInt64.ne_of_lt (new past))⟩
  · rintro stored summary ⟨past, -⟩
    exact ⟨UInt64.le_of_lt (new past), fun now => absurd now (UInt64.ne_of_lt (new past))⟩

theorem analyze_spec {place : String} {fn : Composable.Function Ty}
    (remembers : s.Remembers e) (covers : e.Covers s.options ps source place fn) :
    ∃ verdicts, s.analyze ps source fn =
        (plainSummary s.options ps source fn, { s with verdicts }) ∧
      Store.Holds (e.Verdicts s.version) verdicts := by
  have right (t : Ty) (given : some t ∈ Composable.givenTypes fn) :
      Composable.RightAbout (verdictMemo s.version) (ps.graph source) s.options.stableTypes
        (fun memory : μ => Store.Holds (e.Verdicts s.version) memory) t :=
    (covers.types t given).rightAbout
  obtain ⟨same, kept⟩ := Composable.analyze_memoizing right
    (s.options.behavior.enabled Behavior.strongSkipping) remembers.verdicts
  exact ⟨_, Prod.ext same rfl, kept⟩

/-- What a session answers about a function is what analysis without a memory gives. -/
theorem summarize_spec {place : String} {fn : Composable.Function Ty}
    (remembers : s.Remembers e) (covers : e.Covers s.options ps source place fn) :
    (s.summarize ps source place fn).1 = plainSummary s.options ps source fn ∧
      (s.summarize ps source place fn).2.Remembers e := by
  have given (summary : Summary)
      (got : (Store.get s.functions ⟨place, fn.qualifiedName, s.version⟩).1 = some summary) :
      plainSummary s.options ps source fn = .ok summary :=
    (covers.summary summary).1 ((remembers.functions.right_of_get got).2 rfl)
  have held := remembers.functions.get ⟨place, fn.qualifiedName, s.version⟩
  unfold summarize
  dsimp only
  generalize Store.get s.functions ⟨place, fn.qualifiedName, s.version⟩ = got at given held
  obtain ⟨answer, functions⟩ := got
  have kept : { s with functions }.Remembers e := ⟨remembers.verdicts, held⟩
  cases answer with
  | some summary => exact ⟨(given summary rfl).symm, kept⟩
  | none =>
      obtain ⟨verdicts, analyzed, right⟩ := analyze_spec kept covers
      simp only [analyzed]
      cases correct : plainSummary s.options ps source fn with
      | error failure => exact ⟨rfl, right, held⟩
      | ok summary =>
          refine ⟨rfl, right, held.add ⟨UInt64.le_refl _, fun _ => ?_⟩⟩
          exact (covers.summary summary).2 correct

end State

end

/-! ## Units -/

/-- The directives of a function. -/
def directivesOf (f : FuncDecl) : Directive.OnFunction :=
  (Directive.ofFunction (f.doc.getD [])).1

/-- What is expected of the functions of a list that are analyzed is right. -/
def Unit.CoveredBy (u : Unit) (e : Expectation) (o : Options) (source : MarkerSource)
    (fs : List FuncDecl) : Prop :=
  ∀ f ∈ fs, (directivesOf f).composable → f.checked →
    e.Covers o u.packages source (u.layout.describe f.pos)
      (u.packages.describe u.path f (directivesOf f))

/-- Two sources of markers give the same about the functions of a list that are analyzed. -/
def Unit.SameBy (u : Unit) (o : Options) (source source' : MarkerSource) (fs : List FuncDecl) :
    Prop :=
  ∀ f ∈ fs, (directivesOf f).composable → f.checked →
    u.packages.skippedReceiver source f = u.packages.skippedReceiver source' f ∧
      plainSummary o u.packages source (u.packages.describe u.path f (directivesOf f)) =
        plainSummary o u.packages source' (u.packages.describe u.path f (directivesOf f))

theorem Unit.SameBy.refl (u : Unit) (o : Options) (source : MarkerSource) (fs : List FuncDecl) :
    u.SameBy o source source fs :=
  fun _ _ _ _ => ⟨rfl, rfl⟩

/-- Options that agree on what decides the summaries. -/
def Options.Alike (o o' : Options) : Prop :=
  o.behavior = o'.behavior ∧ o.stableTypes = o'.stableTypes

theorem plainSummary_alike {o o' : Options} (alike : o.Alike o') (ps : Packages)
    (source : MarkerSource) (fn : Composable.Function Ty) :
    plainSummary o ps source fn = plainSummary o' ps source fn := by
  simp only [plainSummary, alike.1, alike.2]

/-- Leaving a function out of reports does not change it. -/
theorem describe_ignore (ps : Packages) (path : String) (f : FuncDecl) (d : Directive.OnFunction)
    (skipped : Bool) :
    ps.describe path f (if skipped then { d with ignore := true } else d) =
      ps.describe path f d := by
  cases skipped <;> rfl

/-- The name of a function that is left out of reports. -/
def Unit.ignoredName (u : Unit) (source : MarkerSource) (f : FuncDecl) : Option String :=
  let skipped := u.packages.skippedReceiver source f matches .ok true
  if (directivesOf f).composable && f.checked && (skipped || (directivesOf f).ignore) then
    some (u.packages.qualifiedName u.path f)
  else none

/-- Why the receiver of a function refuses to tell its markers, if it is asked for them and does. -/
def Unit.refusal? (u : Unit) (source : MarkerSource) (f : FuncDecl) : Option Failure :=
  if (directivesOf f).composable && f.checked then
    match u.packages.skippedReceiver source f with
    | .error failure => some failure
    | .ok _ => none
  else none

theorem skippedReceiver_answers {source : MarkerSource} (answers : source.Answers) (ps : Packages)
    (f : FuncDecl) :
    ∃ skipped, ps.skippedReceiver source f = .ok skipped := by
  unfold Packages.skippedReceiver
  cases f.receiverType? with
  | none => exact ⟨false, rfl⟩
  | some t =>
      obtain ⟨markers, told⟩ := ps.markersOf_answers answers (Packages.receiverBase t)
      exact ⟨markers.has .skip, congrArg (Except.map _) told⟩

section
variable {μ φ μ' φ' : Type} [Store μ String Verdict] [Store φ FunctionKey Summary]
  [Store μ' String Verdict] [Store φ' FunctionKey Summary]
  {e e' : Expectation} {u : Unit} {source source' : MarkerSource} {s : State μ φ}
  {s' : State μ' φ'} {f : FuncDecl} {fs : List FuncDecl}

/-- The summary of a function, as a session is asked for it when the function is examined. -/
def State.asked (s : State μ φ) (u : Unit) (source : MarkerSource) (f : FuncDecl) :
    Except Failure Summary × State μ φ :=
  s.summarize u.packages source (u.layout.describe f.pos)
    (u.packages.describe u.path f (directivesOf f))

/-- A session is not asked about a function, or once for its summary, which decides the finding
together with the markers on the receiver. -/
theorem examine_cases (u : Unit) {source source' : MarkerSource} (f : FuncDecl)
    (skips : (directivesOf f).composable → f.checked →
      u.packages.skippedReceiver source f = u.packages.skippedReceiver source' f) :
    (∃ answer, ∀ {μ φ : Type} [Store μ String Verdict] [Store φ FunctionKey Summary]
        (s : State μ φ),
        examine u source s f = (answer, s) ∧ examine u source' s f = (answer, s)) ∨
      ((directivesOf f).composable ∧ f.checked ∧
        ∀ {μ φ μ' φ' : Type} [Store μ String Verdict] [Store φ FunctionKey Summary]
          [Store μ' String Verdict] [Store φ' FunctionKey Summary] (s : State μ φ),
          (examine u source s f).2 = (s.asked u source f).2 ∧
          ∀ s' : State μ' φ', (s.asked u source f).1 = (s'.asked u source' f).1 →
            (examine u source s f).1 = (examine u source' s' f).1) := by
  unfold directivesOf at skips
  unfold examine State.asked directivesOf
  generalize Directive.ofFunction (f.doc.getD []) = read at skips ⊢
  obtain ⟨d, mistakes⟩ := read
  simp only [describe_ignore]
  by_cases composable : d.composable
  · by_cases checked : f.checked
    · simp only [composable, checked, Bool.not_true, Bool.false_eq_true, if_false,
        ← skips composable checked]
      cases u.packages.skippedReceiver source f with
      | error failure => exact .inl ⟨.error failure, fun s => ⟨rfl, rfl⟩⟩
      | ok skipped =>
          refine .inr ⟨trivial, trivial, fun s => ?_⟩
          dsimp only
          generalize u.packages.describe u.path f d = fn
          generalize s.summarize u.packages source (u.layout.describe f.pos) fn = first
          obtain ⟨answer, after⟩ := first
          refine ⟨by cases answer <;> rfl, fun s' same => ?_⟩
          generalize s'.summarize u.packages source' (u.layout.describe f.pos) fn = second
            at same ⊢
          obtain ⟨answer', after'⟩ := second
          obtain rfl : answer = answer' := same
          cases answer <;> rfl
    · exact .inl ⟨_, fun s => ⟨by rw [if_neg (by simp [composable]), if_pos (by simp [checked])],
        by rw [if_neg (by simp [composable]), if_pos (by simp [checked])]⟩⟩
  · exact .inl ⟨_, fun s => ⟨by rw [if_pos (by simp [composable])],
      by rw [if_pos (by simp [composable])]⟩⟩

/-- A function whose directives are all valid is found with its summary. -/
theorem examine_answered {after : State μ φ} {d : Directive.OnFunction} {summary : Summary}
    (read : Directive.ofFunction (f.doc.getD []) = (d, [])) (composable : d.composable)
    (checked : f.checked) (unskipped : u.packages.skippedReceiver source f = .ok false)
    (asked : s.summarize u.packages source (u.layout.describe f.pos)
      (u.packages.describe u.path f d) = (.ok summary, after)) :
    examine u source s f =
      (.ok
        { entry := some ⟨summary, d, some f⟩
          ignored := if d.ignore then some (u.packages.qualifiedName u.path f) else none },
        after) := by
  simp [examine, read, composable, checked, unskipped, asked]
  exact ⟨rfl, rfl⟩

/-- Whether a function is left out of reports is decided by directives and markers alone. -/
theorem examine_ignored {finding : Finding} (found : (examine u source s f).1 = .ok finding) :
    finding.ignored = u.ignoredName source f := by
  have name (d : Directive.OnFunction) : (u.packages.describe u.path f d).qualifiedName =
      u.packages.qualifiedName u.path f := rfl
  unfold examine at found
  unfold Unit.ignoredName directivesOf
  generalize Directive.ofFunction (f.doc.getD []) = read at found ⊢
  obtain ⟨d, mistakes⟩ := read
  simp only [describe_ignore, name] at found
  cases composable : d.composable with
  | false =>
      simp only [composable, Bool.not_false, if_true] at found
      rw [← Except.ok.inj found]
      rfl
  | true =>
      cases checked : f.checked with
      | false =>
          simp only [composable, checked, Bool.not_true, Bool.not_false, Bool.false_eq_true,
            if_false, if_true] at found
          rw [← Except.ok.inj found]
          rfl
      | true =>
          simp only [composable, checked, Bool.not_true, Bool.false_eq_true, if_false] at found
          cases told : u.packages.skippedReceiver source f with
          | error failure =>
              rw [told] at found
              cases found
          | ok skipped =>
              rw [told] at found
              dsimp only at found
              generalize s.summarize u.packages source (u.layout.describe f.pos) _ = asked at found
              obtain ⟨answer, after⟩ := asked
              cases answer <;> cases skipped <;> rw [← Except.ok.inj found] <;> simp

/-- What is left out of a unit does not depend on what the session remembers. -/
theorem State.analyzeUnit_ignored {r : Result} (found : (s.analyzeUnit u source).1 = .ok r) :
    r.ignored = (u.examined s.options.behavior).filterMap (u.ignoredName source) := by
  obtain ⟨findings, asked, rfl⟩ := map_eq_ok.1 found
  refine filterMap_of_forall₂ (Composable.forall₂_of_askAll ?_ asked)
  exact fun _ _ _ _ => examine_ignored

/-- A function is not examined exactly if its receiver refuses. -/
theorem examine_eq_error_iff (failure : Failure) :
    (examine u source s f).1 = .error failure ↔ u.refusal? source f = some failure := by
  unfold examine Unit.refusal? directivesOf
  generalize Directive.ofFunction (f.doc.getD []) = read
  obtain ⟨d, mistakes⟩ := read
  simp only [describe_ignore]
  by_cases composable : d.composable
  · by_cases checked : f.checked
    · simp only [composable, checked, Bool.not_true, Bool.false_eq_true, if_false, Bool.and_self,
        if_true]
      cases u.packages.skippedReceiver source f with
      | error cause => simp
      | ok skipped =>
          dsimp only
          generalize s.summarize u.packages source _ _ = asked
          obtain ⟨answer, after⟩ := asked
          cases answer <;> simp
    · simp [composable, checked]
  · simp [composable]

/-- A unit is not analyzed exactly if a receiver refuses, and for what the first of them says. -/
theorem State.analyzeUnit_eq_error_iff (s : State μ φ) (u : Unit) (source : MarkerSource)
    (failure : Failure) :
    (s.analyzeUnit u source).1 = .error failure ↔
      (u.examined s.options.behavior).findSome? (u.refusal? source) = some failure := by
  refine map_eq_error.trans (Composable.askAll_eq_error_iff ?_ s failure)
  exact fun _ _ _ => examine_eq_error_iff

theorem State.analyzeUnit_returns (answers : source.Answers) (s : State μ φ) (u : Unit) :
    ∃ r, (s.analyzeUnit u source).1 = .ok r := by
  cases found : (s.analyzeUnit u source).1 with
  | ok r => exact ⟨r, rfl⟩
  | error failure =>
      rw [s.analyzeUnit_eq_error_iff, List.findSome?_eq_some_iff] at found
      obtain ⟨-, f, -, -, refused, -⟩ := found
      obtain ⟨skipped, told⟩ := skippedReceiver_answers answers u.packages f
      simp [Unit.refusal?, told] at refused

theorem examine_continues (u : Unit) (source : MarkerSource) (s : State μ φ) (f : FuncDecl) :
    (examine u source s f).2.Continues s := by
  rcases examine_cases u f fun _ _ => rfl with ⟨answer, same⟩ | ⟨-, -, same⟩
  · rw [(same s).1]
    exact .refl s
  · rw [(@same μ φ μ φ _ _ _ _ s).1]
    exact s.summarize_continues _ _ _ _

theorem State.analyzeUnit_continues (s : State μ φ) (u : Unit) (source : MarkerSource) :
    (s.analyzeUnit u source).2.Continues s :=
  Composable.askAll_keeps (fun t before f _ => (examine_continues u source t f).trans before)
    (.refl s)

theorem examine_remembers (remembers : s.Remembers e)
    (covered : u.CoveredBy e s.options source [f]) : (examine u source s f).2.Remembers e := by
  rcases examine_cases u f fun _ _ => rfl with ⟨answer, same⟩ | ⟨composable, checked, same⟩
  · rw [(same s).1]
    exact remembers
  · rw [(@same μ φ μ φ _ _ _ _ s).1]
    exact (s.summarize_spec remembers (covered f List.mem_cons_self composable checked)).2

theorem examine_agrees (remembers : s.Remembers e) (remembers' : s'.Remembers e')
    (alike : s.options.Alike s'.options) (covered : u.CoveredBy e s.options source [f])
    (covered' : u.CoveredBy e' s'.options source' [f])
    (sources : u.SameBy s.options source source' [f]) :
    (examine u source s f).1 = (examine u source' s' f).1 := by
  have sources := sources f List.mem_cons_self
  rcases examine_cases u f fun composable checked => (sources composable checked).1 with
    ⟨finding, same⟩ | ⟨composable, checked, same⟩
  · rw [(same s).1, (same s').2]
  · have asked := covered f List.mem_cons_self composable checked
    have asked' := covered' f List.mem_cons_self composable checked
    refine (same s).2 s' ?_
    calc (s.asked u source f).1
        = plainSummary s.options u.packages source _ := (s.summarize_spec remembers asked).1
      _ = plainSummary s.options u.packages source' _ := (sources composable checked).2
      _ = plainSummary s'.options u.packages source' _ := plainSummary_alike alike _ _ _
      _ = (s'.asked u source' f).1 := (s'.summarize_spec remembers' asked').1.symm

/-- Sessions with the same switches that remember what is right find the same, from sources that
give the same. -/
theorem examineAll_agrees (remembers : s.Remembers e) (remembers' : s'.Remembers e')
    (alike : s.options.Alike s'.options) (covered : u.CoveredBy e s.options source fs)
    (covered' : u.CoveredBy e' s'.options source' fs)
    (sources : u.SameBy s.options source source' fs) :
    (Composable.askAll (examine u source) s fs).1 =
        (Composable.askAll (examine u source') s' fs).1 ∧
      (Composable.askAll (examine u source) s fs).2.Remembers e := by
  have each (t : State μ φ) (t' : State μ' φ')
      (held : (t.Remembers e ∧ t.Continues s) ∧ t'.Remembers e' ∧ t'.Continues s')
      (f : FuncDecl) (listed : f ∈ fs) :
      (examine u source t f).1 = (examine u source' t' f).1 ∧
        ((examine u source t f).2.Remembers e ∧ (examine u source t f).2.Continues s) ∧
        (examine u source' t' f).2.Remembers e' ∧ (examine u source' t' f).2.Continues s' := by
    obtain ⟨⟨held, same⟩, held', same'⟩ := held
    have among {g : FuncDecl} (member : g ∈ [f]) : g ∈ fs := List.mem_singleton.1 member ▸ listed
    have first : u.CoveredBy e t.options source [f] :=
      same.options ▸ fun g member => covered g (among member)
    have first' : u.CoveredBy e' t'.options source' [f] :=
      same'.options ▸ fun g member => covered' g (among member)
    refine ⟨?_, ⟨examine_remembers held first, (examine_continues u source t f).trans same⟩,
      examine_remembers held' first', (examine_continues u source' t' f).trans same'⟩
    refine examine_agrees held held' ?_ first first' ?_
    · rw [same.options, same'.options]
      exact alike
    · exact same.options ▸ fun g member => sources g (among member)
  obtain ⟨same, kept, -⟩ := Composable.askAll_agrees
    (fun (t : State μ φ) (t' : State μ' φ') => (t.Remembers e ∧ t.Continues s) ∧
      t'.Remembers e' ∧ t'.Continues s')
    each s' ⟨⟨remembers, .refl s⟩, remembers', .refl s'⟩
  exact ⟨same, kept.1⟩

/-- Sessions with the same switches that remember what is right give the same result for a unit,
from sources that give the same. -/
theorem State.analyzeUnit_covered (remembers : s.Remembers e) (remembers' : s'.Remembers e')
    (alike : s.options.Alike s'.options)
    (covered : u.CoveredBy e s.options source (u.examined s.options.behavior))
    (covered' : u.CoveredBy e' s'.options source' (u.examined s.options.behavior))
    (sources : u.SameBy s.options source source' (u.examined s.options.behavior)) :
    (s.analyzeUnit u source).1 = (s'.analyzeUnit u source').1 ∧
      (s.analyzeUnit u source).2.Remembers e := by
  obtain ⟨same, kept⟩ := examineAll_agrees remembers remembers' alike covered covered' sources
  refine ⟨?_, kept⟩
  show Except.map (Result.ofFindings u.path) _ = Except.map (Result.ofFindings u.path) _
  rw [← alike.1]
  exact congrArg (Except.map (Result.ofFindings u.path)) same

end

/-! ## Known functions -/

/-- Functions by the place they are found at. -/
abbrev Known := String → Composable.Function Ty → Prop

namespace Known

/-- The types that known functions are given. -/
def types (known : Known) (t : Ty) : Prop :=
  ∃ place fn, known place fn ∧ some t ∈ Composable.givenTypes fn

/-- The answers about known functions and their types. -/
def expectation (known : Known) (o : Options) (ps : Packages) (source : MarkerSource) :
    Expectation where
  verdict key verdict := ∃ t, known.types t ∧ ps.key t = key ∧
    TypeGraph.classify (ps.graph source) o.stableTypes (some t) = .ok verdict
  summary place name summary := ∃ fn, known place fn ∧ fn.qualifiedName = name ∧
    plainSummary o ps source fn = .ok summary

end Known

/-- Keys tell types apart. -/
def KeysTell (ps : Packages) (types : Ty → Prop) : Prop :=
  ∀ t u, types t → types u → ps.key t = ps.key u → t = u

/-- Keys tell types apart, places and names tell functions apart. -/
structure Coherent (ps : Packages) (known : Known) : Prop where
  types : KeysTell ps known.types
  functions : ∀ place fn fn', known place fn → known place fn' →
    fn.qualifiedName = fn'.qualifiedName → fn = fn'

/-- The functions of a list that are analyzed are known. -/
def Unit.KnownTo (u : Unit) (known : Known) (fs : List FuncDecl) : Prop :=
  ∀ f ∈ fs, (directivesOf f).composable → f.checked →
    known (u.layout.describe f.pos) (u.packages.describe u.path f (directivesOf f))

section
variable {μ φ : Type} [Store μ String Verdict] [Store φ FunctionKey Summary]

/-- Everything that is remembered is an answer about known types and functions. -/
def State.Honest (ps : Packages) (source : MarkerSource) (known : Known) (s : State μ φ) : Prop :=
  s.Remembers (known.expectation s.options ps source)

variable {ps : Packages} {source : MarkerSource} {known : Known} {o : Options}
  {stores : Stores μ φ}

theorem State.new_honest (blank : stores.Blank) (o : Options) :
    (State.new stores o).Honest ps source known :=
  remembers_of_blank (blank.verdicts _) (blank.functions _)

theorem Coherent.covers (coherent : Coherent ps known) {place : String}
    {fn : Composable.Function Ty} (among : known place fn) :
    (known.expectation o ps source).Covers o ps source place fn where
  types t given verdict := by
    have here : known.types t := ⟨place, fn, among, given⟩
    constructor
    · -- the verdict is about a type of the same key, which is the same type
      rintro ⟨u, there, same, right⟩
      rwa [coherent.types u t there here same] at right
    · exact fun right => ⟨t, here, rfl, right⟩
  summary summary := by
    constructor
    · rintro ⟨fn', among', name, right⟩
      rwa [coherent.functions place fn' fn among' among name] at right
    · exact fun right => ⟨fn, among, rfl, right⟩

theorem Coherent.covered {u : Unit} {fs : List FuncDecl} (coherent : Coherent u.packages known)
    (among : u.KnownTo known fs) :
    u.CoveredBy (known.expectation o u.packages source) o source fs :=
  fun f member composable checked => coherent.covers (among f member composable checked)

/-- A single function that is given a single type. -/
theorem Coherent.of_single {only : Composable.Function Ty} (given : Ty)
    (function : ∀ place fn, known place fn → fn = only)
    (type : ∀ t, some t ∈ Composable.givenTypes only → t = given) : Coherent ps known := by
  have types {t : Ty} (among : known.types t) : t = given := by
    obtain ⟨place, fn, here, member⟩ := among
    rw [function place fn here] at member
    exact type t member
  refine ⟨fun t u first second _ => ?_, fun place fn fn' first second _ => ?_⟩
  · rw [types first, types second]
  · rw [function place fn first, function place fn' second]

/-- Honest sessions with the same switches give the same result for a unit. -/
theorem State.analyzeUnit_agrees {μ' φ' : Type} [Store μ' String Verdict]
    [Store φ' FunctionKey Summary] {u : Unit} {s : State μ φ} {s' : State μ' φ'}
    (coherent : Coherent u.packages known)
    (honest : s.Honest u.packages source known) (honest' : s'.Honest u.packages source known)
    (alike : s.options.Alike s'.options)
    (among : u.KnownTo known (u.examined s.options.behavior)) :
    (s.analyzeUnit u source).1 = (s'.analyzeUnit u source).1 ∧
      (s.analyzeUnit u source).2.Honest u.packages source known := by
  obtain ⟨same, kept⟩ := State.analyzeUnit_covered honest honest' alike
    (coherent.covered among) (coherent.covered among) (.refl _ _ _ _)
  exact ⟨same, by rw [State.Honest, (s.analyzeUnit_continues u source).options]; exact kept⟩

end

end ComposeStability.Session
