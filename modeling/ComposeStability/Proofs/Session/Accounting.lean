/-
# Proofs.Session.Accounting -- every composable function is accounted for

The analysis of a unit examines the functions with a body that no comment
silences, in the files that are not skipped (`Unit.subjects`).  Each of them that
carries a valid composable directive has one outcome, an entry or the reason why
it has none, and the result lists the outcomes in source order; no other function
has one (`State.analyzeUnit_accounts`).  There is a result unless a receiver
refuses to tell whether its methods are left out.

What a session remembers may come from any unit it has analyzed before.  A summary
that it gives back is still one of the function's name, because it was put under
that name (`State.Named`), which examining a function keeps (`examine_accounts`)
and so every history of requests does (`State.serveAll_named`).
-/
import ComposeStability.Proofs.Directive.Effect
import ComposeStability.Proofs.Directive.Reading
import ComposeStability.Proofs.Session.Requests

namespace ComposeStability

set_option autoImplicit false

open Stability (Verdict Summary)
open TypeGraph (Failure)
open Program (Ty Packages MarkerSource)
open Source (File FuncDecl)

namespace Composable

variable {σ τ : Type}

/-- A summary has the name of the function it is a summary of. -/
theorem analyze_qualifiedName {c : Classifier σ τ} {strong : Bool} {s : σ} {fn : Function τ}
    {summary : Summary} (analyzed : (analyze c strong s fn).1 = .ok summary) :
    summary.qualifiedName = fn.qualifiedName := by
  unfold analyze at analyzed
  split at analyzed
  · cases analyzed
  · split at analyzed
    · cases analyzed
    · cases analyzed
      rfl

end Composable

namespace Session

/-! ## What is examined -/

/-- The functions with a body that no comment silences, in the files that are not skipped, in source
order. -/
def Unit.subjects (u : Unit) (behavior : Behavior) : List FuncDecl :=
  u.files.flatMap fun file =>
    if file.skipped (behavior.enabled Behavior.includeGenerated)
        (behavior.enabled Behavior.includeTests) then []
    else file.allFunctions.filter fun f => f.body.isSome && !File.silencedBy f.doc

theorem Unit.examined_eq_subjects (u : Unit) (behavior : Behavior) :
    u.examined behavior = u.subjects behavior := by
  unfold Unit.examined Unit.subjects
  induction u.files with
  | nil => rfl
  | cons file files ih =>
      dsimp only at ih ⊢
      rw [List.flatMap_cons, ← ih]
      by_cases skipped : file.skipped (behavior.enabled Behavior.includeGenerated)
          (behavior.enabled Behavior.includeTests)
      · rw [List.filter_cons_of_neg (by simp [skipped]), if_pos skipped, List.nil_append]
      · rw [List.filter_cons_of_pos (by simp [skipped]), if_neg skipped, List.flatMap_cons,
          File.functions]

/-! ## What a function says of itself -/

/-- Whether a function carries the valid directive for a switch. -/
def carries (flag : Directive.FunctionFlag) (f : FuncDecl) : Bool :=
  (f.doc.getD []).any flag.isSetBy

/-- The invalid directives of a function, as problems. -/
def directiveProblems (f : FuncDecl) : List Problem :=
  problemsOf ((f.doc.getD []).filterMap Directive.mistakeOnFunction?)

/-- The problem of a function with a valid trace directive that carries no valid composable one. -/
def strayTraces (f : FuncDecl) : List Problem :=
  if carries .composable f then []
  else (((f.doc.getD []).filterMap Directive.trace?).getLast?.map fun t =>
    Problem.directives [Directive.strayTrace t.pos]).toList

/-- Whether a function is left out of reports: it says so itself, or it is a method of a type that is
marked to be skipped. -/
def Unit.leavesOut (u : Unit) (source : MarkerSource) (f : FuncDecl) : Bool :=
  carries .ignore f || (u.packages.skippedReceiver source f matches .ok true)

/-- The name of a function in results. -/
def Unit.nameOf (u : Unit) (f : FuncDecl) : String := u.packages.qualifiedName u.path f

/-! ## Outcomes -/

/-- An entry is that of a function: it has its declaration, its name and its directives, and says
whether the function is left out of reports. -/
structure Unit.EntryOf (u : Unit) (source : MarkerSource) (f : FuncDecl) (e : Entry) : Prop where
  decl : e.decl = some f
  known : f.checked = true
  name : e.summary.qualifiedName = u.nameOf f
  ignore : e.directives.ignore = u.leavesOut source f
  others : ∀ flag, flag ≠ .ignore → e.directives.has flag = carries flag f

/-- The record of a function that could not be analyzed: it has its place, and its qualified name
unless the type checker does not know the function. -/
structure Unit.FailureOf (u : Unit) (f : FuncDecl) (x : Unanalyzed) : Prop where
  pos : x.pos = f.pos
  cause : f.checked = false ∧ x.qualifiedName = f.name.name ∧ x.cause = .noObject ∨
    f.checked = true ∧ x.qualifiedName = u.nameOf f ∧
      ∃ failure, x.cause = .failed ⟨u.nameOf f, failure⟩

/-- The outcome of a function: an entry of it, or the record that it could not be analyzed. -/
def Unit.Accounts (u : Unit) (source : MarkerSource) (f : FuncDecl) : Entry ⊕ Unanalyzed → Prop
  | .inl e => u.EntryOf source f e
  | .inr x => u.FailureOf f x

/-! ## Memory -/

section
variable {μ φ : Type} [Store μ String Verdict] [Store φ FunctionKey Summary] {s : State μ φ}
  {f : FuncDecl}

/-- What the memory of summaries was given are summaries of functions of the name that they were
given under. -/
def State.Named (s : State μ φ) : Prop :=
  Store.Holds (fun key (summary : Summary) => summary.qualifiedName = key.name) s.functions

theorem State.summarize_named (named : s.Named) (ps : Packages) (source : MarkerSource)
    (place : String) (fn : Composable.Function Ty) :
    (s.summarize ps source place fn).2.Named ∧
      ∀ summary, (s.summarize ps source place fn).1 = .ok summary →
        summary.qualifiedName = fn.qualifiedName := by
  have held := named.get ⟨place, fn.qualifiedName, s.version⟩
  have given (summary : Summary)
      (got : (Store.get s.functions ⟨place, fn.qualifiedName, s.version⟩).1 = some summary) :
      summary.qualifiedName = fn.qualifiedName := named.right_of_get got
  unfold summarize
  dsimp only
  generalize Store.get s.functions ⟨place, fn.qualifiedName, s.version⟩ = got at held given
  obtain ⟨remembered, functions⟩ := got
  cases remembered with
  | some summary =>
      refine ⟨held, fun answer same => ?_⟩
      cases same
      exact given _ rfl
  | none =>
      -- analysis changes the memory of verdicts alone
      have right (summary : Summary)
          (analyzed : ({ s with functions }.analyze ps source fn).1 = .ok summary) :
          summary.qualifiedName = fn.qualifiedName := by
        unfold analyze at analyzed
        exact Composable.analyze_qualifiedName analyzed
      have kept : ({ s with functions }.analyze ps source fn).2.functions = functions := rfl
      dsimp only
      generalize { s with functions }.analyze ps source fn = analyzed at right kept
      obtain ⟨answer, after⟩ := analyzed
      obtain rfl : after.functions = functions := kept
      cases answer with
      | error failure => exact ⟨held, nofun⟩
      | ok summary =>
          refine ⟨held.add (right summary rfl), fun answer same => ?_⟩
          cases same
          exact right _ rfl

/-! ## One function -/

theorem ofFunction_eq (f : FuncDecl) : Directive.ofFunction (f.doc.getD []) =
    (directivesOf f, (f.doc.getD []).filterMap Directive.mistakeOnFunction?) :=
  Prod.ext rfl (Directive.ofFunction_mistakes _)

theorem has_directivesOf (f : FuncDecl) (flag : Directive.FunctionFlag) :
    (directivesOf f).has flag = carries flag f :=
  Directive.ofFunction_has _ flag

theorem composable_directivesOf (f : FuncDecl) :
    (directivesOf f).composable = carries .composable f :=
  has_directivesOf f .composable

/-- A function is reported for its invalid directives, and for a trace if it is not composable. -/
theorem examine_problems {u : Unit} {source : MarkerSource} {finding : Finding}
    (found : (examine u source s f).1 = .ok finding) :
    finding.problems = directiveProblems f ++ strayTraces f := by
  have traced : (directivesOf f).trace =
      ((f.doc.getD []).filterMap Directive.trace?).getLast? := Directive.ofFunction_trace _
  unfold examine at found
  rw [ofFunction_eq] at found
  unfold strayTraces directiveProblems
  dsimp only at found
  rw [composable_directivesOf, traced] at found
  cases composable : carries .composable f with
  | false =>
      simp only [composable, Bool.not_false, if_true] at found
      rw [← Except.ok.inj found]
      rfl
  | true =>
      rw [if_pos rfl, List.append_nil]
      simp only [composable, Bool.not_true, Bool.false_eq_true, if_false] at found
      split at found
      · rw [← Except.ok.inj found]
      · split at found
        · cases found
        · split at found <;> rw [← Except.ok.inj found]

/-- A function that is not composable has no outcome. -/
theorem examine_plain (u : Unit) (source : MarkerSource) (s : State μ φ)
    (plain : carries .composable f = false) :
    ∃ finding, examine u source s f = (.ok finding, s) ∧
      finding.entry = none ∧ finding.unanalyzed = none := by
  rw [← composable_directivesOf] at plain
  unfold examine
  rw [ofFunction_eq]
  exact ⟨_, if_pos (by simp [plain]), rfl, rfl⟩

/-- A composable function that the type checker does not know could not be analyzed. -/
theorem examine_unknown (u : Unit) (source : MarkerSource) (s : State μ φ)
    (composable : carries .composable f = true) (unknown : f.checked = false) :
    ∃ finding, examine u source s f = (.ok finding, s) ∧
      finding.entry = none ∧ finding.unanalyzed = some ⟨f.name.name, f.pos, .noObject⟩ := by
  rw [← composable_directivesOf] at composable
  unfold examine
  rw [ofFunction_eq]
  exact ⟨_, (if_neg (by simp [composable])).trans (if_pos (by simp [unknown])), rfl, rfl⟩

/-- The directives of a function, with what the markers of its receiver add. -/
def Unit.directives (u : Unit) (source : MarkerSource) (f : FuncDecl) : Directive.OnFunction :=
  { directivesOf f with ignore := u.leavesOut source f }

theorem Unit.directives_eq {u : Unit} {source : MarkerSource} {f : FuncDecl} {skipped : Bool}
    (told : u.packages.skippedReceiver source f = .ok skipped) :
    (if skipped then { directivesOf f with ignore := true } else directivesOf f) =
      u.directives source f := by
  have ignore : (directivesOf f).ignore = carries .ignore f := has_directivesOf f .ignore
  rw [Unit.directives, Unit.leavesOut, ← ignore, told]
  cases skipped with
  | false => rw [Bool.or_false]; rfl
  | true => rw [Bool.or_true]; rfl

/-- Of a composable function that the type checker knows, the session is asked for the summary,
unless its receiver refuses. -/
theorem examine_known (u : Unit) (source : MarkerSource) (s : State μ φ)
    (composable : carries .composable f = true) (known : f.checked = true) :
    (∃ failure, examine u source s f = (.error failure, s)) ∨
      ∃ finding, examine u source s f = (.ok finding, (s.asked u source f).2) ∧
        match (s.asked u source f).1 with
        | .ok summary =>
            finding.entry = some ⟨summary, u.directives source f, some f⟩ ∧
              finding.unanalyzed = none
        | .error failure => finding.entry = none ∧
            finding.unanalyzed = some ⟨u.nameOf f, f.pos, .failed ⟨u.nameOf f, failure⟩⟩ := by
  rw [← composable_directivesOf] at composable
  unfold examine State.asked
  rw [ofFunction_eq]
  -- the description of the function does not depend on whether it is left out
  simp only [describe_ignore]
  rw [if_neg (by simp [composable]), if_neg (by simp [known])]
  cases told : u.packages.skippedReceiver source f with
  | error failure => exact .inl ⟨failure, rfl⟩
  | ok skipped =>
      dsimp only
      rw [Unit.directives_eq told]
      generalize s.summarize u.packages source (u.layout.describe f.pos)
        (u.packages.describe u.path f (directivesOf f)) = asked
      obtain ⟨answer, after⟩ := asked
      cases answer <;> exact .inr ⟨_, rfl, rfl, rfl⟩

theorem Unit.directives_has (u : Unit) (source : MarkerSource) (f : FuncDecl)
    {flag : Directive.FunctionFlag} (other : flag ≠ .ignore) :
    (u.directives source f).has flag = carries flag f := by
  rw [← has_directivesOf]
  cases flag with
  | ignore => exact absurd rfl other
  | _ => rfl

/-- What is found about a function has one outcome if it is composable, and else none. -/
structure Unit.AccountsFor (u : Unit) (source : MarkerSource) (f : FuncDecl) (finding : Finding) :
    Prop where
  composable : carries .composable f = true → ∃ outcome, u.Accounts source f outcome ∧
    finding.entry = outcome.getLeft? ∧ finding.unanalyzed = outcome.getRight?
  other : carries .composable f = false → finding.entry = none ∧ finding.unanalyzed = none

/-- An examined function that is composable has one outcome, and any other function has none. -/
theorem examine_accounts (named : s.Named) (u : Unit) (source : MarkerSource) (f : FuncDecl) :
    (examine u source s f).2.Named ∧
      ∀ finding, (examine u source s f).1 = .ok finding → u.AccountsFor source f finding := by
  cases composable : carries .composable f with
  | false =>
      obtain ⟨finding, examined, outcome⟩ := examine_plain u source s composable
      rw [examined]
      refine ⟨named, fun _ same => ?_⟩
      rw [← Except.ok.inj same]
      exact ⟨fun carried => absurd (composable.symm.trans carried) Bool.false_ne_true,
        fun _ => outcome⟩
  | true =>
      have single {finding : Finding} {outcome : Entry ⊕ Unanalyzed}
          (account : u.Accounts source f outcome) (entry : finding.entry = outcome.getLeft?)
          (unanalyzed : finding.unanalyzed = outcome.getRight?) :
          u.AccountsFor source f finding :=
        ⟨fun _ => ⟨outcome, account, entry, unanalyzed⟩,
          fun missing => absurd (missing.symm.trans composable) Bool.false_ne_true⟩
      cases known : f.checked with
      | false =>
          obtain ⟨finding, examined, entry, unanalyzed⟩ :=
            examine_unknown u source s composable known
          rw [examined]
          refine ⟨named, fun _ same => ?_⟩
          rw [← Except.ok.inj same]
          have failure : u.FailureOf f ⟨f.name.name, f.pos, .noObject⟩ :=
            ⟨rfl, .inl ⟨known, rfl, rfl⟩⟩
          have account : u.Accounts source f (.inr ⟨f.name.name, f.pos, .noObject⟩) := failure
          exact single account entry unanalyzed
      | true =>
          rcases examine_known u source s composable known with
            ⟨failure, examined⟩ | ⟨finding, examined, outcome⟩
          · rw [examined]
            exact ⟨named, fun _ same => absurd same (by simp)⟩
          · obtain ⟨kept, right⟩ := State.summarize_named named u.packages source
              (u.layout.describe f.pos) (u.packages.describe u.path f (directivesOf f))
            rw [examined]
            refine ⟨kept, fun _ same => ?_⟩
            rw [← Except.ok.inj same]
            cases answer : (s.asked u source f).1 with
            | error failure =>
                rw [answer] at outcome
                have account : u.Accounts source f
                    (.inr ⟨u.nameOf f, f.pos, .failed ⟨u.nameOf f, failure⟩⟩) :=
                  ⟨rfl, .inr ⟨known, rfl, failure, rfl⟩⟩
                exact single account outcome.1 outcome.2
            | ok summary =>
                rw [answer] at outcome
                have account : u.Accounts source f
                    (.inl ⟨summary, u.directives source f, some f⟩) :=
                  ⟨rfl, known, right summary answer, rfl,
                    fun flag other => u.directives_has source f other⟩
                exact single account outcome.1 outcome.2

/-! ## All functions of a unit -/

section
variable {u : Unit} {source : MarkerSource} {fs : List FuncDecl} {findings : List Finding}

theorem examineAll_named (named : s.Named) :
    (Composable.askAll (examine u source) s fs).2.Named :=
  Composable.askAll_keeps (fun _ named f _ => (examine_accounts named u source f).1) named

theorem examineAll_accounts (named : s.Named)
    (found : (Composable.askAll (examine u source) s fs).1 = .ok findings) :
    List.Forall₂ (u.AccountsFor source) fs findings := by
  refine Composable.askAll_forall₂ ?_ ?_ named found
  · exact fun _ named f _ => (examine_accounts named u source f).1
  · exact fun _ named f _ => (examine_accounts named u source f).2

theorem examineAll_problems
    (found : (Composable.askAll (examine u source) s fs).1 = .ok findings) :
    findings.flatMap (·.problems) = fs.flatMap fun f => directiveProblems f ++ strayTraces f := by
  refine flatMap_of_forall₂ (Composable.forall₂_of_askAll ?_ found)
  exact fun _ _ _ _ => examine_problems

omit [Store μ String Verdict] [Store φ FunctionKey Summary] in
/-- The composable functions have one outcome each, and the findings hold these in order. -/
theorem outcomes_of_findings (each : List.Forall₂ (u.AccountsFor source) fs findings) :
    ∃ outcomes, List.Forall₂ (u.Accounts source) (fs.filter (carries .composable)) outcomes ∧
      findings.filterMap (·.entry) = outcomes.filterMap (·.getLeft?) ∧
      findings.filterMap (·.unanalyzed) = outcomes.filterMap (·.getRight?) := by
  induction each with
  | nil => exact ⟨[], .nil, rfl, rfl⟩
  | @cons f finding fs findings here _ ih =>
      obtain ⟨outcomes, accounts, entries, unanalyzed⟩ := ih
      cases composable : carries .composable f with
      | false =>
          obtain ⟨entry, failure⟩ := here.other composable
          refine ⟨outcomes, ?_, ?_, ?_⟩
          · rwa [List.filter_cons_of_neg (by simp [composable])]
          · rw [List.filterMap_cons_none entry, entries]
          · rw [List.filterMap_cons_none failure, unanalyzed]
      | true =>
          obtain ⟨outcome, account, entry, failure⟩ := here.composable composable
          refine ⟨outcome :: outcomes, ?_, ?_, ?_⟩
          · rw [List.filter_cons_of_pos composable]
            exact .cons account accounts
          · rw [List.filterMap_cons, entry, entries, List.filterMap_cons]
          · rw [List.filterMap_cons, failure, unanalyzed, List.filterMap_cons]

end

/-- The functions left out of reports, with the type checker's knowledge of their receivers. -/
theorem Unit.ignoredName_eq (u : Unit) (source : MarkerSource) (f : FuncDecl) :
    u.ignoredName source f =
      if carries .composable f && (f.checked && u.leavesOut source f) then some (u.nameOf f)
      else none := by
  have ignore : (directivesOf f).ignore = carries .ignore f := has_directivesOf f .ignore
  rw [Unit.ignoredName, composable_directivesOf, ignore, Unit.leavesOut, Bool.and_assoc,
    Bool.or_comm]
  rfl

/-! ## Sessions -/

theorem State.serve_named (named : s.Named) (request : Request) :
    (s.serve request).2.Named ∧ (s.serve request).2.options = s.options := by
  cases request with
  | bump => exact ⟨named, rfl⟩
  | analyze job =>
      exact ⟨examineAll_named named,
        (s.analyzeUnit_continues job.unit job.source).options⟩

theorem State.serveAll_named (named : s.Named) (requests : List Request) :
    (s.serveAll requests).2.Named ∧ (s.serveAll requests).2.options = s.options := by
  induction requests generalizing s with
  | nil => exact ⟨named, rfl⟩
  | cons request requests ih =>
      obtain ⟨first, same⟩ := s.serve_named named request
      obtain ⟨kept, options⟩ := ih first
      exact ⟨kept, options.trans same⟩

/-- Whatever a session has been asked for before, and whatever its stores forget, the analysis of a
unit fails exactly if the receiver of a function refuses to tell its markers, at the first one.
Else it has one outcome for each of the functions that is composable, in source order, an entry or a
record that it could not be analyzed, and lists nothing else; of these functions, it ignores those
known to the type checker that are left out of reports; and it reports the invalid directives of
each function, and a valid trace directive on one that is not composable. -/
theorem State.analyzeUnit_accounts (o : Options) (verdicts : μ) {functions : φ}
    (blank : Store.Blank functions) (history : List Request) (u : Unit) (source : MarkerSource) :
    let analyzed :=
      (((State.start o verdicts functions).serveAll history).2.analyzeUnit u source).1
    let composables := (u.subjects o.behavior).filter (carries .composable)
    (∀ failure, analyzed = .error failure ↔
      (u.subjects o.behavior).findSome? (u.refusal? source) = some failure) ∧
    ∀ r, analyzed = .ok r →
      (∃ outcomes, List.Forall₂ (u.Accounts source) composables outcomes ∧
          r.entries = outcomes.filterMap (·.getLeft?) ∧
          r.unanalyzed = outcomes.filterMap (·.getRight?)) ∧
        r.ignored =
          (composables.filter fun f => f.checked && u.leavesOut source f).map u.nameOf ∧
        r.problems =
          (u.subjects o.behavior).flatMap fun f => directiveProblems f ++ strayTraces f := by
  obtain ⟨named, options⟩ :=
    State.serveAll_named (s := State.start o verdicts functions) blank.holds history
  generalize ((State.start o verdicts functions).serveAll history).2 = s at named options
  have subjects : u.examined s.options.behavior = u.subjects o.behavior := by
    rw [options, State.start, u.examined_eq_subjects]
  refine ⟨fun failure => ?_, fun r found => ?_⟩
  · rw [← subjects]
    exact s.analyzeUnit_eq_error_iff u source failure
  · have ignored := State.analyzeUnit_ignored found
    obtain ⟨findings, asked, rfl⟩ := map_eq_ok.1 found
    rw [subjects] at asked ignored
    refine ⟨outcomes_of_findings (examineAll_accounts named asked), ?_, ?_⟩
    · calc (Result.ofFindings u.path findings).ignored
          = (u.subjects o.behavior).filterMap (u.ignoredName source) := ignored
        _ = (u.subjects o.behavior).filterMap fun f =>
              if (f.checked && u.leavesOut source f) && carries .composable f then
                some (u.nameOf f)
              else none := by
            simp only [Unit.ignoredName_eq, Bool.and_comm]
        _ = _ := by
            rw [← List.filterMap_filter, ← List.filter_filter]
            exact congrFun List.filterMap_eq_map _
    · exact examineAll_problems asked

end

/-! ## A receiver that may refuse -/

namespace Demo

/-- A method with the parameters of the function. -/
def tileScreen : FuncDecl :=
  { screen with receiver := some [⟨[⟨159, "t"⟩], .named "ex/ui" "Tile" [], ⟨159, "Tile"⟩⟩] }

/-- The function and the method. -/
def tiles : Unit where
  packages := program
  layout := programLayout
  path := "ex/ui"
  files := ui.files.map fun file => { file with decls := [.func screen, .func tileScreen] }

/-- A source with no markers, for all types or for none. -/
def unmarked (refuses : Bool) : MarkerSource := fun _ name =>
  if refuses then .error (.refused ("no markers for " ++ name)) else .ok Flags.empty

/-- A session that has analyzed the function alone, before a change. -/
def tilesSession : State :=
  ((State.start {} (Recency.empty 1) (Recency.empty 1)).serveAll
    [.analyze (screenJob [ui]), .bump]).2

/-- Both functions are accounted for, unless the receiver of the second one refuses. -/
theorem tiles_accounted :
    Store.Blank (Recency.empty 1 : FunctionMemory) ∧
      (tilesSession.analyzeUnit tiles (unmarked true)).1 = .error (.refused "no markers for Tile") ∧
      ∃ r, (tilesSession.analyzeUnit tiles (unmarked false)).1 = .ok r ∧
        r.entries.length + r.unanalyzed.length = 2 ∧ r.ignored = [] ∧ r.problems = [] := by
  have blank : Store.Blank (Recency.empty 1 : FunctionMemory) := Recency.empty_blank 1
  have refusing := State.analyzeUnit_accounts {} (Recency.empty 1 : VerdictMemory) blank
    [.analyze (screenJob [ui]), .bump] tiles (unmarked true)
  obtain ⟨refused, accounts⟩ := State.analyzeUnit_accounts {} (Recency.empty 1 : VerdictMemory)
    blank [.analyze (screenJob [ui]), .bump] tiles (unmarked false)
  refine ⟨blank, (refusing.1 _).2 (by decide +kernel), ?_⟩
  have willing : (tiles.subjects Flags.empty).findSome? (tiles.refusal? (unmarked false)) = none := by
    decide +kernel
  cases analyzed : (tilesSession.analyzeUnit tiles (unmarked false)).1 with
  | error failure => exact absurd (willing.symm.trans ((refused failure).1 analyzed)) (by simp)
  | ok r =>
      obtain ⟨⟨outcomes, each, entries, unanalyzed⟩, ignored, problems⟩ := accounts r analyzed
      have two : outcomes.length = 2 := each.length_eq.symm.trans (by decide +kernel)
      refine ⟨r, rfl, ?_, ignored.trans (by decide +kernel), problems.trans (by decide +kernel)⟩
      obtain ⟨first, second, rfl⟩ := List.length_eq_two.1 two
      rw [entries, unanalyzed]
      cases first <;> cases second <;> rfl

end Demo

end Session

end ComposeStability
