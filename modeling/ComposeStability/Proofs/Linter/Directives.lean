/-
# Proofs.Linter.Directives -- which invalid directives are reported

The linter reads the doc comments of the functions that it examines and of all
declared types.  The mistakes in the doc comment of one declaration are one
problem, of which the first mistake is reported (`check_reports_first`).  So
there is one report for each invalid directive exactly if no declaration has
two of them (`check_reports_each_iff`).
-/
import ComposeStability.Proofs.Directive.Reading
import ComposeStability.Proofs.Linter.Agreement
import ComposeStability.Proofs.Session.Accounting

namespace ComposeStability.Linter

set_option autoImplicit false

open Program (Package Packages MarkerSource)
open Session (MarkerIndex Problem Finding problemsOf Store Stores FunctionKey)
open Stability (Verdict Summary)
open Source (File FuncDecl Layout)
open Directive (Mistake)

/-! ## Invalid directives -/

/-- The functions that the linter examines: those with a body that are not silenced, in files that
are not skipped. -/
def examinedFunctions (o : Options) (p : Package) : List FuncDecl :=
  (p.files.filter fun file =>
    !file.skipped (o.behavior.enabled Session.Behavior.includeGenerated)
      (o.behavior.enabled Session.Behavior.includeTests)).flatMap (·.functions)

/-- The invalid directives in the doc comment of each declaration, first of the examined functions,
then of the types. -/
def mistakesByDeclaration (o : Options) (p : Package) : List (List Mistake) :=
  (examinedFunctions o p).map (fun f => (Directive.ofFunction (f.doc.getD [])).2) ++
    ((placedFiles p).flatMap (·.typeSpecs)).map fun spec => (Directive.ofType (spec.2.getD [])).2

/-- The report of one invalid directive, at its comment. -/
def invalidDirective (m : Mistake) : Diagnostic where
  start := m.comment.pos
  stop := m.comment.pos + m.comment.text.utf8ByteSize
  message := "Invalid directive " ++ Text.quote m.comment.text ++ ": " ++ m.fault.message ++
    " (stable:dir)"

/-! ## Reports by their marks -/

/-- Whether a report is about an invalid directive. -/
def Diagnostic.isAboutDirective (d : Diagnostic) : Bool := Text.endsWith " (stable:dir)" d.message

/-- The end of a text is the end of its last part, if that is long enough. -/
theorem endsWith_append {tail : String} (s : String) {last : String}
    (long : tail.length ≤ last.length) :
    Text.endsWith tail (s ++ last) = Text.endsWith tail last := by
  rw [Text.endsWith, Text.endsWith, Bool.eq_iff_iff, List.isSuffixOf_iff_suffix,
    List.isSuffixOf_iff_suffix, String.toList_append]
  constructor
  · intro ends
    exact List.suffix_of_suffix_length_le ends (List.suffix_append _ _)
      (by rwa [String.length_toList, String.length_toList])
  · exact fun ends => ends.trans (List.suffix_append _ _)

theorem isAboutDirective_invalidDirective (m : Mistake) :
    (invalidDirective m).isAboutDirective = true := by
  rw [Diagnostic.isAboutDirective, invalidDirective, endsWith_append _ (by decide)]
  decide

theorem isAboutDirective_internalError (start stop : Source.Pos) (message : String) :
    (internalError start stop message).isAboutDirective = false := by
  rw [Diagnostic.isAboutDirective, internalError, endsWith_append _ (by decide)]
  decide

theorem isAboutDirective_notSkippable (f : FuncDecl) (s : Stability.Summary) :
    (notSkippable f s).isAboutDirective = false := by
  rw [Diagnostic.isAboutDirective, notSkippable, endsWith_append _ (by decide)]
  decide

/-! ## One declaration -/

/-- What is reported of the mistakes in one declaration. -/
def firstReport (mistakes : List Mistake) : Option Diagnostic := mistakes.head?.map invalidDirective

/-- The reports of problems that are about invalid directives. -/
def directiveReports (fallback : Source.Pos) (problems : List Problem) : List Diagnostic :=
  (problems.map (ofProblem fallback)).filter (·.isAboutDirective)

theorem directiveReports_append (fallback : Source.Pos) (first second : List Problem) :
    directiveReports fallback (first ++ second) =
      directiveReports fallback first ++ directiveReports fallback second := by
  simp [directiveReports]

/-- Of the mistakes in one declaration, the first is reported. -/
theorem directiveReports_problemsOf (fallback : Source.Pos) {mistakes : List Mistake}
    (apparent : ∀ m ∈ mistakes, m.fault ≠ .traceNotComposable) :
    directiveReports fallback (problemsOf mistakes) = (firstReport mistakes).toList := by
  cases mistakes with
  | nil => rfl
  | cons m rest =>
      have report : ofProblem fallback (.directives (m :: rest)) = invalidDirective m := by
        simp [ofProblem, apparent m List.mem_cons_self, invalidDirective]
      have problem : problemsOf (m :: rest) = [.directives (m :: rest)] := rfl
      rw [directiveReports, problem, List.map_singleton, report,
        List.filter_cons_of_pos (isAboutDirective_invalidDirective m)]
      rfl

/-- A trace on a function that is not composable is reported under a mark of its own. -/
theorem directiveReports_strayTraces (fallback : Source.Pos) (f : FuncDecl) :
    directiveReports fallback (Session.strayTraces f) = [] := by
  refine List.filter_eq_nil_iff.2 fun d reported => ?_
  obtain ⟨problem, stray, rfl⟩ := List.mem_map.1 reported
  unfold Session.strayTraces at stray
  split at stray
  · cases stray
  · obtain ⟨t, -, rfl⟩ := Option.map_eq_some_iff.1 (Option.mem_toList.1 stray)
    simp only [Directive.strayTrace, ofProblem, if_true, Diagnostic.isAboutDirective]
    decide

/-! ## Functions and types -/

theorem examined_directiveReports (fallback : Source.Pos) (fs : List FuncDecl) :
    directiveReports fallback
        (fs.flatMap fun f => Session.directiveProblems f ++ Session.strayTraces f) =
      (fs.map fun f => (Directive.ofFunction (f.doc.getD [])).2).filterMap firstReport := by
  induction fs with
  | nil => rfl
  | cons f fs ih =>
      rw [List.flatMap_cons, directiveReports_append, ih, directiveReports_append,
        directiveReports_strayTraces, List.append_nil, Session.directiveProblems,
        ← Directive.ofFunction_mistakes,
        directiveReports_problemsOf fallback fun m mem => Directive.ofFunction_apparent mem,
        List.map_cons, List.filterMap_cons]
      cases firstReport (Directive.ofFunction (f.doc.getD [])).2 <;> rfl

theorem indexTypes_directiveReports (fallback : Source.Pos) (p : Package) (files : List File) :
    directiveReports fallback (Session.indexTypes p files).2 =
      ((files.flatMap (·.typeSpecs)).map fun spec =>
        (Directive.ofType (spec.2.getD [])).2).filterMap firstReport := by
  rw [Session.indexTypes]
  generalize files.flatMap (·.typeSpecs) = specs
  induction specs with
  | nil => rfl
  | cons spec specs ih =>
      rw [List.map_cons, List.flatMap_cons, directiveReports_append, ih,
        directiveReports_problemsOf fallback fun m mem => Directive.ofType_apparent mem,
        List.map_cons, List.filterMap_cons]
      cases firstReport (Directive.ofType (spec.2.getD [])).2 <;> rfl

/-! ## One package -/

section
variable {α β : Type}

/-- Lists have as many items as there are lists that are not empty exactly if none has two. -/
theorem length_firsts (f : α → β) (groups : List (List α)) :
    (groups.filterMap fun group => group.head?.map f).length ≤ groups.flatten.length ∧
      ((groups.filterMap fun group => group.head?.map f).length = groups.flatten.length →
        ∀ group ∈ groups, group.length ≤ 1) := by
  induction groups with
  | nil => simp
  | cons group groups ih =>
      obtain ⟨fewer, equal⟩ := ih
      cases group with
      | nil => exact ⟨fewer, fun same => List.forall_mem_cons.2 ⟨Nat.zero_le 1, equal same⟩⟩
      | cons a rest =>
          simp only [List.filterMap_cons, List.head?_cons, Option.map_some, List.length_cons,
            List.flatten_cons, List.length_append, List.forall_mem_cons]
          refine ⟨by omega, fun same => ⟨by omega, equal (by omega)⟩⟩

/-- The first items of lists are all their items exactly if no list has two. -/
theorem firsts_perm_iff (f : α → β) (groups : List (List α)) :
    (groups.filterMap fun group => group.head?.map f).Perm (groups.flatten.map f) ↔
      ∀ group ∈ groups, group.length ≤ 1 := by
  constructor
  · intro perm
    exact (length_firsts f groups).2 (by rw [perm.length_eq, List.length_map])
  · intro single
    refine .of_eq ?_
    induction groups with
    | nil => rfl
    | cons group groups ih =>
        obtain ⟨here, others⟩ := List.forall_mem_cons.1 single
        rw [List.filterMap_cons, ih others, List.flatten_cons, List.map_append]
        match group, here with
        | [], _ => rfl
        | [a], _ => rfl

end

section
variable {μ φ : Type} [Store μ String Verdict] [Store φ FunctionKey Summary] (stores : Stores μ φ)
  (o : Options) (ps : Packages) (layout : Layout) (facts : MarkerIndex) (p : Package)

/-- Only problems are reported under the mark of directives. -/
theorem ofResult_directives (r : Session.Result) :
    (Outcome.ofResult o p r).diagnostics.filter (·.isAboutDirective) =
      directiveReports (((placedFiles p).head?.map (·.package)).getD 0)
        (r.problems ++ (Session.indexTypes p (placedFiles p)).2) := by
  have parts : (Outcome.ofResult o p r).diagnostics =
      (p.files.filter fun file => !file.placed).map misplacedFile ++
        (r.entries.filterMap (ofEntry (placedFiles p) o.report) ++
          (r.problems ++ (Session.indexTypes p (placedFiles p)).2).map
            (ofProblem (((placedFiles p).head?.map (·.package)).getD 0)) ++
          r.unanalyzed.map ofUnanalyzed) := rfl
  have misplaced : ((p.files.filter fun file => !file.placed).map misplacedFile).filter
      (·.isAboutDirective) = [] := by
    rw [List.filter_eq_nil_iff, List.forall_mem_map]
    exact fun file _ => by simp [misplacedFile, isAboutDirective_internalError]
  have entries : (r.entries.filterMap (ofEntry (placedFiles p) o.report)).filter
      (·.isAboutDirective) = [] := by
    rw [List.filter_eq_nil_iff]
    intro d reported
    obtain ⟨e, -, made⟩ := List.mem_filterMap.1 reported
    obtain ⟨f, -, made⟩ := Option.bind_eq_some_iff.1 made
    split at made
    · rw [← Option.some.inj made, isAboutDirective_notSkippable]
      exact Bool.false_ne_true
    · cases made
  have failures : (r.unanalyzed.map ofUnanalyzed).filter (·.isAboutDirective) = [] := by
    rw [List.filter_eq_nil_iff, List.forall_mem_map]
    exact fun failure _ => by simp [ofUnanalyzed, isAboutDirective_internalError]
  simp only [parts, List.filter_append, misplaced, entries, failures, List.nil_append,
    List.append_nil]
  rfl

/-- Of each declaration with invalid directives, the first of them is reported, and nothing else is
reported as an invalid directive. -/
theorem check_reports_first :
    ∃ outcome, check stores o ps layout facts p = .ok outcome ∧
      outcome.diagnostics.filter (·.isAboutDirective) =
        (mistakesByDeclaration o p).filterMap firstReport := by
  obtain ⟨r, found, checked⟩ := check_eq stores o ps layout facts p
  refine ⟨_, checked, ?_⟩
  have examined : Session.Unit.examined ⟨ps, layout, p.path, placedFiles p⟩ o.behavior =
      examinedFunctions o p := examined_placed p o.behavior
  obtain ⟨findings, asked, rfl⟩ := map_eq_ok.1 found
  have problems := Session.examineAll_problems asked
  calc (Outcome.ofResult o p (.ofFindings p.path findings)).diagnostics.filter
        (·.isAboutDirective)
      = directiveReports (((placedFiles p).head?.map (·.package)).getD 0)
          (findings.flatMap (·.problems) ++ (Session.indexTypes p (placedFiles p)).2) :=
        ofResult_directives o p _
    _ = (mistakesByDeclaration o p).filterMap firstReport := by
        rw [directiveReports_append, problems, examined_directiveReports,
          indexTypes_directiveReports, mistakesByDeclaration, List.filterMap_append, ← examined]
        rfl

/-- There is one report for each invalid directive, at its comment, exactly if no declaration has
two of them; else only the first of each declaration is reported. -/
theorem check_reports_each_iff :
    ∃ outcome, check stores o ps layout facts p = .ok outcome ∧
      outcome.diagnostics.filter (·.isAboutDirective) =
        (mistakesByDeclaration o p).filterMap
          (fun mistakes => mistakes.head?.map invalidDirective) ∧
      ((outcome.diagnostics.filter (·.isAboutDirective)).Perm
          ((mistakesByDeclaration o p).flatten.map invalidDirective) ↔
        ∀ mistakes ∈ mistakesByDeclaration o p, mistakes.length ≤ 1) := by
  obtain ⟨outcome, checked, first⟩ := check_reports_first stores o ps layout facts p
  refine ⟨outcome, checked, first, ?_⟩
  rw [first]
  exact firsts_perm_iff invalidDirective (mistakesByDeclaration o p)

end

/-! ## Two mistakes in one comment -/

namespace Demo

/-- A function with two invalid directives. -/
def misspelt : FuncDecl where
  keyword := 61
  doc := some [⟨13, "//stableguard:composible"⟩, ⟨38, "//stableguard:skipable"⟩]
  name := ⟨66, "Screen"⟩
  body := some []
  openBrace := 75
  closeBrace := 76

/-- A package with this function alone. -/
def misspeltPackage : Package where
  path := "ex/ui"
  name := "ui"
  files := [
    { name := "ui.go", base := 1, size := 77, lines := [0, 11, 12, 37, 60], packageName := "ui"
      package := 1, decls := [.func misspelt] }]

/-- The second invalid directive is not reported. -/
theorem misspelt_reported_once :
    ¬ ∃ outcome, check .bounded {} [misspeltPackage] misspeltPackage.files [] misspeltPackage =
        .ok outcome ∧
      (outcome.diagnostics.filter (·.isAboutDirective)).Perm
        ((mistakesByDeclaration {} misspeltPackage).flatten.map invalidDirective) := by
  rintro ⟨outcome, checked, perm⟩
  obtain ⟨_, same, first⟩ :=
    check_reports_first .bounded {} [misspeltPackage] misspeltPackage.files [] misspeltPackage
  rw [← Except.ok.inj (checked.symm.trans same)] at first
  rw [first] at perm
  have two : (mistakesByDeclaration {} misspeltPackage).map List.length = [2] := by decide +kernel
  have count : 2 ∈ (mistakesByDeclaration {} misspeltPackage).map List.length := by
    rw [two]
    exact List.mem_singleton.2 rfl
  obtain ⟨mistakes, listed, length⟩ := List.mem_map.1 count
  have short := (firsts_perm_iff invalidDirective _).1 perm mistakes listed
  omega

end Demo

end ComposeStability.Linter
