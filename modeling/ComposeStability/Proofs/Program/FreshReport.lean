/-
# Proofs.Program.FreshReport -- checking a program against its own report

The summaries that analysis gives of well-named functions can be shown in a
report (`presentable_of_summaryOf`), so checking the program against the report
just written finds nothing exactly if all signatures in it are legible
(`clean_iff_legible_signatures`).  What makes a signature illegible is a tag:
brackets, commas and `): ` in a quoted tag are read as if they were outside of
it.  Where tags are harmless, the check is clean.
-/
import ComposeStability.Program.Function
import ComposeStability.Proofs.Composable.Classifier
import ComposeStability.Proofs.Program.Answers
import ComposeStability.Proofs.Program.WellNamed
import ComposeStability.Proofs.Report.Clean
import ComposeStability.Proofs.TypeGraph.Leaf

namespace ComposeStability.Program

set_option autoImplicit false

open Stability (Summary Parameter Verdict)
open TypeGraph (Pattern)

/-! ## Functions -/

/-- A function of a program. -/
structure Declared where
  /-- The path of its package. -/
  path : String
  decl : Source.FuncDecl
  directives : Directive.OnFunction := {}

/-- The names of a function and of its types are identifiers; parameters need no names. -/
structure Declared.WellNamed (f : Declared) : Prop where
  path : isImportPath f.path = true
  name : Text.isIdentifier f.decl.name.name = true
  receiver : ∀ t, f.decl.receiverType? = some t → t.WellNamed
  params : ∀ v ∈ f.decl.signature.params,
    (v.name = "" ∨ Text.isIdentifier v.name = true) ∧ v.type.WellNamed
  results : ∀ v ∈ f.decl.signature.results, v.type.WellNamed

/-- The tags of parameters pair their brackets and expose no commas, and no tag of a result looks
like the end of a parameter list. -/
structure Declared.TagsHarmless (f : Declared) : Prop where
  params : ∀ v ∈ f.decl.signature.params, ∀ tag, v.type.Tagged tag →
    Sealed (Text.quote tag).toList
  results : ∀ v ∈ f.decl.signature.results, ∀ tag, v.type.Tagged tag →
    ¬ "): ".toList <:+: (Text.quote tag).toList

namespace Packages

variable {ps : Packages}

/-- The summary that analysis gives of a function, whichever of its types are taken for
enumerations. -/
def SummaryOf (ps : Packages) (source : MarkerSource) (patterns : List Pattern) (strong : Bool)
    (f : Declared) (s : Summary) : Prop :=
  ∃ test, (Composable.analyze (.plain (ps.graphWith source test) patterns) strong ()
    (ps.describe f.path f.decl f.directives)).1 = .ok s

/-! ## Names -/

/-- A qualified name ends in the name of the function, after a dot. -/
theorem qualifiedName_eq (named : ps.WellNamed) {f : Declared} (good : f.WellNamed) :
    ∃ owner, Word owner ∧
      ps.qualifiedName f.path f.decl = owner ++ "." ++ f.decl.name.name := by
  have path := word_of_importPath good.path
  rw [qualifiedName]
  cases receiver : ps.receiverTypeName? f.decl with
  | none => exact ⟨f.path, path, by simp⟩
  | some name =>
      obtain ⟨t, method, found⟩ := Option.bind_eq_some_iff.1 receiver
      have type_good := good.receiver t method
      have base_good : (receiverBase t).WellNamed := by
        cases t <;> exact type_good
      have word : Word name := by
        have target := named.unalias base_good
        split at found
        · next same =>
          obtain rfl := Option.some.inj found
          rw [same] at target
          simp only [Ty.WellNamed, Ty.parts, List.forall_mem_cons] at target
          exact word_of_identifier target.2.1
        · cases found
      exact ⟨f.path ++ "." ++ name, (path.append word_dot).append word,
        by simp [String.append_assoc]⟩

theorem lastName_append {owner name : String} (no_dot : '.' ∉ name.toList) :
    Report.lastName (owner ++ "." ++ name) = name := by
  have absent : ¬ ['.'] <:+: name.toList := fun inside => no_dot (inside.subset (by simp))
  have cut : Text.cutLast ".".toList (owner ++ "." ++ name).toList =
      some (owner.toList, name.toList) := by
    rw [String.toList_append, String.toList_append, List.append_assoc]
    exact Text.cutLast_append (by simp) absent owner.toList
  rw [Report.lastName, Text.cutLastString, cut]
  simp

/-! ## Results and reasons -/

/-- The results of a function are shown like the results of a function type. -/
theorem returnType_shown (named : ps.WellNamed) {results : List (Variable Ty)}
    (good : ∀ v ∈ results, v.type.WellNamed) :
    Shown (fun tag => ∃ v ∈ results, v.type.Tagged tag) (ps.returnType results) := by
  have each : ∀ v ∈ results,
      Shown (fun tag => ∃ v ∈ results, v.type.Tagged tag) (ps.display v.type) :=
    fun v listed => (named.display (good v listed)).mono fun tag tagged => ⟨v, listed, tagged⟩
  rcases results with _ | ⟨v, _ | ⟨w, rest⟩⟩
  · have parentheses : Shown (fun _ => False) ("(" ++ "" ++ ")") :=
      .group (by decide) (.plain (by decide))
    exact parentheses.mono fun _ none => none.elim
  · exact each v List.mem_cons_self
  · refine .group (by decide) (.join .comma fun text shown => ?_)
    obtain ⟨v, listed, rfl⟩ := List.mem_map.1 shown
    exact (each v listed).nested.within

theorem shownReason_unbroken {verdict : Verdict} (line : TypeGraph.Unbroken verdict) :
    '\n' ∉ (Composable.shownReason verdict).toList := by
  rw [Composable.shownReason]
  split
  · simp
  · next unstable =>
    cases verdict with
    | stable reason => exact absurd rfl unstable
    | obstacle o => exact line o List.mem_cons_self
    | combined parts =>
        rw [Verdict.explain, String.toList_intercalate]
        refine Report.not_mem_intercalate (by decide) fun part member => ?_
        simp only [List.map_map, List.mem_map, List.mem_filter] at member
        obtain ⟨o, ⟨listed, -⟩, rfl⟩ := member
        exact line o listed

/-! ## Summaries -/

section
variable {source : MarkerSource} {test : EnumTest} {patterns : List Pattern} {strong : Bool}
  {f : Declared} {s : Summary}

/-- The parameters of a summary, with the types and verdicts that they stand for. -/
theorem parameters_of_analyze
    (found : (Composable.analyze (.plain (ps.graphWith source test) patterns) strong ()
      (ps.describe f.path f.decl f.directives)).1 = .ok s) :
    List.Forall₂ (fun v p => ∃ verdict,
      TypeGraph.classify (ps.graphWith source test) patterns (some v.type) = .ok verdict ∧
      p = ⟨v.name, ps.display v.type, verdict.value, Composable.shownReason verdict⟩)
      f.decl.signature.params s.parameters := by
  obtain ⟨receivers, params, -, each, rfl⟩ := Composable.analyze_plain_iff.1 found
  have shown := Composable.summarize_parameters strong receivers each
  simp only [describe, List.forall₂_map_left_iff] at shown
  exact shown

theorem presentable_parameter (named : ps.WellNamed) {v : Variable Ty}
    (label : v.name = "" ∨ Text.isIdentifier v.name = true) (good : v.type.WellNamed)
    {verdict : Verdict}
    (found : TypeGraph.classify (ps.graphWith source test) patterns (some v.type) = .ok verdict) :
    Report.PresentableParameter
      ⟨v.name, ps.display v.type, verdict.value, Composable.shownReason verdict⟩ where
  named := label
  type_filled := (named.display good).filled
  type_on_line := (named.display good).nested.unbroken
  type_trimmed := (named.display good).trimmed
  stability_named := verdict.value_mem
  reason_on_line := shownReason_unbroken ((named.lined source test).classify_unbroken good found)

/-- What analysis says about a well-named function can be shown in a report. -/
theorem presentable_of_summaryOf (named : ps.WellNamed) (good : f.WellNamed)
    (analyzed : ps.SummaryOf source patterns strong f s) : Report.Presentable s := by
  obtain ⟨test, found⟩ := analyzed
  have params := parameters_of_analyze found
  obtain ⟨receivers, findings, -, -, rfl⟩ := Composable.analyze_plain_iff.1 found
  obtain ⟨owner, word, qualified⟩ := qualifiedName_eq named good
  have whole : Word (ps.qualifiedName f.path f.decl) := by
    rw [qualified]
    exact (word.append word_dot).append (word_of_identifier good.name)
  have no_dot : '.' ∉ f.decl.name.name.toList := fun member =>
    absurd ((Text.identifier_chars good.name).2 '.' member) (by decide)
  have result := returnType_shown named good.results
  exact
    { visibility_word := by
        simp only [Composable.summarize, describe]
        split
        · exact .inl rfl
        · exact .inr rfl
      name_filled := whole.filled
      name_open := fun member => whole.unmarked _ member (by decide)
      name_on_line := fun member => whole.unmarked _ member (by decide)
      name_last := by
        simp only [Composable.summarize, describe, qualified]
        exact (lastName_append no_dot).symm
      result_on_line := result.nested.unbroken
      result_end := fun ends => absurd (result.trimmed.last _ ends) (by decide)
      parameters := fun p listed => by
        obtain ⟨v, given, verdict, classified, rfl⟩ := exists_of_forall₂ params.flip listed
        obtain ⟨label, type⟩ := good.params v given
        exact presentable_parameter named label type classified }

/-- Harmless tags leave a signature legible. -/
theorem legible_of_tagsHarmless (named : ps.WellNamed) (good : f.WellNamed)
    (harmless : f.TagsHarmless) (analyzed : ps.SummaryOf source patterns strong f s) :
    Report.Legible s := by
  obtain ⟨test, found⟩ := analyzed
  have params := parameters_of_analyze found
  obtain ⟨receivers, findings, -, -, rfl⟩ := Composable.analyze_plain_iff.1 found
  constructor
  · refine Report.divided_of_enclosed fun part member => ?_
    obtain ⟨p, listed, rfl⟩ := List.mem_map.1 member
    obtain ⟨v, given, verdict, -, rfl⟩ := exists_of_forall₂ params.flip listed
    exact (named.display (good.params v given).2).nested.enclosed (harmless.params v given)
  · refine ((returnType_shown named good.results).nested.closed ?_).open_end
    rintro tag ⟨v, given, tagged⟩
    exact harmless.results v given tag tagged

theorem qualifiedName_of_summaryOf (analyzed : ps.SummaryOf source patterns strong f s) :
    s.qualifiedName = ps.qualifiedName f.path f.decl := by
  obtain ⟨test, found⟩ := analyzed
  obtain ⟨receivers, findings, -, -, rfl⟩ := Composable.analyze_plain_iff.1 found
  rfl

end

/-- Checking a program against the report just written on it is clean exactly if no signature
misleads its reader, and it is clean if all tags are harmless. -/
theorem clean_iff_legible_signatures (ps : Packages) (named : ps.WellNamed)
    (source : MarkerSource) (patterns : List Pattern) (strong : Bool) (functions : List Declared)
    (good : ∀ f ∈ functions, f.WellNamed)
    (distinct : (functions.map fun f => ps.qualifiedName f.path f.decl).Nodup)
    (summaries : List Summary)
    (analyzed : List.Forall₂ (ps.SummaryOf source patterns strong) functions summaries)
    (fit : ∀ line ∈ Report.lines summaries, Report.byteLength line.toList ≤ Report.lineLimit) :
    (Report.Clean summaries ↔ ∀ s ∈ summaries, Report.Legible s) ∧
      ((∀ f ∈ functions, f.TagsHarmless) → Report.Clean summaries) := by
  have names : summaries.map (·.qualifiedName) =
      functions.map fun f => ps.qualifiedName f.path f.decl := by
    refine List.forall₂_eq_eq_eq ▸ ?_
    rw [List.forall₂_map_left_iff, List.forall₂_map_right_iff]
    exact analyzed.flip.imp fun _ _ here => qualifiedName_of_summaryOf here
  have presentable : ∀ s ∈ summaries, Report.Presentable s := by
    intro s listed
    obtain ⟨f, declared, here⟩ := exists_of_forall₂ analyzed.flip listed
    exact presentable_of_summaryOf named (good f declared) here
  have clean_iff := Report.clean_iff_legible (names ▸ distinct) presentable
    fun s listed line entry => fit line (Report.mem_lines listed entry)
  refine ⟨clean_iff, fun harmless => clean_iff.2 fun s listed => ?_⟩
  obtain ⟨f, declared, here⟩ := exists_of_forall₂ analyzed.flip listed
  exact legible_of_tagsHarmless named (good f declared) (harmless f declared) here

end Packages

/-! ## A tag that misleads -/

namespace Demo

def signature (params : List Ty) : Signature Ty := ⟨params.map (⟨"", ·⟩), [], false⟩

/-- The type of `onChange`: a function of a structure with one field, which has a tag. -/
def onChange (tag : String) : Ty :=
  .func (signature [.struct [⟨"X", .basic "int", tag, false⟩]])

/-- The function `Form(onChange, onClose)`. -/
def form (tag : String) : Declared where
  path := "example.com/ui"
  decl :=
    { name := ⟨0, "Form"⟩
      params := [⟨[⟨0, "onChange"⟩], onChange tag, ⟨0, ""⟩⟩,
        ⟨[⟨0, "onClose"⟩], .func (signature []), ⟨0, ""⟩⟩] }

def program : Packages := [{ path := "example.com/ui", name := "ui" }]

/-- What analysis says about the function. -/
def formSummary (tag : String) : Summary where
  name := "Form"
  qualifiedName := "example.com/ui.Form"
  visibility := "exported"
  returnType := "()"
  restartable := true
  skippable := true
  parameters := [⟨"onChange", program.display (onChange tag), .stable, ""⟩,
    ⟨"onClose", "func()", .stable, ""⟩]

theorem program_wellNamed : program.WellNamed where
  names := by decide
  types := by simp [program]

theorem form_params (tag : String) : (form tag).decl.signature.params =
    [⟨"onChange", onChange tag⟩, ⟨"onClose", .func (signature [])⟩] :=
  rfl

theorem onChange_parts (tag : String) :
    (onChange tag).parts = [.label "", .name "X", .tag tag, .name "int"] :=
  rfl

theorem form_wellNamed (tag : String) : (form tag).WellNamed where
  path := (by decide : isImportPath "example.com/ui" = true)
  name := (by decide : Text.isIdentifier "Form" = true)
  receiver := by simp [form, Source.FuncDecl.receiverType?]
  params := by
    have names : Text.isIdentifier "onChange" = true ∧ Text.isIdentifier "onClose" = true := by
      decide
    have taken : (onChange tag).WellNamed := by
      have others : Text.isIdentifier "X" = true ∧ Text.isIdentifier "int" = true := by decide
      simp [Ty.WellNamed, onChange_parts, Part.wellFormed, others]
    simp only [form_params, List.forall_mem_cons]
    exact ⟨⟨.inr names.1, taken⟩, ⟨.inr names.2, by decide⟩, by simp⟩
  results := by simp [form, Source.FuncDecl.signature]

theorem classify_func (test : Packages.EnumTest) (signature : Signature Ty) :
    TypeGraph.classify (program.graphWith .none test) [] (some (.func signature)) =
      .ok (.stable (program.display (.func signature) ++ " is a function type")) :=
  TypeGraph.classify_function rfl

theorem form_summaryOf (tag : String) :
    program.SummaryOf .none [] false (form tag) (formSummary tag) := by
  let test : Packages.EnumTest := fun _ _ _ => .ok false
  let verdict : Option Ty → Verdict := fun t =>
    .stable ((t.map program.display).getD "" ++ " is a function type")
  let described := program.describe (form tag).path (form tag).decl (form tag).directives
  have classified : ∀ t ∈ Composable.givenTypes described,
      TypeGraph.classify (program.graphWith .none test) [] t = .ok (verdict t) := by
    have given : Composable.givenTypes described =
        [some (onChange tag), some (.func (signature []))] := rfl
    simp only [given, List.forall_mem_cons]
    exact ⟨classify_func test _, classify_func test _, by simp⟩
  have exported : Text.isExported "Form" = true := by decide
  have texts (t : Ty) : (program.graphWith .none test).textOf t = program.display t := rfl
  have closing : program.display (.func (signature [])) = "func()" := rfl
  refine ⟨test, ?_⟩
  rw [Composable.analyze_plain false classified]
  simp [Composable.summaryWith, Composable.summarize, described, verdict, Packages.describe, form,
    formSummary, exported, Packages.qualifiedName, Packages.returnType,
    Packages.receiverTypeName?, Source.FuncDecl.receiverType?, Source.FuncDecl.signature,
    Source.FieldGroup.toVariables, Composable.typeTextOf, texts, closing,
    Composable.shownReason, Verdict.value, exportedText]

theorem form_tagsHarmless {tag : String} (closed : Sealed (Text.quote tag).toList) :
    (form tag).TagsHarmless where
  params := by
    simp only [form_params, List.forall_mem_cons]
    refine ⟨fun other tagged => ?_, fun other tagged => ?_, by simp⟩
    · obtain rfl : other = tag := by simpa [Ty.Tagged, onChange_parts] using tagged
      exact closed
    · have none : (Ty.func (signature [])).parts = [] := rfl
      simp [Ty.Tagged, none] at tagged
  results := by simp [form, Source.FuncDecl.signature]

/-- An opening bracket in a tag makes the check fail; a comma in a tag does not. -/
theorem form_checked :
    program.SummaryOf .none [] false (form "(") (formSummary "(") ∧
      ¬ Report.Clean [formSummary "("] ∧
      Report.Clean [formSummary "json:\"x,omitempty\""] := by
  have analyzed (tag : String) :
      List.Forall₂ (program.SummaryOf .none [] false) [form tag] [formSummary tag] :=
    .cons (form_summaryOf tag) .nil
  have named (tag : String) : ∀ f ∈ [form tag], f.WellNamed := by
    simpa using form_wellNamed tag
  refine ⟨form_summaryOf "(", ?_, ?_⟩
  · rw [(Packages.clean_iff_legible_signatures program program_wellNamed .none [] false [form "("]
      (named _) (by simp) [formSummary "("] (analyzed _) (by decide +kernel)).1]
    decide +kernel
  · refine (Packages.clean_iff_legible_signatures program program_wellNamed .none [] false
      [form "json:\"x,omitempty\""] (named _) (by simp) [formSummary "json:\"x,omitempty\""]
      (analyzed _) (by decide +kernel)).2 ?_
    simpa using form_tagsHarmless (by decide +kernel)

end Demo

end ComposeStability.Program
