/-
# Proofs.Instrument.FreshNames -- how names are chosen for what is added

Two names are chosen: one for the tracker of a function, which no identifier of
the function has, and one for the runtime in a file that has no use for its
imports.  Both are found by trying the name itself, then with 1 behind it, then
with 2, and so on.  Nothing bounds the search, but it ends after at most one try
more than there are names in use, with the first candidate that is not one of
them (`fresh_names_found`).
-/
import ComposeStability.Proofs.Instrument.Imports
import ComposeStability.Proofs.Instrument.Injection

namespace ComposeStability.Instrument

set_option autoImplicit false

open Source (File FuncDecl)
open Text (FirstFree Trial Tries)

/-- A search for a free name ends, after at most one try more than there are different names in use,
with the first candidate that is not in use. -/
def SearchEnds (base : String) (used : List String) (name : String) : Prop :=
  FirstFree base used name ∧
    ∃ tries ≤ used.dedup.length + 1, Tries base used (.start base) tries name

theorem searchEnds_freshName (base : String) (used : List String) :
    SearchEnds base used (Text.freshName base used) :=
  have first := Text.freshName_firstFree base used
  ⟨first, first.tries⟩

/-- The search for any name, whatever is in use, ends in one way and with the first free candidate.
The tracker of a function that gets one has the name that such a search ends with, and so does the
runtime in a file in which no import of it can be used. -/
theorem fresh_names_found :
    (∀ (base : String) (used : List String), ∃ name, SearchEnds base used name ∧
      ∀ tries other, Tries base used (.start base) tries other →
        other = name ∧ tries ≤ used.dedup.length + 1) ∧
    (∀ (f : FuncDecl) (name : String) (tag : List UInt8) (threshold : Int) (params : List Param)
      (s : Symbols) (g : FuncDecl), inject f name tag threshold params s = some g →
      ∃ holder rest, SearchEnds trackerVariable f.idents holder ∧
        g.body = some (acquireStatement s holder name tag threshold :: rest)) ∧
    ∀ (f : File) (functions : List FuncDecl) (s : Symbols) (taken : List String),
      findImport s.path (functions.flatMap (·.signatureNames)) f.imports = .error taken →
      SearchEnds s.package (namesInUse f functions) (importName f functions s) := by
  refine ⟨fun base used => ?_, fun f name tag threshold params s g made => ?_,
    fun f functions s taken missing => ?_⟩
  · refine ⟨_, searchEnds_freshName base used, fun tries other found => ?_⟩
    obtain ⟨-, least, bound, first⟩ := searchEnds_freshName base used
    obtain ⟨rfl, rfl⟩ := first.unique found
    exact ⟨rfl, bound⟩
  · obtain ⟨body, tracked, -, -, -, rfl⟩ := inject_eq_some made
    exact ⟨_, _, searchEnds_freshName trackerVariable f.idents, rfl⟩
  · have chosen : importName f functions s = Text.freshName s.package (namesInUse f functions) := by
      rw [importName, missing, findImport_error missing, namesInUse]
    rw [chosen]
    exact searchEnds_freshName s.package _

/-- A function that uses the names of two trackers. -/
def nested : FuncDecl where
  name := { name := "Nested" }
  body := some [.ofCode "_recomposeTracker1.show(_recomposeTracker)"]

/-- A file that declares the names of two runtimes, the first of which ends in a digit. -/
def versions : File where
  name := "ui.go"
  base := 1
  size := 80
  lines := []
  packageName := "ui"
  package := 1
  decls := [.values ["recompose2", "recompose21"], .func nested]

/-- The next number is put behind the name, also where it ends in one. -/
theorem nested_names :
    (∃ g rest, inject nested "ui.Nested" [] 1 [] Symbols.runtime = some g ∧
      g.body = some (acquireStatement Symbols.runtime "_recomposeTracker2" "ui.Nested" [] 1 ::
        rest)) ∧
      importName versions [nested] { Symbols.runtime with package := "recompose2" } =
        "recompose22" := by
  obtain ⟨-, trackers, imports⟩ := fresh_names_found
  have fit : ¬ Unfit nested 1 [] Symbols.runtime := by
    simp [Unfit, nested, Symbols.isValid, Symbols.runtime]
  obtain ⟨g, made⟩ := Option.ne_none_iff_exists'.1 ((inject_eq_none_iff "ui.Nested" []).not.2 fit)
  constructor
  · obtain ⟨holder, rest, ⟨first, -⟩, written⟩ := trackers _ _ _ _ _ _ _ made
    have named : holder = "_recomposeTracker2" :=
      (Text.firstFree_iff.1 first).trans (by decide)
    rw [named] at written
    exact ⟨g, rest, made, written⟩
  · obtain ⟨first, -⟩ := imports versions [nested]
      { Symbols.runtime with package := "recompose2" } [] rfl
    exact (Text.firstFree_iff.1 first).trans (by decide)

end ComposeStability.Instrument
