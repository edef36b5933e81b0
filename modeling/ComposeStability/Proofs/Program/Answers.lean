/-
# Proofs.Program.Answers -- what the types of a program answer

The kind and the markers of a type depend on a source of markers, and on a test
for enumerations, which may have no answer.  Everything else the types of a
program tell (`Tells`).  Where the source and the test have no answer, one can be
put in their place, and the graph with these answers extends every other
(`graphTo_extends`).
-/
import ComposeStability.Program.TypeView
import ComposeStability.Proofs.TypeGraph.Chart
import ComposeStability.Proofs.TypeGraph.Extension

namespace ComposeStability.Program

set_option autoImplicit false

open TypeGraph

/-! ## Sources and tests that answer -/

namespace MarkerSource

/-- A source answers for every type. -/
def Answers (source : MarkerSource) : Prop := ∀ path name, ∃ markers, source path name = .ok markers

/-- A source with no markers where there was no answer. -/
def steady (source : MarkerSource) : MarkerSource := fun path name =>
  answerOr Flags.empty (source path name)

theorem steady_answers (source : MarkerSource) : source.steady.Answers :=
  fun _ _ => answerOr_answers _ _

end MarkerSource

namespace Packages

namespace EnumTest

/-- A test answers for every type. -/
def Answers (test : EnumTest) : Prop := ∀ path name args, ∃ enum, test path name args = .ok enum

/-- A test by which a type is no enumeration where there was no answer. -/
def steady (test : EnumTest) : EnumTest := fun path name args =>
  answerOr false (test path name args)

theorem steady_answers (test : EnumTest) : test.steady.Answers :=
  fun _ _ _ => answerOr_answers _ _

end EnumTest

/-- The type graph of a program, deep enough for so many types. -/
def graphTo (ps : Packages) (source : MarkerSource) (test : EnumTest) (depth : Nat) :
    TypeGraph Ty :=
  { ps.graphWith source test with depth := depth }

variable {ps : Packages} {source : MarkerSource} {test : EnumTest} {depth depth' : Nat}

/-! ## Questions that types of a program answer -/

instance : (ps.graphTo source test depth).Tells where
  key _ := rfl
  name _ := rfl
  text _ := rfl
  elem _ := rfl
  members _ := rfl
  supertypes _ := rfl

instance : (ps.graphWith source test).Tells where
  key _ := rfl
  name _ := rfl
  text _ := rfl
  elem _ := rfl
  members _ := rfl
  supertypes _ := rfl

instance : (ps.graph source).Tells :=
  inferInstanceAs (ps.graphWith source _).Tells

/-! ## Questions that may be refused -/

theorem kindOf_stays (ps : Packages) (source : MarkerSource) (test : EnumTest) (t : Ty) :
    Stays (ps.kindOf source test t) (ps.kindOf source.steady test.steady t) := by
  unfold kindOf
  split <;> try exact .refl _
  refine (stays_answerOr _ _).bind fun markers => .ite (.refl _) (.ite (.refl _) ?_)
  split <;> try exact .refl _
  exact (stays_answerOr _ _).bind fun enum => .refl _

theorem markersOf_stays (ps : Packages) (source : MarkerSource) (t : Ty) :
    Stays (ps.markersOf source t) (ps.markersOf source.steady t) := by
  unfold markersOf
  split
  · exact stays_answerOr _ _
  · exact .refl _

/-- The graph of a source and a test that answer extends every graph of those that need not. -/
theorem graphTo_extends (more : depth ≤ depth') :
    Extends (ps.graphTo source test depth) (ps.graphTo source.steady test.steady depth') where
  kind := ps.kindOf_stays source test
  markers := ps.markersOf_stays source
  key _ := rfl
  name _ := rfl
  text _ := rfl
  elem _ := rfl
  members _ := rfl
  supertypes _ := rfl
  depth := more

theorem kindOf_answers (answers : source.Answers) (tested : test.Answers) (t : Ty) :
    ∃ kind, ps.kindOf source test t = .ok kind := by
  unfold kindOf
  split <;> try exact ⟨_, rfl⟩
  next path name args _ =>
  obtain ⟨markers, marked⟩ := answers path name
  obtain ⟨enum, decided⟩ := tested path name args
  simp only [namedKind, marked, bind, Except.bind]
  split
  · exact ⟨_, rfl⟩
  split
  · exact ⟨_, rfl⟩
  split <;> try exact ⟨_, rfl⟩
  exact ⟨_, by rw [decided]; rfl⟩

theorem markersOf_answers (ps : Packages) (answers : source.Answers) (t : Ty) :
    ∃ markers, ps.markersOf source t = .ok markers := by
  unfold markersOf
  split
  · exact answers _ _
  · exact ⟨_, rfl⟩

end Packages

end ComposeStability.Program
