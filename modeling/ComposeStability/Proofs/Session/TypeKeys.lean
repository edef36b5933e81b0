/-
# Proofs.Session.TypeKeys -- the key of a type is enough

The memory of a session finds verdicts by the keys of types alone.  All types that
can be written have keys of their own, also where a type parameter hides a
predeclared type.  So a session classifies as without a memory (`memory_right`).
-/
import ComposeStability.Proofs.Program.Answers
import ComposeStability.Proofs.Program.TypeKeys
import ComposeStability.Proofs.Session.Memory
import ComposeStability.Proofs.TypeGraph.Leaf

namespace ComposeStability.Session

set_option autoImplicit false

open Program (Ty Packages MarkerSource)
open Stability (Verdict)
open TypeGraph (Failure)

/-! ## One call after the other -/

section
variable {μ φ : Type} [Store μ String Verdict]

/-- What a session answers about types, one after the other. -/
def State.classifyEach (s : State μ φ) (ps : Packages) (source : MarkerSource) :
    List Ty → List (Except Failure Verdict)
  | [] => []
  | t :: ts => (s.classify ps source t).1 :: (s.classify ps source t).2.classifyEach ps source ts

variable {s : State μ φ} {ps : Packages} {source : MarkerSource} {t u : Ty}

/-- The verdicts on some types, by their keys. -/
def verdictsOn (types : Ty → Prop) (o : Options) (ps : Packages) (source : MarkerSource) :
    Expectation where
  verdict key verdict := ∃ t, types t ∧ ps.key t = key ∧
    TypeGraph.classify (ps.graph source) o.stableTypes (some t) = .ok verdict
  summary _ _ _ := False

theorem KeysTell.covers {types : Ty → Prop} (tell : KeysTell ps types) {o : Options}
    (among : types t) : (verdictsOn types o ps source).CoversType o ps source t := by
  intro verdict
  constructor
  · rintro ⟨u, other, same, right⟩
    rwa [tell u t other among same] at right
  · exact fun right => ⟨t, among, rfl, right⟩

/-- Where keys tell types apart, a session that was given the right verdicts answers each call as
without a memory. -/
theorem KeysTell.classifyEach_eq {types : Ty → Prop} (tell : KeysTell ps types)
    (holds : Store.Holds ((verdictsOn types s.options ps source).Verdicts s.version) s.verdicts)
    {ts : List Ty} (among : ∀ t ∈ ts, types t) :
    s.classifyEach ps source ts = ts.map fun t =>
      TypeGraph.classify (ps.graph source) s.options.stableTypes (some t) := by
  induction ts generalizing s with
  | nil => rfl
  | cons t ts ih =>
      rw [List.forall_mem_cons] at among
      have covers : (verdictsOn types s.options ps source).CoversType s.options ps source t :=
        tell.covers among.1
      obtain ⟨answer, kept⟩ := classifyMemo_spec (t := some t) holds
        fun u same => Option.some.inj same ▸ covers
      rw [State.classifyEach, List.map_cons, ← answer]
      exact congrArg _ (ih (s := (s.classify ps source t).2) kept among.2)

end

/-! ## Sessions -/

section
variable {ps : Packages}

theorem keysTell_legible (params : ps.ParamsNamed) : KeysTell ps Ty.Legible :=
  fun _ _ legible legible' => Program.key_inj params legible legible'

/-- The memory of a session is right about all types that can be written, whatever the names of type
parameters: keys tell types apart, so types with the same key have the same verdict, and what a
session answers about types, one after the other, is what classification without a memory gives. -/
theorem memory_right (params : ps.ParamsNamed) :
    KeysTell ps Ty.Legible ∧
    (∀ (source : MarkerSource) (patterns : List TypeGraph.Pattern) (t u : Ty),
      t.Legible → u.Legible → ps.key t = ps.key u →
        TypeGraph.classify (ps.graph source) patterns (some t) =
          TypeGraph.classify (ps.graph source) patterns (some u)) ∧
    ∀ {μ φ : Type} [Store μ String Verdict] (s : State μ φ) (source : MarkerSource) (ts : List Ty),
      Store.Blank s.verdicts → (∀ t ∈ ts, t.Legible) →
        s.classifyEach ps source ts = ts.map fun t =>
          TypeGraph.classify (ps.graph source) s.options.stableTypes (some t) := by
  have tell := keysTell_legible params
  refine ⟨tell, fun source patterns t u legible legible' same => ?_,
    fun s source ts blank legible => tell.classifyEach_eq blank.holds legible⟩
  rw [tell t u legible legible' same]

end

namespace Demo

/-- A package with a generic type. -/
def boxes : Packages :=
  [{ path := "ex/box", name := "box",
     types := [⟨"Box", .defined ["int"] (.struct [⟨"Value", .typeParam "int", "", false⟩]) []⟩] }]

/-- A type parameter may be called `int`.  After it, a session still knows the integers. -/
theorem shadowed_int_told :
    boxes.ParamsNamed ∧ (Ty.typeParam "int").Legible ∧ (Ty.basic "int").Legible ∧
      boxes.key (.typeParam "int") = "int/* type parameter */" ∧
      boxes.key (.basic "int") = "int" ∧
      ((State.new .bounded {}).classifyEach boxes .none [.typeParam "int", .basic "int"]).map
        (·.map Verdict.value) = [.ok .runtime, .ok .stable] := by
  have box : (Program.Meaning.defined ["int"] (.struct [⟨"Value", .typeParam "int", "", false⟩])
      []).WellNamed := ⟨by decide, by decide⟩
  have named : boxes.WellNamed := ⟨by decide, by simpa [boxes] using box⟩
  have param : (Ty.typeParam "int").Legible :=
    .leaf (by decide : Text.isIdentifier "int" = true) rfl
  have basic : (Ty.basic "int").Legible := .leaf (by decide : "int" ∈ Program.basicNames) rfl
  have runtime : TypeGraph.classify (boxes.graph .none) [] (some (.typeParam "int")) =
      .ok (.obstacle (.parametric "int/* type parameter */")) := TypeGraph.classify_typeParameter rfl
  obtain ⟨reason, stable⟩ : ∃ reason,
      TypeGraph.classify (boxes.graph .none) [] (some (.basic "int")) = .ok (.stable reason) :=
    TypeGraph.classify_primitive rfl rfl rfl (Program.basic_not_mutable (by decide))
  refine ⟨named.params, param, basic, by decide, rfl, ?_⟩
  rw [(memory_right named.params).2.2 (State.new .bounded {}) .none [.typeParam "int", .basic "int"]
    (Recency.empty_blank _) (by simp [param, basic])]
  have options : (State.new .bounded {}).options.stableTypes = [] := rfl
  simp only [List.map_cons, List.map_nil, options, runtime, stable]
  rfl

end Demo

end ComposeStability.Session
