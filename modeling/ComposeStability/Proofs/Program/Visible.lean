/-
# Proofs.Program.Visible -- what a package sees of other packages

A package sees the packages that it imports, and what these see in turn
(`Packages.Sees`).  In a type-checked program a declaration mentions only what
its package sees (`Packages.TypesSeen`), so classification never leaves what is
seen (`TypesSeen.closed`): two sources of markers that agree on the types of the
packages that are seen cannot be told apart from there (`Closed.matching`).
-/
import ComposeStability.Proofs.Program.Parts
import ComposeStability.Proofs.TypeGraph.Look
import Mathlib.Logic.Relation

namespace ComposeStability.Program

set_option autoImplicit false

open TypeGraph (Failure Matching)

namespace Packages

variable {ps : Packages} {P : Part → Prop}

/-! ## Imports -/

/-- A package imports another. -/
def Imports (ps : Packages) (path other : String) : Prop :=
  ∃ p, ps.find? path = some p ∧ other ∈ p.imports

/-- A package sees itself, what it imports directly or not, and what the language declares. -/
def Sees (ps : Packages) (path other : String) : Prop :=
  other = "" ∨ Relation.ReflTransGen ps.Imports path other

theorem Sees.refl (path : String) : ps.Sees path path := .inr .refl

theorem Sees.trans {path between other : String} (first : ps.Sees path between)
    (later : ps.Sees between other) (named : between ≠ "") : ps.Sees path other := by
  rcases later with empty | onward
  · exact .inl empty
  · rcases first with empty | start
    · exact absurd empty named
    · exact .inr (start.trans onward)

/-- A part of a type mentions no package that is not seen. -/
def SeenPart (ps : Packages) (path : String) : Part → Prop
  | .path other => ps.Sees path other
  | _ => True

/-- A type mentions only packages that are seen. -/
def SeenType (ps : Packages) (path : String) (t : Ty) : Prop := t.All (ps.SeenPart path)

/-- Declared types mention only what their packages see. -/
def TypesSeen (ps : Packages) : Prop :=
  ∀ path p, ps.find? path = some p → ∀ d ∈ p.types, d.meaning.All (ps.SeenPart path)

theorem predeclared_all {name : String} {meaning : Meaning} (path : String)
    (found : predeclared name = some meaning) : meaning.All (ps.SeenPart path) := by
  unfold predeclared at found
  split at found
  · obtain rfl := Option.some.inj found
    intro part member
    obtain rfl | rfl | rfl : part = .name "Error" ∨ part = .label "" ∨ part = .name "string" := by
      simpa [Ty.parts, Ty.methodParts, Ty.signatureParts, Ty.variableParts, Ty.partsOfAll]
        using member
    all_goals trivial
  · obtain rfl := Option.some.inj found
    exact fun part member => absurd member (by simp [Ty.parts])
  · cases found

/-- Classification never leaves what a package sees. -/
theorem TypesSeen.closed (seen : ps.TypesSeen) (path : String) : ps.Closed (ps.SeenPart path) := by
  intro other name meaning visible found
  rw [meaning?] at found
  split at found
  · exact predeclared_all path found
  · next named =>
    obtain ⟨d, listed, rfl⟩ := Option.map_eq_some_iff.1 found
    obtain ⟨p, package, declared⟩ := Option.bind_eq_some_iff.1 listed
    refine Meaning.All.mono (fun part good => ?_)
      (seen other p package d (List.mem_of_find?_eq_some declared))
    cases part with
    | path last => exact Sees.trans visible good (by simpa using named)
    | _ => trivial

/-! ## Sources that agree -/

/-- Types are matched with themselves if the sources agree on everything that they lead to. -/
theorem Closed.matching (closed : ps.Closed P) {source source' : MarkerSource}
    (agree : ∀ path name, P (.path path) → source path name = source' path name) :
    Matching (ps.graph source) (ps.graph source') fun t t' => t = t' ∧ t.All P where
  depth := rfl
  key := by
    rintro t _ ⟨rfl, -⟩
    rfl
  kind := by
    rintro t _ ⟨rfl, good⟩
    have shown := closed.unalias good
    show ps.kindOf source _ t = ps.kindOf source' _ t
    unfold kindOf
    split <;> try rfl
    next path name args same =>
    rw [same] at shown
    simp only [namedKind, agree path name (shown _ List.mem_cons_self)]
  name := by
    rintro t _ ⟨rfl, -⟩
    rfl
  text := by
    rintro t _ ⟨rfl, -⟩
    rfl
  markers := by
    rintro t _ ⟨rfl, good⟩
    have shown := closed.unalias good
    show ps.markersOf source t = ps.markersOf source' t
    unfold markersOf
    split
    · next path name _ same =>
      rw [same] at shown
      exact agree path name (shown _ List.mem_cons_self)
    · rfl
  elem := by
    rintro t _ ⟨rfl, good⟩
    refine .ok ?_
    cases inside : ps.elemOf t with
    | none => exact .none
    | some u => exact .some ⟨rfl, closed.elemOf good inside⟩
  members := by
    rintro t _ ⟨rfl, good⟩
    refine .ok (List.forall₂_same.2 fun m member => ⟨rfl, rfl, ?_⟩)
    have type := (closed.membersOf good m member).2
    cases found : m.type with
    | none => exact .none
    | some u => exact .some ⟨rfl, type u found⟩
  supertypes := by
    rintro t _ ⟨rfl, good⟩
    refine .ok (List.forall₂_same.2 fun above member => ?_)
    cases above with
    | none => exact .none
    | some u => exact .some ⟨rfl, closed.supertypesOf good member⟩

end Packages

end ComposeStability.Program
