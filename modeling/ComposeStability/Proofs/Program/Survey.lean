/-
# Proofs.Program.Survey -- the types that a program reaches

A list of types that refer to no type outside is a chart of the type graph, as
soon as the source of markers and the test for enumerations answer
(`Surveyed.charted`).  They need not: what classification says with fewer answers
it says with all of them, so that any verdict is that of a walk that misses no
answer (`Surveyed.answered`).

Only pointers may be empty, and in a program no type is a pointer to itself with
nothing but pointers and aliases in between (`PointersEnd`).
-/
import ComposeStability.Proofs.Program.Aliases
import ComposeStability.Proofs.Program.Answers
import ComposeStability.Proofs.TypeGraph.Reachability
import ComposeStability.Proofs.TypeGraph.Termination
import Mathlib.Logic.Relation

namespace ComposeStability.Program

set_option autoImplicit false

open Relation (TransGen)
open TypeGraph

namespace Packages

variable {ps : Packages} {source : MarkerSource} {test : EnumTest} {depth : Nat}

/-! ## The types that a program reaches -/

/-- The types that a type refers to directly. -/
def neighbours (ps : Packages) (t : Ty) : List Ty :=
  (ps.elemOf t).toList ++ (ps.membersOf t).filterMap (·.type) ++ (ps.supertypesOf t).filterMap id

/-- No type among `nodes` refers to one outside, and different ones have different keys. -/
structure Surveyed (ps : Packages) (nodes : List Ty) : Prop where
  closed : ∀ t ∈ nodes, ps.neighbours t ⊆ nodes
  keys : ∀ t ∈ nodes, ∀ u ∈ nodes, ps.key t = ps.key u → t = u

theorem keys_of_nodup {nodes : List Ty} (nodup : (nodes.map ps.key).Nodup) :
    ∀ t ∈ nodes, ∀ u ∈ nodes, ps.key t = ps.key u → t = u :=
  fun _ member _ member' same => List.inj_on_of_nodup_map nodup member member' same

theorem kindOf_eq {kind : Kind} {t : Ty} (found : ps.kindOf source test t = .ok kind) :
    (ps.graphTo source test depth).kindOf t = kind := by
  have found : (ps.graphTo source test depth).kind t = .ok kind := found
  rw [TypeGraph.kindOf, found]
  rfl

theorem markersOf_eq {markers : Markers} {t : Ty} (found : ps.markersOf source t = .ok markers) :
    (ps.graphTo source test depth).markersOf t = markers := by
  have found : (ps.graphTo source test depth).markers t = .ok markers := found
  rw [TypeGraph.markersOf, found]
  rfl

theorem Surveyed.charted {nodes : List Ty} (surveyed : ps.Surveyed nodes) (answers : source.Answers)
    (tested : test.Answers) (enough : nodes.length ≤ depth) :
    (ps.graphTo source test depth).Charted nodes where
  kind_eq t _ := by
    obtain ⟨kind, found⟩ := kindOf_answers answers tested t
    rw [kindOf_eq found]
    exact found
  markers_eq t _ := by
    obtain ⟨markers, found⟩ := markersOf_answers _ answers t
    rw [markersOf_eq found]
    exact found
  elem_mem t mem u inside := by
    have inside : ps.elemOf t = some u := inside
    exact surveyed.closed t mem (by simp [neighbours, inside])
  member_mem t mem m owned u type :=
    surveyed.closed t mem (by simpa [neighbours] using .inr (.inl ⟨m, owned, type⟩))
  supertype_mem t mem u above :=
    surveyed.closed t mem (by simpa [neighbours] using .inr (.inr above))
  length_le := enough

/-- No type is a pointer to itself with nothing but pointers and aliases in between. -/
def PointersEnd (ps : Packages) : Prop := ∀ t, ¬ TransGen (fun t u => ps.unalias t = .pointer u) t t

theorem namedKind_ne_nullable (path name : String) (args : List Ty) :
    ps.namedKind source test path name args ≠ .ok .nullable := by
  intro kind
  obtain ⟨markers, -, kind⟩ := bind_eq_ok.1 kind
  split at kind
  · cases kind
  split at kind
  · cases kind
  split at kind <;> try cases kind
  · split at kind <;> cases kind
  · obtain ⟨enum, -, kind⟩ := bind_eq_ok.1 kind
    split at kind <;> cases kind

/-- Only pointers may be empty. -/
theorem kindOf_nullable {t : Ty} (kind : ps.kindOf source test t = .ok .nullable) :
    ∃ elem, ps.unalias t = .pointer elem := by
  unfold kindOf at kind
  split at kind <;> try cases kind; done
  · exact ⟨_, ‹_›⟩
  · exact absurd kind (namedKind_ne_nullable _ _ _)

theorem PointersEnd.wrappersEnd (ends : ps.PointersEnd) (answers : source.Answers)
    (tested : test.Answers) : (ps.graphTo source test depth).WrappersEnd := by
  intro t cycle
  refine ends t (TransGen.mono (fun t u step => ?_) t t cycle)
  obtain ⟨wrapper, inside⟩ := step
  obtain ⟨kind, found⟩ := kindOf_answers answers tested t
  rw [kindOf_eq found] at wrapper
  subst wrapper
  obtain ⟨elem, pointer⟩ := kindOf_nullable found
  have inside : ps.elemOf t = some u := inside
  rw [elemOf, pointer] at inside
  rw [pointer, Option.some.inj inside]

theorem unalias_named (path name : String) (args : List Ty) :
    ps.unalias (.named path name args) = .named path name args ∨
      (path, name) ∈ ps.declaredNames := by
  rw [unalias, unaliasFrom]
  split
  · next means => exact .inr (mem_declaredNames means)
  · exact .inl rfl

/-- A bound on the pointers that are met from a type one behind the other, given one for declared
types. -/
def pointersBelow (behind : String × String → Nat) : Ty → Nat
  | .pointer elem => pointersBelow behind elem + 1
  | .named path name _ => behind (path, name)
  | _ => 0

/-- Pointers end if fewer of them are met from what a declared type points to than from itself. -/
theorem pointersEnd_of_declared (behind : String × String → Nat)
    (fewer : ∀ entry ∈ ps.declaredNames, ∀ args u,
      ps.unalias (.named entry.1 entry.2 args) = .pointer u →
        pointersBelow behind u < behind entry) : ps.PointersEnd := by
  have falls : ∀ t u, ps.unalias t = .pointer u →
      pointersBelow behind u < pointersBelow behind t := by
    intro t u points
    cases t with
    | pointer elem =>
        cases points
        exact Nat.lt_succ_self _
    | named path name args =>
        rcases ps.unalias_named path name args with own | declared
        · cases own.symm.trans points
        · exact fewer (path, name) declared args u points
    | _ => cases points
  have lower : ∀ t u, TransGen (fun t u => ps.unalias t = .pointer u) t u →
      pointersBelow behind u < pointersBelow behind t := by
    intro t u met
    induction met with
    | single points => exact falls _ _ points
    | tail _ points ih => exact Nat.lt_trans (falls _ _ points) ih
  exact fun t cycle => Nat.lt_irrefl _ (lower t t cycle)

/-! ## Verdicts -/

variable {patterns : List Pattern} {t : Ty}

/-- What classification says about a type, with whatever answers, is said by a walk that gets all
its answers. -/
theorem Surveyed.answered {nodes : List Ty} (surveyed : ps.Surveyed nodes) (ends : ps.PointersEnd)
    (member : t ∈ nodes) {verdict : Stability.Verdict}
    (found : classify (ps.graphTo source test depth) patterns (some t) = .ok verdict) :
    ∃ start,
      (ps.graphTo source.steady test.steady (max depth nodes.length)).Unwraps (some t) start ∧
      (ps.graphTo source.steady test.steady (max depth nodes.length)).Answered patterns [] start
        verdict.value := by
  have chart : (ps.graphTo source.steady test.steady (max depth nodes.length)).Charted nodes :=
    surveyed.charted source.steady_answers test.steady_answers (Nat.le_max_right ..)
  have stays : classify (ps.graphTo source.steady test.steady (max depth nodes.length)) patterns
      (some t) = .ok verdict :=
    (graphTo_extends (Nat.le_max_left ..)).classify (some t) verdict found
  obtain ⟨start, verdict', behind, found', answered⟩ :=
    classify_answered chart surveyed.keys
      (ends.wrappersEnd source.steady_answers test.steady_answers)
      fun _ same => Option.some.inj same ▸ member
  cases found'.symm.trans stays
  exact ⟨start, behind, answered⟩

theorem Surveyed.returns {nodes : List Ty} (surveyed : ps.Surveyed nodes) (ends : ps.PointersEnd)
    (answers : source.Answers) (tested : test.Answers) (enough : nodes.length ≤ depth)
    (member : t ∈ nodes) :
    ∃ verdict, classify (ps.graphTo source test depth) patterns (some t) = .ok verdict :=
  classify_returns (surveyed.charted answers tested enough) (ends.wrappersEnd answers tested)
    fun _ same => Option.some.inj same ▸ member

end Packages

end ComposeStability.Program
