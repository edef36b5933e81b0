/-
# Proofs.TypeGraph.Leaf -- verdicts that follow from the kind of a type

A type that is no wrapper and has no parts is classified by its kind, its name and
its markers, whatever else there is in the graph.  One that does not tell its kind
has no verdict.
-/
import ComposeStability.Proofs.TypeGraph.Chart

namespace ComposeStability.TypeGraph

set_option autoImplicit false

section
variable {τ : Type} {g : TypeGraph τ} {patterns : List Pattern} {t : τ} {kind : Kind}
  {markers : Markers}

theorem unwrap_bare (known : g.kind t = .ok kind) (bare : kind ≠ .nullable) :
    unwrap g (g.depth + 1) (some t) = .ok (some t) := by
  simp only [unwrap, known, bind, Except.bind, bare, if_false]
  rfl

/-- A type that does not tell its kind has no verdict. -/
theorem walk_refused {failure : Failure} (refused : g.kind t = .error failure) (fuel : Nat)
    (visiting : List String) : walk g patterns (fuel + 1) visiting (some t) = .error failure := by
  simp only [walk, unwrap, refused, bind, Except.bind]

theorem declaredStable_alone {key : String} (keyed : g.key t = .ok key)
    (marked : g.markers t = .ok markers) (alone : g.supertypes t = .ok []) :
    declaredStable g t = .ok markers.declareStable := by
  rw [declaredStable, searchMarked, marked, keyed, alone]
  cases declared : markers.declareStable with
  | true => simp [bind, Except.bind, pure, Except.pure, declared]
  | false => simp [bind, Except.bind, pure, Except.pure, declared, searchAnyMarked]

/-- A type that nothing is known about but its parts is classified by these. -/
theorem walk_composite {name key : String} (kind : g.kind t = .ok .composite)
    (named : g.name t = .ok name) (keyed : g.key t = .ok key)
    (marked : g.markers t = .ok Flags.empty) (alone : g.supertypes t = .ok [])
    (unlisted : isKnownStable patterns name = false)
    (no_collection : name ∉ immutableCollections ∧ name ∉ mutableCollections) (fuel : Nat)
    (visiting : List String) :
    walk g patterns (fuel + 1) visiting (some t) =
      walkParts g patterns fuel visiting t (.ok []) := by
  have declared : declaredStable g t = .ok false := declaredStable_alone keyed marked alone
  rw [walk, unwrap_bare kind (by decide)]
  simp only [bind, Except.bind, pure, Except.pure, kind, named, unlisted, declared, marked, alone,
    List.contains_iff_mem, no_collection, if_false, Bool.false_eq_true]
  exact if_neg (by decide)

variable [g.Tells]

theorem classify_typeParameter (kind : g.kind t = .ok .typeParameter) :
    classify g patterns (some t) = .ok (.obstacle (.parametric (g.textOf t))) := by
  rw [classify_told, walk, unwrap_bare kind (by decide)]
  simp only [bind, Except.bind, kind, Tells.text]
  rfl

theorem classify_function (kind : g.kind t = .ok .function) :
    classify g patterns (some t) = .ok (.stable (g.textOf t ++ " is a function type")) := by
  rw [classify_told, walk, unwrap_bare kind (by decide)]
  simp only [bind, Except.bind, kind, Tells.text]
  rfl

/-- A primitive type is stable, for whatever reason. -/
theorem classify_primitive (kind : g.kind t = .ok .primitive) (marked : g.markers t = .ok markers)
    (alone : g.supertypes t = .ok []) (no_collection : g.nameOf t ∉ mutableCollections) :
    ∃ reason, classify g patterns (some t) = .ok (.stable reason) := by
  rw [classify_told, walk, unwrap_bare kind (by decide)]
  simp only [bind, Except.bind, pure, Except.pure, kind,
    declaredStable_alone (Tells.key t) marked alone, Tells.name, Tells.text, List.contains_iff_mem, no_collection]
  split
  · exact ⟨_, rfl⟩
  · split
    · exact ⟨_, rfl⟩
    · split <;> exact ⟨_, rfl⟩

/-- The verdict on an interface that embeds none follows from its markers. -/
theorem classify_interface (kind : g.kind t = .ok .interface)
    (marked : g.markers t = .ok markers) (alone : g.supertypes t = .ok [])
    (unlisted : isKnownStable patterns (g.nameOf t) = false)
    (no_collection : g.nameOf t ∉ immutableCollections ∧ g.nameOf t ∉ mutableCollections)
    (unserialized : markers.has .serializable = false) :
    classify g patterns (some t) =
      .ok (if markers.declareStable then .stable (g.textOf t ++ " is declared stable")
        else .unknown (g.textOf t)) := by
  rw [classify_told, walk, unwrap_bare kind (by decide)]
  simp only [bind, Except.bind, pure, Except.pure, kind, unlisted,
    declaredStable_alone (Tells.key t) marked alone, Tells.name, Tells.text, List.contains_iff_mem,
    no_collection, marked, unserialized]
  cases markers.declareStable <;> simp

end

end ComposeStability.TypeGraph
