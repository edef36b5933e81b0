/-
# Proofs.Directive.Reading -- what is wrong with a doc comment

Reading a doc comment goes on after a mistake: there is one mistake for each
comment that is an invalid directive, in order, and it is about that comment
alone (`ofFunction_mistakes`, `ofType_mistakes`).  None of them is that a trace
stands on a function that is not composable, which a comment does not show
(`mistake_apparent`).
-/
import ComposeStability.Directive

namespace ComposeStability.Directive

set_option autoImplicit false

open Source (Pos Comment)

/-! ## Mistakes by comment -/

section
variable {α β γ : Type}

/-- What is wrong with a comment, if it is a directive that `read` refuses. -/
def mistake? (read : String → String → Except Fault α) (c : Comment) : Option Mistake :=
  (nameAndArguments? c.text).bind fun (name, arguments) =>
    match read name arguments with
    | .ok _ => none
    | .error fault => some ⟨c, fault⟩

/-- What is wrong with a comment of a function. -/
def mistakeOnFunction? (c : Comment) : Option Mistake := mistake? (functionEffect c.pos) c

/-- What is wrong with a comment of a type. -/
def mistakeOnType? (c : Comment) : Option Mistake := mistake? typeMarker c

/-- A reader that adds what it finds in each item finds what is in all of them. -/
theorem foldl_found {read : β × List γ → α → β × List γ} {found? : α → Option γ}
    (adds : ∀ acc a, (read acc a).2 = acc.2 ++ (found? a).toList) (items : List α)
    (start : β × List γ) : (items.foldl read start).2 = start.2 ++ items.filterMap found? := by
  induction items generalizing start with
  | nil => simp
  | cons a items ih =>
      rw [List.foldl_cons, ih, adds, List.filterMap_cons]
      cases found? a <;> simp

theorem ofFunction_mistakes (doc : List Comment) :
    (ofFunction doc).2 = doc.filterMap mistakeOnFunction? := by
  refine foldl_found (fun acc c => ?_) doc _
  unfold readOnFunction mistakeOnFunction? mistake?
  cases nameAndArguments? c.text with
  | none => simp
  | some parts =>
      dsimp only [Option.bind_some]
      cases functionEffect c.pos parts.1 parts.2 <;> simp

theorem ofType_mistakes (doc : List Comment) :
    (ofType doc).2 = doc.filterMap mistakeOnType? := by
  refine foldl_found (fun acc c => ?_) doc _
  unfold readOnType mistakeOnType? mistake?
  cases nameAndArguments? c.text with
  | none => simp
  | some parts =>
      dsimp only [Option.bind_some]
      cases typeMarker parts.1 parts.2 <;> simp

/-- A mistake is one that the reader of its comment makes out. -/
theorem fault_of_mistake {read : String → String → Except Fault α} {c : Comment} {m : Mistake}
    (found : mistake? read c = some m) :
    ∃ name arguments, read name arguments = .error m.fault := by
  obtain ⟨⟨name, arguments⟩, -, refused⟩ := Option.bind_eq_some_iff.1 found
  refine ⟨name, arguments, ?_⟩
  dsimp only at refused
  split at refused
  · cases refused
  · next fault failed =>
      obtain rfl := Option.some.inj refused
      exact failed

end

/-! ## Causes -/

/-- The outcome is not that a trace stands on a function that is not composable. -/
def Apparent {α : Type} (outcome : Except Fault α) : Prop := outcome ≠ .error .traceNotComposable

theorem Apparent.map {α β : Type} {x : Except Fault α} (apparent : Apparent x) (f : α → β) :
    Apparent (x.map f) := by
  cases x with
  | ok a => nofun
  | error fault => exact fun same => apparent (congrArg _ (Except.error.inj same))

theorem tagOf_apparent (value : String) : Apparent (tagOf value) := by
  unfold tagOf
  split
  · split <;> nofun
  · nofun

theorem thresholdOf_apparent (value : String) : Apparent (thresholdOf value) := by
  unfold thresholdOf
  split
  · split <;> nofun
  · nofun

theorem addArgument_apparent (t : Trace) (argument : String) :
    Apparent (addArgument t argument) := by
  unfold addArgument
  split
  · nofun
  · exact (tagOf_apparent _).map _
  · exact (thresholdOf_apparent _).map _
  · nofun

theorem traceOf_apparent (arguments : String) : Apparent (traceOf arguments) := by
  unfold traceOf
  generalize Text.fields arguments = fields
  generalize ({} : Trace) = t
  induction fields generalizing t with
  | nil => nofun
  | cons field fields ih =>
      have first := addArgument_apparent t field
      rw [List.foldlM_cons]
      cases added : addArgument t field with
      | error fault =>
          rw [added] at first
          exact fun same => first (congrArg _ (Except.error.inj same))
      | ok t' => exact ih t'

theorem functionEffect_apparent (pos : Pos) (name arguments : String) :
    Apparent (functionEffect pos name arguments) := by
  unfold functionEffect
  split
  · split <;> nofun
  · split
    · exact (traceOf_apparent arguments).map _
    · split <;> nofun

theorem typeMarker_apparent (name arguments : String) : Apparent (typeMarker name arguments) := by
  unfold typeMarker
  split
  · split <;> nofun
  · split <;> nofun

/-- A comment shows no function that is not composable. -/
theorem mistake_apparent {α : Type} {read : String → String → Except Fault α}
    (apparent : ∀ name arguments, Apparent (read name arguments)) {c : Comment} {m : Mistake}
    (found : mistake? read c = some m) : m.fault ≠ .traceNotComposable := by
  obtain ⟨name, arguments, failed⟩ := fault_of_mistake found
  exact fun same => apparent name arguments (same ▸ failed)

theorem ofFunction_apparent {doc : List Comment} {m : Mistake} (mem : m ∈ (ofFunction doc).2) :
    m.fault ≠ .traceNotComposable := by
  rw [ofFunction_mistakes] at mem
  obtain ⟨c, -, found⟩ := List.mem_filterMap.1 mem
  exact mistake_apparent (functionEffect_apparent c.pos) found

theorem ofType_apparent {doc : List Comment} {m : Mistake} (mem : m ∈ (ofType doc).2) :
    m.fault ≠ .traceNotComposable := by
  rw [ofType_mistakes] at mem
  obtain ⟨c, -, found⟩ := List.mem_filterMap.1 mem
  exact mistake_apparent typeMarker_apparent found

end ComposeStability.Directive
