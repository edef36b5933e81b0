/-
# Proofs.Directive.Effect -- what the valid directives of a doc comment set

Reading a doc comment applies each comment that is a valid directive, in order,
and passes over the others (`readOnFunction_spec`).  So a switch is set exactly
if some comment is the valid directive for it (`ofFunction_has`), and of several
valid traces the last counts (`ofFunction_trace`).
-/
import ComposeStability.Directive

namespace ComposeStability.Directive

set_option autoImplicit false

open Source (Comment)

/-! ## Valid directives -/

/-- Whether a comment is the valid directive for a switch: it has its name, and no arguments. -/
def FunctionFlag.isSetBy (flag : FunctionFlag) (c : Comment) : Bool :=
  match nameAndArguments? c.text with
  | some (name, arguments) => FunctionFlag.ofName? name == some flag && arguments.isEmpty
  | none => false

/-- The trace that a comment asks for, if it is a valid trace directive. -/
def trace? (c : Comment) : Option Trace :=
  match nameAndArguments? c.text with
  | some (name, arguments) =>
      if name = "trace" then (traceOf arguments).toOption.map fun t => { t with pos := c.pos }
      else none
  | none => none

/-- Whether a switch is set. -/
def OnFunction.has (d : OnFunction) : FunctionFlag → Bool
  | .composable => d.composable
  | .nonRestartable => d.nonRestartable
  | .readonly => d.readonly
  | .ignore => d.ignore

theorem OnFunction.has_apply (d : OnFunction) (flag set : FunctionFlag) :
    (set.apply d).has flag = (d.has flag || set == flag) := by
  cases set <;> cases flag <;> simp [FunctionFlag.apply, OnFunction.has]

theorem FunctionFlag.apply_trace (set : FunctionFlag) (d : OnFunction) :
    (set.apply d).trace = d.trace := by
  cases set <;> rfl

/-! ## One comment -/

/-- A comment that is the valid directive for a switch sets it, one that is a valid trace directive
replaces the trace, and no other comment does anything. -/
theorem readOnFunction_spec (acc : OnFunction × List Mistake) (c : Comment) :
    (∀ flag, (readOnFunction acc c).1.has flag = (acc.1.has flag || flag.isSetBy c)) ∧
      (readOnFunction acc c).1.trace = (trace? c).or acc.1.trace := by
  unfold readOnFunction trace? FunctionFlag.isSetBy
  cases nameAndArguments? c.text with
  | none => simp
  | some parts =>
      obtain ⟨name, arguments⟩ := parts
      dsimp only
      cases named : FunctionFlag.ofName? name with
      | some set =>
          have other : name ≠ "trace" := by
            intro same
            rw [same] at named
            cases named
          by_cases bare : arguments.isEmpty
          · simp [functionEffect, named, bare, other, OnFunction.has_apply,
              FunctionFlag.apply_trace]
          · simp [functionEffect, named, bare, other]
      | none =>
          by_cases traced : name = "trace"
          · subst traced
            cases read : traceOf arguments with
            | ok t =>
                refine ⟨fun flag => ?_, ?_⟩
                · cases flag <;> simp [functionEffect, named, read, Except.map, OnFunction.has]
                · simp [functionEffect, named, read, Except.map, Except.toOption]
            | error fault => simp [functionEffect, named, read, Except.map, Except.toOption]
          · by_cases onTypes : (TypeGraph.Marker.ofName? name).isSome
            · simp [functionEffect, named, traced, onTypes]
            · simp [functionEffect, named, traced, onTypes]

/-! ## A doc comment -/

/-- Reading on from what was found so far. -/
theorem foldl_readOnFunction (doc : List Comment) (acc : OnFunction × List Mistake) :
    (∀ flag, (doc.foldl readOnFunction acc).1.has flag =
        (acc.1.has flag || doc.any flag.isSetBy)) ∧
      (doc.foldl readOnFunction acc).1.trace =
        ((doc.filterMap trace?).getLast?).or acc.1.trace := by
  induction doc generalizing acc with
  | nil => simp
  | cons c doc ih =>
      obtain ⟨flags, trace⟩ := readOnFunction_spec acc c
      obtain ⟨laterFlags, laterTrace⟩ := ih (readOnFunction acc c)
      refine ⟨fun flag => ?_, ?_⟩
      · rw [List.foldl_cons, laterFlags, flags, List.any_cons, Bool.or_assoc]
      · rw [List.foldl_cons, laterTrace, trace, List.filterMap_cons]
        cases trace? c with
        | none => simp
        | some t =>
            cases last : (doc.filterMap trace?).getLast? <;> simp [List.getLast?_cons, last]

/-- A switch is set exactly if some comment is the valid directive for it. -/
theorem ofFunction_has (doc : List Comment) (flag : FunctionFlag) :
    (ofFunction doc).1.has flag = doc.any flag.isSetBy := by
  have unset : ({} : OnFunction).has flag = false := by cases flag <;> rfl
  rw [ofFunction, (foldl_readOnFunction doc _).1, unset, Bool.false_or]

/-- The trace is that of the last valid trace directive. -/
theorem ofFunction_trace (doc : List Comment) :
    (ofFunction doc).1.trace = (doc.filterMap trace?).getLast? := by
  rw [ofFunction, (foldl_readOnFunction doc _).2, Option.or_none]

end ComposeStability.Directive
