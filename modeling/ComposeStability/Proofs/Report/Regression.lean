/-
# Proofs.Report.Regression -- which regressions a comparison reports

A function regresses if it can no longer be restarted or skipped, or if one of
its parameters is no longer stable (`Regressed`).  Comparing parameters stops
at the first that differs in any way, so a loss of stability is reported only
if nothing before it has changed (`reported_iff`): a parameter whose stability
changed in another way hides a loss behind it, and a loss is reported although
a later parameter was replaced.  Apart from these two cases (`Masked`) the
reported regressions are the regressions.
-/
import ComposeStability.Command.Run
import ComposeStability.Proofs.Text.SortedNames
import Mathlib.Data.List.Forall2
import Mathlib.Data.List.Nodup

namespace ComposeStability.Report

set_option autoImplicit false

open Stability (Summary Parameter)

/-! ## Changes of one function -/

/-- A parameter stands for the one at its place in the other report. -/
def SameParameter (old cur : Parameter) : Prop := old.name = cur.name ∧ old.type = cur.type

/-- The parameter is no longer stable. -/
def LostStability (old cur : Parameter) : Prop :=
  old.stability = .stable ∧ cur.stability ≠ .stable

def LostRestartable (old cur : Summary) : Prop := old.restartable = true ∧ cur.restartable = false

def LostSkippable (old cur : Summary) : Prop := old.skippable = true ∧ cur.skippable = false

def BecameSkippable (old cur : Summary) : Prop := old.skippable = false ∧ cur.skippable = true

/-- Position by position the parameters are the same, and one of them is no longer stable. -/
def ParameterLost (olds curs : List Parameter) : Prop :=
  List.Forall₂ SameParameter olds curs ∧ ∃ pair ∈ olds.zip curs, LostStability pair.1 pair.2

/-- The function got worse. -/
def Regressed (old cur : Summary) : Prop :=
  LostRestartable old cur ∨ LostSkippable old cur ∨
    ParameterLost old.parameters cur.parameters ∧ ¬ BecameSkippable old cur

/-- The parameter has not changed. -/
def Unchanged (old cur : Parameter) : Prop :=
  SameParameter old cur ∧ old.stability = cur.stability

/-- After parameters that have not changed, a parameter and the ones behind it are related by
`change`. -/
def ChangeAfterUnchanged
    (change : Parameter → Parameter → List Parameter → List Parameter → Prop)
    (olds curs : List Parameter) : Prop :=
  ∃ before before' old cur after after',
    olds = before ++ old :: after ∧ curs = before' ++ cur :: after' ∧
    List.Forall₂ Unchanged before before' ∧ SameParameter old cur ∧ change old cur after after'

/-- The first difference between two parameter lists of one length is a loss of stability. -/
def LossComesFirst : List Parameter → List Parameter → Prop :=
  ChangeAfterUnchanged fun old cur after after' =>
    LostStability old cur ∧ after.length = after'.length

/-- The first difference between two lists of the same parameters is another change of stability,
and one of the parameters behind it is no longer stable. -/
def LossIsHidden : List Parameter → List Parameter → Prop :=
  ChangeAfterUnchanged fun old cur after after' =>
    old.stability ≠ cur.stability ∧ ¬ LostStability old cur ∧ ParameterLost after after'

/-- The parameters decide, and a loss among them is hidden, or comes first although the
parameters are not the same. -/
def Masked (old cur : Summary) : Prop :=
  ¬ LostRestartable old cur ∧ ¬ LostSkippable old cur ∧ ¬ BecameSkippable old cur ∧
    (LossIsHidden old.parameters cur.parameters ∨
      LossComesFirst old.parameters cur.parameters ∧
        ¬ List.Forall₂ SameParameter old.parameters cur.parameters)

/-- A comparison reports a regression of the function with this name. -/
def Reported (golden current : List Summary) (name : String) : Prop :=
  ∃ change ∈ regressions (diff golden current), change.qualifiedName = name

/-! ## Parameters -/

theorem changeAfterUnchanged_nil
    {change : Parameter → Parameter → List Parameter → List Parameter → Prop}
    {curs : List Parameter} : ¬ ChangeAfterUnchanged change [] curs := by
  rintro ⟨before, -, old, -, after, -, empty, -⟩
  simp at empty

theorem changeAfterUnchanged_cons
    {change : Parameter → Parameter → List Parameter → List Parameter → Prop}
    {old cur : Parameter} {olds curs : List Parameter} :
    ChangeAfterUnchanged change (old :: olds) (cur :: curs) ↔
      SameParameter old cur ∧ (change old cur olds curs ∨
        old.stability = cur.stability ∧ ChangeAfterUnchanged change olds curs) := by
  constructor
  · rintro ⟨before, before', o, c, after, after', first, second, same, kept, changed⟩
    cases same with
    | nil =>
        obtain ⟨rfl, rfl⟩ := List.cons.inj first
        obtain ⟨rfl, rfl⟩ := List.cons.inj second
        exact ⟨kept, .inl changed⟩
    | cons head tail =>
        obtain ⟨rfl, rfl⟩ := List.cons.inj first
        obtain ⟨rfl, rfl⟩ := List.cons.inj second
        exact ⟨head.1, .inr ⟨head.2, _, _, o, c, after, after', rfl, rfl, tail, kept, changed⟩⟩
  · rintro ⟨kept, changed | ⟨stability, before, before', o, c, after, after', rfl, rfl, same, rest⟩⟩
    · exact ⟨[], [], old, cur, olds, curs, rfl, rfl, .nil, kept, changed⟩
    · exact ⟨old :: before, cur :: before', o, c, after, after', rfl, rfl,
        .cons ⟨kept, stability⟩ same, rest⟩

theorem LossComesFirst.length_eq {olds curs : List Parameter} (loss : LossComesFirst olds curs) :
    olds.length = curs.length := by
  obtain ⟨before, before', old, cur, after, after', rfl, rfl, same, -, -, length⟩ := loss
  simp [same.length_eq, length]

theorem parameterLost_cons {old cur : Parameter} {olds curs : List Parameter} :
    ParameterLost (old :: olds) (cur :: curs) ↔
      SameParameter old cur ∧ List.Forall₂ SameParameter olds curs ∧
        (LostStability old cur ∨ ∃ pair ∈ olds.zip curs, LostStability pair.1 pair.2) := by
  simp [ParameterLost, and_assoc]

theorem LossComesFirst.exists_lost {olds curs : List Parameter} (loss : LossComesFirst olds curs) :
    ∃ pair ∈ olds.zip curs, LostStability pair.1 pair.2 := by
  obtain ⟨before, before', old, cur, after, after', rfl, rfl, same, -, lost, -⟩ := loss
  refine ⟨(old, cur), ?_, lost⟩
  rw [List.zip_append same.length_eq]
  simp

/-- A loss that does not come first is hidden. -/
theorem lossIsHidden_iff {olds curs : List Parameter} :
    LossIsHidden olds curs ↔ ParameterLost olds curs ∧ ¬ LossComesFirst olds curs := by
  induction olds generalizing curs with
  | nil => simp [LossIsHidden, changeAfterUnchanged_nil, ParameterLost]
  | cons old olds ih =>
      cases curs with
      | nil => simp [LossIsHidden, ChangeAfterUnchanged, ParameterLost]
      | cons cur curs =>
          rw [LossIsHidden, LossComesFirst, changeAfterUnchanged_cons, changeAfterUnchanged_cons,
            ← LossIsHidden, ← LossComesFirst, parameterLost_cons, ih]
          by_cases stability : old.stability = cur.stability
          · have kept : ¬ LostStability old cur := fun lost => lost.2 (stability ▸ lost.1)
            simp only [stability, kept, ParameterLost, ne_eq, not_true_eq_false, false_and,
              false_or, true_and]
            grind
          · by_cases lost : LostStability old cur
            · simp only [stability, lost, ne_eq, not_true_eq_false, false_and, and_false, or_false,
                true_and, true_or, and_true, not_and, false_iff]
              rintro ⟨same, rest⟩
              exact fun h => h same rest.length_eq
            · simp [stability, lost, ParameterLost]

/-- Comparing parameters finds a regression exactly if the first difference is a loss. -/
theorem parameterChange?_regressed_iff {olds curs : List Parameter}
    (length : olds.length = curs.length) :
    (∃ detail, parameterChange? olds curs = some (detail, true)) ↔ LossComesFirst olds curs := by
  induction olds generalizing curs with
  | nil =>
      exact iff_of_false (by simp [parameterChange?]) changeAfterUnchanged_nil
  | cons old olds ih =>
      cases curs with
      | nil => simp at length
      | cons cur curs =>
          have rest : olds.length = curs.length := by simpa using length
          rw [LossComesFirst, changeAfterUnchanged_cons, ← LossComesFirst, parameterChange?]
          by_cases replaced : old.name ≠ cur.name ∨ old.type ≠ cur.type
          · rw [if_pos replaced]
            refine iff_of_false (by simp) ?_
            rintro ⟨⟨name, type⟩, -⟩
            rcases replaced with h | h
            · exact h name
            · exact h type
          rw [if_neg replaced]
          have same : SameParameter old cur := by
            simpa [SameParameter, not_or] using replaced
          by_cases stability : old.stability = cur.stability
          · rw [if_neg (by simpa using stability), ih rest]
            have kept : ¬ LostStability old cur := fun lost => lost.2 (stability ▸ lost.1)
            simp [same, kept, stability]
          · rw [if_pos stability]
            simp only [same, stability, rest, LostStability, Option.some.injEq, Prod.mk.injEq,
              beq_iff_eq, exists_eq_left', true_and, and_true, false_and, or_false]
            exact ⟨fun stable => ⟨stable, fun h => stability (stable.trans h.symm)⟩, fun h => h.1⟩

theorem parametersChange?_regressed_iff {olds curs : List Parameter} :
    (∃ detail, parametersChange? olds curs = some (detail, true)) ↔ LossComesFirst olds curs := by
  unfold parametersChange?
  by_cases length : olds.length = curs.length
  · rw [if_neg (by simpa using length)]
    exact parameterChange?_regressed_iff length
  · rw [if_pos length]
    exact iff_of_false (by simp) fun loss => length loss.length_eq

/-! ## Functions -/

theorem compare?_qualifiedName {old cur : Summary} {change : Change}
    (found : compare? old cur = some change) : change.qualifiedName = cur.qualifiedName := by
  unfold compare? at found
  grind

/-- Comparing two entries finds a regression exactly if the function lost a property, or, unless it
became skippable, the first difference of its parameters is a loss. -/
theorem compare?_regressed_iff {old cur : Summary} :
    (∃ change, compare? old cur = some change ∧ change.kind = .regressed) ↔
      LostRestartable old cur ∨ LostSkippable old cur ∨
        ¬ BecameSkippable old cur ∧ LossComesFirst old.parameters cur.parameters := by
  rw [← parametersChange?_regressed_iff]
  unfold compare?
  by_cases restartable : LostRestartable old cur
  · rw [if_pos (by simpa [LostRestartable] using restartable)]
    exact iff_of_true ⟨_, rfl, rfl⟩ (.inl restartable)
  rw [if_neg (by simpa [LostRestartable] using restartable)]
  by_cases skippable : LostSkippable old cur
  · rw [if_pos (by simpa [LostSkippable] using skippable)]
    exact iff_of_true ⟨_, rfl, rfl⟩ (.inr (.inl skippable))
  rw [if_neg (by simpa [LostSkippable] using skippable)]
  simp only [restartable, skippable, false_or]
  by_cases became : BecameSkippable old cur
  · rw [if_pos (by simpa [BecameSkippable] using became)]
    exact iff_of_false (by simp) fun h => h.1 became
  rw [if_neg (by simpa [BecameSkippable] using became)]
  simp only [became, not_false_eq_true, true_and]
  split
  · next detail regressed found =>
      cases regressed <;> simp [found]
  · next found =>
      split <;> simp [found]

/-! ## Reports -/

theorem entry?_qualifiedName {report : List Summary} {name : String} {s : Summary}
    (found : entry? report name = some s) : s.qualifiedName = name := by
  simpa using List.find?_some found

/-- Where names are distinct, an entry is found by its name. -/
theorem entry?_of_mem {report : List Summary} (distinct : (report.map (·.qualifiedName)).Nodup)
    {s : Summary} (mem : s ∈ report) : entry? report s.qualifiedName = some s := by
  have listed : s ∈ report.reverse := List.mem_reverse.2 mem
  obtain ⟨found, isFound⟩ := Option.isSome_iff_exists.1
    (List.find?_isSome (p := fun e : Summary => e.qualifiedName == s.qualifiedName).2
      ⟨s, listed, by simp⟩)
  have same := List.find?_some isFound
  have inReport := List.mem_reverse.1 (List.mem_of_find?_eq_some isFound)
  rw [ entry?, isFound, List.inj_on_of_nodup_map distinct inReport mem (by simpa using same)]

theorem change?_qualifiedName {golden current : List Summary} {name : String} {change : Change}
    (found : change? golden current name = some change) : change.qualifiedName = name := by
  unfold change? at found
  split at found
  · cases found
  · cases found
    rfl
  · cases found
    rfl
  · next new => exact (compare?_qualifiedName found).trans (entry?_qualifiedName new)

theorem mem_allNames {golden current : List Summary} {name : String} :
    name ∈ allNames golden current ↔ name ∈ (golden ++ current).map (·.qualifiedName) := by
  simp only [allNames, Text.mem_eraseReps, List.mem_mergeSort]

/-- A regression of a function is reported exactly if comparing its entries finds one. -/
theorem reported_iff_change? {golden current : List Summary} {name : String}
    (listed : name ∈ (golden ++ current).map (·.qualifiedName)) :
    Reported golden current name ↔
      ∃ change, change? golden current name = some change ∧ change.kind = .regressed := by
  simp only [Reported, regressions, diff, List.mem_filter, List.mem_filterMap, beq_iff_eq]
  constructor
  · rintro ⟨change, ⟨⟨other, -, found⟩, kind⟩, rfl⟩
    rw [change?_qualifiedName found]
    exact ⟨change, found, kind⟩
  · rintro ⟨change, found, kind⟩
    exact ⟨change, ⟨⟨name, mem_allNames.2 listed, found⟩, kind⟩, change?_qualifiedName found⟩

/-- A function in both reports is reported as regressed exactly if it lost a property, or, unless
it became skippable, the first difference of its parameters is a loss. -/
theorem reported_iff {golden current : List Summary}
    (goldenDistinct : (golden.map (·.qualifiedName)).Nodup)
    (currentDistinct : (current.map (·.qualifiedName)).Nodup) {old cur : Summary}
    (inGolden : old ∈ golden) (inCurrent : cur ∈ current)
    (same : old.qualifiedName = cur.qualifiedName) :
    Reported golden current cur.qualifiedName ↔
      LostRestartable old cur ∨ LostSkippable old cur ∨
        ¬ BecameSkippable old cur ∧ LossComesFirst old.parameters cur.parameters := by
  have before : entry? golden cur.qualifiedName = some old :=
    same ▸ entry?_of_mem goldenDistinct inGolden
  have after := entry?_of_mem currentDistinct inCurrent
  rw [reported_iff_change? (List.mem_map_of_mem (List.mem_append_right _ inCurrent)),
    ← compare?_regressed_iff, change?, before, after]

/-- A check fails when a regression is reported. -/
theorem verdictOn_of_reported {golden current : List Summary} {name : String}
    (reported : Reported golden current name) (strict : Bool) :
    ∃ count, Command.verdictOn strict (diff golden current) = some (.regressions count) := by
  obtain ⟨change, mem, -⟩ := reported
  have positive := List.length_pos_of_mem mem
  unfold Command.verdictOn
  split
  · next none => omega
  · exact ⟨_, rfl⟩

/-- For a function in both reports: the comparison reports it exactly if it lost a property or a
loss of stability is the first change of its parameters; that is a regression unless the
function is masked; and then the check fails. -/
theorem reported_iff_regressed_unless_masked {golden current : List Summary}
    (goldenDistinct : (golden.map (·.qualifiedName)).Nodup)
    (currentDistinct : (current.map (·.qualifiedName)).Nodup) {old cur : Summary}
    (inGolden : old ∈ golden) (inCurrent : cur ∈ current)
    (same : old.qualifiedName = cur.qualifiedName) :
    (Reported golden current cur.qualifiedName ↔
      LostRestartable old cur ∨ LostSkippable old cur ∨
        ¬ BecameSkippable old cur ∧ LossComesFirst old.parameters cur.parameters) ∧
    ((Reported golden current cur.qualifiedName ↔ Regressed old cur) ↔ ¬ Masked old cur) ∧
    (Reported golden current cur.qualifiedName → ∀ strict, ∃ count,
      Command.verdictOn strict (diff golden current) = some (.regressions count)) := by
  have exact := reported_iff goldenDistinct currentDistinct inGolden inCurrent same
  refine ⟨exact, ?_, fun reported => verdictOn_of_reported reported⟩
  rw [exact, Regressed, Masked, lossIsHidden_iff]
  -- Each of the first three properties decides both sides; without them the parameters do.
  by_cases restartable : LostRestartable old cur
  · simp [restartable]
  by_cases skippable : LostSkippable old cur
  · simp [skippable]
  by_cases became : BecameSkippable old cur
  · simp [restartable, skippable, became]
  simp only [restartable, skippable, became, not_false_eq_true, false_or, true_and, and_true]
  by_cases first : LossComesFirst old.parameters cur.parameters
  · simp [first, ParameterLost, first.exists_lost]
  · simp [first]

/-- The two parameters of a function, with their stabilities. -/
def panel (first second : Stability.Value) : Summary where
  name := "Panel"
  qualifiedName := "ui.Panel"
  visibility := "exported"
  returnType := "()"
  restartable := true
  skippable := false
  parameters := [⟨"style", "ui.Style", first, ""⟩, ⟨"title", "string", second, ""⟩]

/-- A loss in the first place is reported. -/
theorem panel_reported :
    ([panel .stable .stable].map (·.qualifiedName)).Nodup ∧
      ([panel .unstable .runtime].map (·.qualifiedName)).Nodup ∧
      (panel .stable .stable).qualifiedName = (panel .unstable .runtime).qualifiedName ∧
      Reported [panel .stable .stable] [panel .unstable .runtime] "ui.Panel" := by
  have first : LossComesFirst (panel .stable .stable).parameters
      (panel .unstable .runtime).parameters :=
    changeAfterUnchanged_cons.2 ⟨⟨rfl, rfl⟩, .inl ⟨⟨rfl, by simp⟩, rfl⟩⟩
  have unskipped : ¬ BecameSkippable (panel .stable .stable) (panel .unstable .runtime) := by
    simp [BecameSkippable, panel]
  have golden : panel .stable .stable ∈ [panel .stable .stable] := List.mem_cons_self
  have current : panel .unstable .runtime ∈ [panel .unstable .runtime] := List.mem_cons_self
  refine ⟨by simp, by simp, rfl, ?_⟩
  exact (reported_iff_regressed_unless_masked (by simp) (by simp) golden current rfl).1.2
    (.inr (.inr ⟨unskipped, first⟩))

/-- A loss of stability goes unreported behind a parameter that changed in another way. -/
theorem panel_unreported :
    Regressed (panel .unstable .stable) (panel .stable .unstable) ∧
      ¬ Reported [panel .unstable .stable] [panel .stable .unstable] "ui.Panel" := by
  constructor
  · refine .inr (.inr ⟨⟨?_, ?_⟩, by simp [BecameSkippable, panel]⟩)
    · exact .cons ⟨rfl, rfl⟩ (.cons ⟨rfl, rfl⟩ .nil)
    · exact ⟨_, List.mem_cons_of_mem _ List.mem_cons_self, rfl, by simp⟩
  · have later : ¬ LossComesFirst (panel .unstable .stable).parameters
        (panel .stable .unstable).parameters := by
      simp [panel, LossComesFirst, changeAfterUnchanged_cons, LostStability]
    have golden : panel .unstable .stable ∈ [panel .unstable .stable] := List.mem_cons_self
    have current : panel .stable .unstable ∈ [panel .stable .unstable] := List.mem_cons_self
    intro reported
    rcases (reported_iff (by simp) (by simp) golden current rfl).1 reported with
      lost | lost | ⟨-, first⟩
    · simp [LostRestartable, panel] at lost
    · simp [LostSkippable, panel] at lost
    · exact later first

end ComposeStability.Report
