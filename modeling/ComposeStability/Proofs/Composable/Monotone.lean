/-
# Proofs.Composable.Monotone -- knowing more stable types makes nothing worse

Patterns that are added to the known ones only turn roles into stable leaves
(`role_append`).  Every way to a leaf or around a cycle was there without them
(`Step.of_append`), so no type gets a worse outcome (`reachedValue_append_le`).
Hence, with strong skipping switched on or left as it is, no parameter and no
receiver gets worse and a skippable function stays skippable (`NoWorse`), and
comparing the reports before and after finds no regression
(`Table.analysis_no_worse`).
-/
import ComposeStability.Proofs.Composable.Classifier
import ComposeStability.Proofs.Report.Regression
import ComposeStability.Proofs.TypeGraph.Reachability

/-! ## Types -/

namespace ComposeStability.TypeGraph

set_option autoImplicit false

open Relation (ReflTransGen TransGen)
open Stability (Value Verdict)

variable {τ : Type} {g : TypeGraph τ} {patterns : List Pattern} (more : List Pattern)

theorem isKnownStable_append {name : String} (known : isKnownStable patterns name = true) :
    isKnownStable (patterns ++ more) name = true := by
  simp only [isKnownStable, Bool.and_eq_true, Bool.or_eq_true, List.any_append] at known ⊢
  exact ⟨known.1, known.2.imp_right .inl⟩

/-- A type keeps its role, or becomes a stable leaf. -/
theorem role_append (t : τ) :
    g.role (patterns ++ more) t = .stable ∨ g.role (patterns ++ more) t = g.role patterns t := by
  unfold role
  by_cases parameter : g.kindOf t = .typeParameter
  · exact .inr (by rw [if_pos parameter, if_pos parameter])
  rw [if_neg parameter, if_neg parameter]
  by_cases function : g.kindOf t = .function
  · exact .inl (if_pos function)
  rw [if_neg function, if_neg function]
  by_cases known : isKnownStable (patterns ++ more) (g.nameOf t) = true
  · exact .inl (if_pos known)
  · have unknown : ¬ isKnownStable patterns (g.nameOf t) = true :=
      fun before => known (isKnownStable_append more before)
    exact .inr (by rw [if_neg known, if_neg unknown])

/-- A role other than that of a stable leaf was there without the added patterns. -/
theorem roleOf_of_append {a : Option τ} {role : Role τ} (unsettled : role ≠ .stable)
    (after : g.roleOf (patterns ++ more) a = role) : g.roleOf patterns a = role := by
  cases a with
  | none => exact after
  | some t =>
      rcases role_append more t with stable | same
      · exact absurd (after.symm.trans stable) unsettled
      · exact same.symm.trans after

theorem Step.of_append {a b : Option τ} (step : g.Step (patterns ++ more) a b) :
    g.Step patterns a b := by
  obtain ⟨inner, mem, behind⟩ := step
  exact .part (roleOf_of_append more (by simp) inner) mem behind

/-- By reachability no outcome gets worse. -/
theorem reachedValue_append_le (start : Option τ) :
    (g.reachedValue (patterns ++ more) start).rank ≤ (g.reachedValue patterns start).rank := by
  have ways {u : Option τ} (way : ReflTransGen (g.Step (patterns ++ more)) start u) :
      ReflTransGen (g.Step patterns) start u :=
    ReflTransGen.mono (fun _ _ => Step.of_append more) _ _ way
  unfold reachedValue
  split
  · next reached =>
      obtain ⟨u, way, leaf⟩ := reached
      refine Nat.le_of_eq ?_
      rw [if_pos ⟨u, ways way, roleOf_of_append more (by simp) leaf⟩]
  · split
    · next reached =>
        obtain ⟨u, way, reason⟩ := reached
        have before : g.roleOf patterns u = .runtime ∨ TransGen (g.Step patterns) u u :=
          reason.imp (roleOf_of_append more (by simp))
            (TransGen.mono (fun _ _ => Step.of_append more) _ _)
        split
        · decide
        · refine Nat.le_of_eq ?_
          rw [if_pos ⟨u, ways way, before⟩]
    · exact Nat.zero_le _

variable {nodes : List τ}

/-- Classification answers for a charted type both times, and not worse the second time. -/
theorem classify_append_le [g.Tells] (chart : g.Charted nodes) (distinct : g.KeysDistinct nodes)
    (ends : g.WrappersEnd) {p : Option τ} (charted : InChart nodes p) :
    ∃ before after, classify g patterns p = .ok before ∧
      classify g (patterns ++ more) p = .ok after ∧ after.value.rank ≤ before.value.rank := by
  have answers (known : List Pattern) : ∃ start verdict, g.Unwraps p start ∧
      classify g known p = .ok verdict ∧ verdict.value = g.reachedValue known start :=
    classify_answers chart distinct ends charted
  obtain ⟨start, before, behind, classified, value⟩ := answers patterns
  obtain ⟨start', after, behind', classified', value'⟩ := answers (patterns ++ more)
  obtain rfl := behind.unique behind'
  refine ⟨before, after, classified, classified', ?_⟩
  rw [value, value']
  exact reachedValue_append_le more start

end ComposeStability.TypeGraph

/-! ## Reports -/

namespace ComposeStability.Report

set_option autoImplicit false

open Stability (Summary Parameter Receiver Value)

/-- The same function, about which nothing got worse. -/
structure NoWorse (old cur : Summary) : Prop where
  name : old.qualifiedName = cur.qualifiedName
  restartable : old.restartable = cur.restartable
  skippable : old.skippable = true → cur.skippable = true
  parameters : List.Forall₂ (fun before after : Parameter =>
    SameParameter before after ∧ after.stability.rank ≤ before.stability.rank)
      old.parameters cur.parameters
  receivers : List.Forall₂ (fun before after : Receiver =>
    (before.type = after.type ∧ before.kind = after.kind) ∧
      after.stability.rank ≤ before.stability.rank) old.receivers cur.receivers

theorem eq_stable_of_rank_le {value : Value} (le : value.rank ≤ Value.stable.rank) :
    value = .stable := by
  cases value with
  | stable => rfl
  | _ => simp [Value.rank] at le

theorem NoWorse.not_lost {old cur : Summary} (kept : NoWorse old cur) :
    ¬ LossComesFirst old.parameters cur.parameters := by
  intro loss
  obtain ⟨⟨before, after⟩, listed, was, isNot⟩ := loss.exists_lost
  have le := (List.forall₂_iff_zip.1 kept.parameters).2 listed
  have stable : before.stability = .stable := was
  exact isNot (eq_stable_of_rank_le (stable ▸ le.2))

theorem NoWorse.not_regressed {old cur : Summary} (kept : NoWorse old cur) {change : Change}
    (found : compare? old cur = some change) : change.kind ≠ .regressed := by
  intro regressed
  rcases compare?_regressed_iff.1 ⟨change, found, regressed⟩ with lost | lost | ⟨-, loss⟩
  · exact absurd (kept.restartable.symm.trans lost.1) (by simp [lost.2])
  · exact absurd (kept.skippable lost.1) (by simp [lost.2])
  · exact kept.not_lost loss

/-- Where entries correspond one by one, so do those that are found by a name, also where names
repeat. -/
theorem entry?_corresponds {before after : List Summary}
    (kept : List.Forall₂ NoWorse before after) (name : String) :
    Option.Rel NoWorse ( entry? before name) ( entry? after name) := by
  have reversed := List.rel_reverse kept
  unfold entry?
  generalize before.reverse = olds at reversed ⊢
  generalize after.reverse = curs at reversed ⊢
  induction reversed with
  | nil => exact .none
  | @cons old cur olds curs same _ ih =>
      have names : (cur.qualifiedName == name) = (old.qualifiedName == name) := by rw [same.name]
      rw [List.find?_cons, List.find?_cons, names]
      split
      · exact .some same
      · exact ih

/-- Nothing got worse, so no regression is found. -/
theorem regressions_of_noWorse {before after : List Summary}
    (kept : List.Forall₂ NoWorse before after) : regressions (diff before after) = [] := by
  refine List.filter_eq_nil_iff.2 fun change listed => ?_
  obtain ⟨name, -, found⟩ := List.mem_filterMap.1 listed
  have corresponds := entry?_corresponds kept name
  unfold change? at found
  generalize entry? before name = old at found corresponds
  generalize entry? after name = cur at found corresponds
  cases corresponds with
  | none => cases found
  | some same => simpa using same.not_regressed found

end ComposeStability.Report

/-! ## Functions -/

namespace ComposeStability.Composable

set_option autoImplicit false

open Stability (Verdict)
open Report (NoWorse)

variable {τ : Type} {g : TypeGraph τ} {strong strong' : Bool}
  {verdict verdict' : Option τ → Verdict} {fn : Function τ}

/-- Verdicts that are not worse give a summary that is not worse. -/
theorem summaryWith_noWorse (switched : strong = true → strong' = true)
    (le : ∀ t ∈ givenTypes fn, (verdict' t).value.rank ≤ (verdict t).value.rank) :
    NoWorse (summaryWith g strong verdict fn)
      (summaryWith g strong' verdict' fn) where
  name := rfl
  restartable := rfl
  skippable := by
    simp only [summaryWith_skippable, Bool.and_eq_true, Bool.or_eq_true, List.all_eq_true,
      beq_iff_eq]
    rintro ⟨restartable, on | stable⟩
    · exact ⟨restartable, .inl (switched on)⟩
    · refine ⟨restartable, .inr fun t given => Report.eq_stable_of_rank_le ?_⟩
      rw [← stable t given]
      exact le t given
  parameters := by
    rw [summaryWith_parameters, summaryWith_parameters, List.forall₂_map_left_iff,
      List.forall₂_map_right_iff, List.forall₂_same]
    intro p listed
    exact ⟨⟨rfl, rfl⟩, le p.2 (List.mem_append_right _ (List.mem_map_of_mem listed))⟩
  receivers := by
    rw [summaryWith_receivers, summaryWith_receivers, List.forall₂_map_left_iff,
      List.forall₂_map_right_iff, List.forall₂_same]
    intro r listed
    exact ⟨⟨rfl, rfl⟩, le r.2 (List.mem_append_left _ (List.mem_map_of_mem listed))⟩

end ComposeStability.Composable

/-! ## Tables -/

namespace ComposeStability.TypeGraph

set_option autoImplicit false

open Composable (Function Classifier analyzeAll givenTypes)
open Report (NoWorse diff regressions)

/-- In a table whose types all answer, have keys of their own and end behind their wrappers, every
function is analyzed with some patterns and with more of them, strong skipping being switched on or
left as it is.  Nothing about any function gets worse, and no regression is found. -/
theorem Table.analysis_no_worse (table : Table)
    (answers : ∀ n ∈ table.nodes, n.refusal = none)
    (distinct : table.graph.KeysDistinct table.nodes) (ends : table.graph.WrappersEnd)
    (fns : List (Function Node))
    (listed : ∀ fn ∈ fns, ∀ n, some n ∈ givenTypes fn → n ∈ table.nodes)
    (patterns more : List Pattern) (strong strong' : Bool)
    (switched : strong = true → strong' = true) :
    ∃ before after,
      analyzeAll (Classifier.plain table.graph patterns) strong () fns = (before, [], ()) ∧
      analyzeAll (Classifier.plain table.graph (patterns ++ more)) strong' () fns =
        (after, [], ()) ∧
      List.Forall₂ NoWorse before after ∧ regressions (diff before after) = [] := by
  have both : ∀ t : Option Node, InChart table.nodes t → ∃ before after,
      classify table.graph patterns t = .ok before ∧
        classify table.graph (patterns ++ more) t = .ok after ∧
        after.value.rank ≤ before.value.rank :=
    fun t charted => classify_append_le more (table.charted answers) distinct ends charted
  have : Nonempty Stability.Verdict := ⟨unresolved⟩
  choose! verdict verdict' classified classified' le using both
  have given : ∀ fn ∈ fns, ∀ t ∈ givenTypes fn, InChart table.nodes t := by
    rintro fn among t member n rfl
    exact listed fn among n member
  have kept : List.Forall₂ NoWorse
      (fns.map (Composable.summaryWith table.graph strong verdict))
      (fns.map (Composable.summaryWith table.graph strong' verdict')) := by
    rw [List.forall₂_map_left_iff, List.forall₂_map_right_iff, List.forall₂_same]
    intro fn among
    exact Composable.summaryWith_noWorse switched fun t member => le t (given fn among t member)
  refine ⟨_, _, Composable.analyzeAll_plain strong ?_, Composable.analyzeAll_plain strong' ?_, kept,
    Report.regressions_of_noWorse kept⟩
  · exact fun fn among t member => classified t (given fn among t member)
  · exact fun fn among t member => classified' t (given fn among t member)

/-- A function that is given a tree and a text. -/
def Table.treeView : Function Node where
  name := "TreeView"
  qualifiedName := "ui.TreeView"
  visibility := "exported"
  returnType := "()"
  receivers := [(.dispatch, tree.resolve (some "branch"))]
  params := [("tree", tree.resolve (some "tree")), ("title", tree.resolve (some "text"))]

/-- A tree contains itself, so it is left to run time until it is known to be stable. -/
theorem Table.treeView_no_worse :
    (∀ n ∈ tree.nodes, n.refusal = none) ∧ tree.graph.KeysDistinct tree.nodes ∧
      tree.graph.WrappersEnd ∧
      (∀ fn ∈ [treeView], ∀ n, some n ∈ givenTypes fn → n ∈ tree.nodes) ∧
      ∃ before after,
        analyzeAll (Classifier.plain tree.graph []) false () [treeView] = (before, [], ()) ∧
        analyzeAll (Classifier.plain tree.graph ([] ++ [⟨"ui.Tree"⟩])) true () [treeView] =
          (after, [], ()) ∧
        List.Forall₂ NoWorse before after ∧ regressions (diff before after) = [] := by
  have answers : ∀ n ∈ tree.nodes, n.refusal = none := by
    decide
  have distinct : tree.graph.KeysDistinct tree.nodes := keysDistinct_of_nodup (by decide)
  have ends : tree.graph.WrappersEnd := tree.wrappersEnd_of_kind (by decide)
  have listed : ∀ fn ∈ [treeView], ∀ n, some n ∈ givenTypes fn → n ∈ tree.nodes := by
    intro fn among n given
    rw [List.mem_singleton.1 among] at given
    simp only [givenTypes, treeView, List.map_cons, List.map_nil, List.cons_append,
      List.nil_append, List.mem_cons, List.not_mem_nil, or_false] at given
    rcases given with found | found | found <;> exact mem_nodes_of_resolve found.symm
  exact ⟨answers, distinct, ends, listed,
    Table.analysis_no_worse tree answers distinct ends [treeView] listed [] [⟨"ui.Tree"⟩] false true
      fun _ => rfl⟩

end ComposeStability.TypeGraph
