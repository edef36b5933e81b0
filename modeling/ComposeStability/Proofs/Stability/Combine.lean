/-
# Proofs.Stability.Combine -- the outcome of combined verdicts

Combining sorts the obstacles of its parts by text and keeps one of each text.
Two obstacles with one text have one outcome (`Obstacle.value_eq_of_text_eq`),
so neither step can change which outcomes occur among the parts, and the
outcome of the whole is the worst outcome of its parts (`value_combine`).
-/
import ComposeStability.Stability.Verdict

namespace ComposeStability.Stability

set_option autoImplicit false

/-! ## Texts of obstacles -/

namespace Obstacle

/-- The third character of the text of an obstacle tells unstable ones apart. -/
theorem text_getElem_two (o : Obstacle) :
    o.text.toList[2]? = some 's' ↔ o.value = .unstable := by
  cases o with
  | runtime typeName reason =>
      simp only [text]
      split <;> simp [value]
  | _ => simp [text, value]

theorem value_eq_runtime_iff (o : Obstacle) : o.value = .runtime ↔ o.value ≠ .unstable := by
  cases o <;> simp [value]

theorem value_eq_of_text_eq {a b : Obstacle} (same : a.text = b.text) : a.value = b.value := by
  have unstable : a.value = .unstable ↔ b.value = .unstable := by
    rw [← text_getElem_two, ← text_getElem_two, same]
  by_cases h : a.value = .unstable
  · rw [h, unstable.1 h]
  · rw [(value_eq_runtime_iff a).2 h, (value_eq_runtime_iff b).2 (mt unstable.2 h)]

/-! ## Explanations of obstacles -/

theorem explain_runtime {typeName reason : String} :
    explain (.runtime typeName reason) =
      if reason = "" then "stability of " ++ typeName ++ " is decided at runtime"
      else typeName ++ ": " ++ reason := by
  show (if reason.isEmpty then _ else _) = _
  simp only [String.isEmpty_iff]

/-- Only an unstable obstacle without a reason says nothing. -/
theorem explain_eq_empty_iff (o : Obstacle) : o.explain = "" ↔ o = .unstable "" := by
  cases o with
  | unstable reason => exact ⟨congrArg Obstacle.unstable, Obstacle.unstable.inj⟩
  | runtime typeName reason =>
      rw [explain_runtime]
      split <;> simp
  | unknown declaration =>
      show declaration ++ " is an interface or abstract type" = "" ↔ _
      simp
  | parametric parameter =>
      show "depends on type parameter " ++ parameter = "" ↔ _
      simp

end Obstacle

namespace Verdict

/-! ## The worst of several outcomes -/

theorem worst_eq_unstable_iff {values : List Value} :
    worst values = .unstable ↔ .unstable ∈ values := by
  by_cases unstable : .unstable ∈ values <;> by_cases runtime : .runtime ∈ values <;>
    simp [worst, unstable, runtime]

theorem worst_eq_runtime_iff {values : List Value} :
    worst values = .runtime ↔ .unstable ∉ values ∧ .runtime ∈ values := by
  by_cases unstable : .unstable ∈ values <;> by_cases runtime : .runtime ∈ values <;>
    simp [worst, unstable, runtime]

theorem worst_eq_stable_iff {values : List Value} :
    worst values = .stable ↔ .unstable ∉ values ∧ .runtime ∉ values := by
  by_cases unstable : .unstable ∈ values <;> by_cases runtime : .runtime ∈ values <;>
    simp [worst, unstable, runtime]

/-- Only the outcomes that occur count, not how often or in which order. -/
theorem worst_congr {xs ys : List Value} (unstable : .unstable ∈ xs ↔ .unstable ∈ ys)
    (runtime : .unstable ∉ xs → (.runtime ∈ xs ↔ .runtime ∈ ys)) : worst xs = worst ys := by
  by_cases h : .unstable ∈ xs
  · rw [worst_eq_unstable_iff.2 h, worst_eq_unstable_iff.2 (unstable.1 h)]
  · simp only [worst, ← unstable, h, runtime h]

/-- Outcomes can be weighed group by group. -/
theorem worst_flatten (groups : List (List Value)) :
    worst groups.flatten = worst (groups.map worst) := by
  have unstable : .unstable ∈ groups.flatten ↔ .unstable ∈ groups.map worst := by
    simp only [List.mem_flatten, List.mem_map, worst_eq_unstable_iff]
  refine worst_congr unstable fun none => ?_
  simp only [List.mem_flatten, List.mem_map, worst_eq_runtime_iff]
  refine exists_congr fun group => and_congr_right fun given => ?_
  exact (and_iff_right fun mem => none (List.mem_flatten.2 ⟨group, given, mem⟩)).symm

/-! ## Combining -/

theorem dropRepeats_subset (parts : List Obstacle) : dropRepeats parts ⊆ parts := by
  fun_induction dropRepeats parts with
  | case1 => simp
  | case2 o => simp
  | case3 a b rest same ih =>
      intro o kept
      rcases List.mem_cons.1 (ih kept) with rfl | kept
      · simp
      · simp [kept]
  | case4 a b rest differ ih =>
      intro o kept
      simp only [List.mem_cons] at kept ⊢
      rcases kept with rfl | kept
      · exact .inl rfl
      · exact .inr (by simpa using ih kept)

/-- Every text survives. -/
theorem exists_mem_dropRepeats {parts : List Obstacle} {o : Obstacle} (given : o ∈ parts) :
    ∃ kept ∈ dropRepeats parts, kept.text = o.text := by
  fun_induction dropRepeats parts generalizing o with
  | case1 => simp at given
  | case2 a => exact ⟨o, given, rfl⟩
  | case3 a b rest same ih =>
      simp only [List.mem_cons] at given ih
      rcases given with rfl | rfl | given
      · exact ih (.inl rfl)
      · obtain ⟨kept, mem, text⟩ := ih (.inl rfl)
        exact ⟨kept, mem, text.trans same⟩
      · exact ih (.inr given)
  | case4 a b rest differ ih =>
      rcases List.mem_cons.1 given with rfl | given
      · exact ⟨o, by simp, rfl⟩
      · obtain ⟨kept, mem, text⟩ := ih given
        exact ⟨kept, List.mem_cons_of_mem _ mem, text⟩

/-- Listing obstacles once each, in the order of their texts, keeps the outcomes that occur. -/
theorem mem_values_dropRepeats {parts : List Obstacle} {v : Value} :
    v ∈ (dropRepeats (sortByText parts)).map Obstacle.value ↔ v ∈ parts.map Obstacle.value := by
  simp only [List.mem_map]
  constructor
  · rintro ⟨o, kept, rfl⟩
    exact ⟨o, by simpa [sortByText] using dropRepeats_subset _ kept, rfl⟩
  · rintro ⟨o, given, rfl⟩
    have sorted : o ∈ sortByText parts := by simpa [sortByText] using given
    obtain ⟨kept, mem, text⟩ := exists_mem_dropRepeats sorted
    exact ⟨kept, mem, Obstacle.value_eq_of_text_eq text⟩

/-- The outcome of a verdict is the worst outcome of its obstacles. -/
theorem value_eq_worst (verdict : Verdict) :
    verdict.value = worst (verdict.obstacles.map Obstacle.value) := by
  cases verdict with
  | stable reason => rfl
  | combined parts => rfl
  | obstacle o => cases o <;> simp [value, obstacles, worst, Obstacle.value]

theorem worst_mem (values : List Value) : worst values = .stable ∨ worst values ∈ values := by
  by_cases unstable : .unstable ∈ values
  · rw [worst_eq_unstable_iff.2 unstable]
    exact .inr unstable
  · by_cases runtime : .runtime ∈ values
    · rw [worst_eq_runtime_iff.2 ⟨unstable, runtime⟩]
      exact .inr runtime
    · exact .inl (worst_eq_stable_iff.2 ⟨unstable, runtime⟩)

theorem intercalate_ne_empty {separator : String} {texts : List String} (given : texts ≠ [])
    (each : ∀ text ∈ texts, text ≠ "") : separator.intercalate texts ≠ "" := by
  cases texts with
  | nil => exact absurd rfl given
  | cons first rest =>
      have filled := each first List.mem_cons_self
      cases rest with
      | nil => simpa using filled
      | cons second rest =>
          rw [String.intercalate_cons_cons]
          simp [filled]

/-- Where each obstacle says something, so does a verdict that is not stable: some obstacle has
its outcome. -/
theorem explain_ne_empty (verdict : Verdict)
    (spoken : ∀ o ∈ verdict.obstacles, o ≠ .unstable "") (unstable : verdict.value ≠ .stable) :
    verdict.explain ≠ "" := by
  cases verdict with
  | stable reason => exact absurd rfl unstable
  | obstacle o => exact mt o.explain_eq_empty_iff.1 (spoken o List.mem_cons_self)
  | combined parts =>
      obtain ⟨o, given, deciding⟩ := List.mem_map.1 ((worst_mem _).resolve_left unstable)
      have listed : o ∈ parts.filter fun o => o.value == worst (parts.map Obstacle.value) :=
        List.mem_filter.2 ⟨given, beq_iff_eq.2 deciding⟩
      refine intercalate_ne_empty (List.ne_nil_of_mem (List.mem_map_of_mem listed)) ?_
      rw [List.forall_mem_map]
      intro other speaks
      exact mt other.explain_eq_empty_iff.1 (spoken other (List.mem_filter.1 speaks).1)

/-- Every verdict has one of the three outcomes. -/
theorem value_mem (verdict : Verdict) :
    verdict.value ∈ [Value.stable, Value.unstable, Value.runtime] := by
  rw [value_eq_worst, worst]
  split
  · simp
  · split <;> simp

/-- The outcome of combined verdicts is the worst outcome among them. -/
theorem value_combine (verdicts : List Verdict) :
    (combine (verdicts.map some)).value = worst (verdicts.map value) := by
  have parts : (verdicts.map some).flatMap (fun part => (part.map obstacles).getD []) =
      (verdicts.map obstacles).flatten := by
    rw [List.flatMap_map, List.flatten_eq_flatMap, List.flatMap_map]
    rfl
  calc
    (combine (verdicts.map some)).value
        = worst ((verdicts.map obstacles).flatten.map Obstacle.value) := by
          rw [combine, parts]
          exact worst_congr mem_values_dropRepeats fun _ => mem_values_dropRepeats
    _ = worst ((verdicts.map fun v => v.obstacles.map Obstacle.value).map worst) := by
          simp only [List.map_flatten, worst_flatten, List.map_map, Function.comp_def]
    _ = worst (verdicts.map value) := by
          simp only [List.map_map, Function.comp_def, ← value_eq_worst]

end Verdict

end ComposeStability.Stability
