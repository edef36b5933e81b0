/-
# Proofs.Text.Occurrence -- where a separator first and last occurs

Cutting a text finds the first or the last place where the separator stands
(`cut_eq_some_iff`, `cutLast_eq_some_iff`).  The first place is decided by what
comes before it and the separator alone (`FirstAt.withAfter`), and the last one by
the separator and what comes after it (`LastAt.withBefore`), so either stays where
it is when the other side of the text is rewritten.
-/
import ComposeStability.Text.Blank
import ComposeStability.Text.Cut
import Mathlib.Data.List.Infix

namespace ComposeStability.Text

set_option autoImplicit false

/-! ## Places -/

/-- `sep` occurs in the text between `before` and `after`, and nowhere earlier. -/
structure FirstAt (sep text before after : List Char) : Prop where
  whole : text = before ++ sep ++ after
  first : ∀ earlier later, text = earlier ++ sep ++ later → before.length ≤ earlier.length

/-- `sep` occurs in the text between `before` and `after`, and nowhere later. -/
structure LastAt (sep text before after : List Char) : Prop where
  whole : text = before ++ sep ++ after
  last : ∀ earlier later, text = earlier ++ sep ++ later → earlier.length ≤ before.length

variable {sep text before after : List Char}

theorem not_firstAt_nil (filled : sep ≠ []) : ¬ FirstAt sep [] before after := by
  intro here
  have parts : before = [] ∧ sep = [] ∧ after = [] := by simpa using here.whole.symm
  exact filled parts.2.1

/-- There is one way to divide a text at a place. -/
theorem divide_unique {before' after' : List Char} (whole : text = before ++ sep ++ after)
    (whole' : text = before' ++ sep ++ after') (same : before.length = before'.length) :
    before = before' ∧ after = after' := by
  have both : before ++ (sep ++ after) = before' ++ (sep ++ after') := by
    simpa using whole.symm.trans whole'
  obtain ⟨start, rest⟩ := List.append_inj both same
  exact ⟨start, List.append_cancel_left rest⟩

theorem FirstAt.unique {before' after' : List Char} (here : FirstAt sep text before after)
    (there : FirstAt sep text before' after') : before = before' ∧ after = after' :=
  divide_unique here.whole there.whole
    (Nat.le_antisymm (here.first _ _ there.whole) (there.first _ _ here.whole))

theorem LastAt.unique {before' after' : List Char} (here : LastAt sep text before after)
    (there : LastAt sep text before' after') : before = before' ∧ after = after' :=
  divide_unique here.whole there.whole
    (Nat.le_antisymm (there.last _ _ here.whole) (here.last _ _ there.whole))

/-! ## Cutting -/

/-- The separator occurs where it is cut, and not before. -/
theorem firstAt_of_cut (found : cut sep text = some (before, after)) :
    FirstAt sep text before after := by
  refine ⟨cut_eq_append found, ?_⟩
  induction text generalizing before with
  | nil => cases sep <;> simp_all [cut]
  | cons c text ih =>
      rintro earlier later whole
      simp only [cut] at found
      split at found
      · obtain ⟨rfl, -⟩ := Prod.mk.inj (Option.some.inj found)
        exact Nat.zero_le _
      · next absent =>
        obtain ⟨parts, onward, same⟩ := Option.map_eq_some_iff.1 found
        obtain ⟨rfl, rfl⟩ := Prod.mk.inj same
        cases earlier with
        | nil =>
            have starts := afterStart?_eq_some_iff.2 whole
            rw [List.nil_append, absent] at starts
            cases starts
        | cons d earlier => exact Nat.succ_le_succ (ih onward earlier later (List.cons.inj whole).2)

theorem cut_isSome (occurs : sep <:+: text) : ∃ parts, cut sep text = some parts := by
  induction text with
  | nil =>
      obtain rfl : sep = [] := by simpa using occurs
      exact ⟨_, rfl⟩
  | cons c text ih =>
      rw [cut]
      split
      · exact ⟨_, rfl⟩
      · next absent =>
        rcases List.infix_cons_iff.1 occurs with ⟨rest, starts⟩ | inside
        · rw [afterStart?_eq_some_iff.2 starts.symm] at absent
          cases absent
        · obtain ⟨parts, found⟩ := ih inside
          exact ⟨_, by rw [found]; rfl⟩

/-- A text is cut where the separator first occurs. -/
theorem cut_eq_some_iff : cut sep text = some (before, after) ↔ FirstAt sep text before after := by
  constructor
  · exact firstAt_of_cut
  · intro here
    obtain ⟨⟨before', after'⟩, found⟩ := cut_isSome ⟨before, after, here.whole.symm⟩
    obtain ⟨rfl, rfl⟩ := here.unique (firstAt_of_cut found)
    exact found

theorem cutLast_isSome (occurs : sep <:+: text) : ∃ parts, cutLast sep text = some parts := by
  induction text with
  | nil =>
      obtain rfl : sep = [] := by simpa using occurs
      exact ⟨_, rfl⟩
  | cons c text ih =>
      rw [cutLast]
      split
      · exact ⟨_, rfl⟩
      · next absent =>
        rcases List.infix_cons_iff.1 occurs with ⟨rest, starts⟩ | inside
        · exact ⟨_, by rw [afterStart?_eq_some_iff.2 starts.symm]; rfl⟩
        · obtain ⟨parts, found⟩ := ih inside
          rw [absent] at found
          cases found

theorem cut_eq_none_iff : cut sep text = none ↔ ¬ sep <:+: text := by
  constructor
  · intro nowhere occurs
    obtain ⟨parts, found⟩ := cut_isSome occurs
    cases nowhere.symm.trans found
  · intro absent
    rw [Option.eq_none_iff_forall_not_mem]
    exact fun parts found => absent ⟨parts.1, parts.2, (cut_eq_append found).symm⟩

theorem cutLast_eq_none_iff : cutLast sep text = none ↔ ¬ sep <:+: text := by
  constructor
  · intro nowhere occurs
    obtain ⟨parts, found⟩ := cutLast_isSome occurs
    cases nowhere.symm.trans found
  · intro absent
    rw [Option.eq_none_iff_forall_not_mem]
    exact fun parts found => absent ⟨parts.1, parts.2, (cutLast_eq_append found).symm⟩

/-- The separator occurs where it is cut from the end, and not behind. -/
theorem lastAt_of_cutLast (found : cutLast sep text = some (before, after)) :
    LastAt sep text before after := by
  refine ⟨cutLast_eq_append found, ?_⟩
  induction text generalizing before with
  | nil =>
      rintro earlier later whole
      obtain ⟨⟨rfl, -⟩, -⟩ := by simpa using whole
      exact Nat.zero_le _
  | cons c text ih =>
      rintro earlier later whole
      cases earlier with
      | nil => exact Nat.zero_le _
      | cons d earlier =>
          have onward : text = earlier ++ sep ++ later := (List.cons.inj whole).2
          obtain ⟨parts, behind⟩ := cutLast_isSome ⟨earlier, later, onward.symm⟩
          rw [cutLast, behind] at found
          obtain ⟨rfl, rfl⟩ := Prod.mk.inj (Option.some.inj found)
          exact Nat.succ_le_succ (ih behind earlier later onward)

/-- A text is cut from the end where the separator last occurs. -/
theorem cutLast_eq_some_iff :
    cutLast sep text = some (before, after) ↔ LastAt sep text before after := by
  constructor
  · exact lastAt_of_cutLast
  · intro here
    obtain ⟨⟨before', after'⟩, found⟩ := cutLast_isSome ⟨before, after, here.whole.symm⟩
    obtain ⟨rfl, rfl⟩ := here.unique (lastAt_of_cutLast found)
    exact found

/-- What is left after the last occurrence of a separator does not hold it. -/
theorem cutLast_after (filled : sep ≠ []) (found : cutLast sep text = some (before, after)) :
    ¬ sep <:+: after := by
  have here := lastAt_of_cutLast found
  intro inside
  obtain ⟨left, right, rfl⟩ := inside
  have again : text = (before ++ sep ++ left) ++ sep ++ right := by rw [here.whole]; simp
  have no_later := here.last _ _ again
  have some_sep := List.length_pos_of_ne_nil filled
  simp only [List.length_append] at no_later
  omega

/-! ## Rewriting one side -/

/-- An earlier occurrence ends before the text after the first one begins. -/
theorem FirstAt.withAfter (here : FirstAt sep text before after) (after' : List Char) :
    FirstAt sep (before ++ sep ++ after') before after' := by
  refine ⟨rfl, fun earlier later whole => ?_⟩
  by_contra sooner
  have short : (earlier ++ sep).length ≤ (before ++ sep).length := by simp; omega
  obtain ⟨between, joined⟩ : earlier ++ sep <+: before ++ sep :=
    List.prefix_of_prefix_length_le ⟨later, whole.symm⟩ ⟨after', rfl⟩ short
  exact sooner (here.first earlier (between ++ after) (by
    rw [here.whole, ← joined, List.append_assoc _ between]))

/-- A later occurrence begins behind the text before the last one. -/
theorem LastAt.withBefore (here : LastAt sep text before after) (before' : List Char) :
    LastAt sep (before' ++ sep ++ after) before' after := by
  refine ⟨rfl, fun earlier later whole => ?_⟩
  by_contra later_on
  have short : (sep ++ later).length ≤ (sep ++ after).length := by
    have total := congrArg List.length whole
    simp only [List.length_append] at total ⊢
    omega
  have ends : sep ++ later <:+ before' ++ sep ++ after := ⟨earlier, by simpa using whole.symm⟩
  obtain ⟨between, joined⟩ : sep ++ later <:+ sep ++ after :=
    List.suffix_of_suffix_length_le ends ⟨before', by simp⟩ short
  have placed := here.last (before ++ between) later (by
    rw [here.whole, List.append_assoc, ← joined]
    simp)
  have total := congrArg List.length joined
  have total' := congrArg List.length whole
  simp only [List.length_append] at placed total total'
  omega

end ComposeStability.Text
