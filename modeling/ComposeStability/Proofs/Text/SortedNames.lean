/-
# Proofs.Text.SortedNames -- lists without repeated neighbours

Names are listed by sorting them and dropping each that repeats its neighbour.
Dropping goes on from the first two elements (`eraseReps_cons_cons`), loses no
name (`mem_eraseReps`), and leaves each name once, in order
(`eraseReps_strict`).
-/

namespace ComposeStability.Text

set_option autoImplicit false

theorem eraseRepsBy_loop {α : Type} (r : α → α → Bool) (a : α) (rest kept : List α) :
    List.eraseRepsBy.loop r a rest kept = kept.reverse ++ List.eraseRepsBy.loop r a rest [] := by
  induction rest generalizing a kept with
  | nil => simp [List.eraseRepsBy.loop]
  | cons b rest ih =>
      simp only [List.eraseRepsBy.loop]
      cases r a b with
      | true => exact ih a kept
      | false =>
          rw [ih b (a :: kept), ih b [a]]
          simp

variable {α : Type} [BEq α]

@[simp] theorem eraseReps_nil : ([] : List α).eraseReps = [] := rfl

@[simp] theorem eraseReps_singleton (a : α) : [a].eraseReps = [a] := rfl

theorem eraseReps_cons_cons (a b : α) (rest : List α) :
    (a :: b :: rest).eraseReps =
      if a == b then (a :: rest).eraseReps else a :: (b :: rest).eraseReps := by
  simp only [List.eraseReps, List.eraseRepsBy, List.eraseRepsBy.loop]
  cases a == b with
  | true => rfl
  | false => exact eraseRepsBy_loop _ b rest [a]

@[simp] theorem mem_eraseReps [LawfulBEq α] {x : α} : ∀ {xs : List α}, x ∈ xs.eraseReps ↔ x ∈ xs
  | [] => by simp
  | [a] => by simp
  | a :: b :: rest => by
      rw [eraseReps_cons_cons]
      by_cases same : a = b
      · rw [if_pos (by simpa using same), mem_eraseReps]
        simp [same]
      · rw [if_neg (by simpa using same), List.mem_cons, mem_eraseReps]
        simp
termination_by xs => xs.length

/-- Without repeated neighbours a sorted list is strictly sorted. -/
theorem eraseReps_strict : ∀ {names : List String}, names.Pairwise (· ≤ ·) →
    names.eraseReps.Pairwise (· < ·)
  | [], _ => by simp
  | [a], _ => by simp
  | a :: b :: rest, sorted => by
      obtain ⟨first, later⟩ := List.pairwise_cons.1 sorted
      rw [eraseReps_cons_cons]
      by_cases same : a = b
      · subst same
        rw [if_pos (by simp)]
        exact eraseReps_strict later
      · rw [if_neg (by simpa using same)]
        refine List.pairwise_cons.2 ⟨fun name listed => ?_, eraseReps_strict later⟩
        have between : b ≤ name := by
          rcases List.mem_cons.1 (mem_eraseReps.1 listed) with rfl | behind
          · exact String.le_refl _
          · exact List.rel_of_pairwise_cons later behind
        exact String.not_le.1 fun back => same
          (String.le_antisymm (first b List.mem_cons_self) (String.le_trans between back))
termination_by names => names.length

end ComposeStability.Text
