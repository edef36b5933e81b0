/-
# Proofs.Outcome -- computations that can fail

A sequence of computations succeeds if each of them does (`bind_eq_ok`), and two
sequences that agree step by step end alike (`Agree.bind_eq`).  So what is read
from every element of a list is decided element by element (`mapM_map_ok`,
`eq_map_of_mapM_ok`).
-/
import Mathlib.Data.List.Forall2

namespace ComposeStability

set_option autoImplicit false

variable {ε α β γ : Type}

/-- A sequence succeeds if both parts do. -/
theorem bind_eq_ok {first : Except ε α} {next : α → Except ε β} {result : β} :
    first >>= next = .ok result ↔ ∃ value, first = .ok value ∧ next value = .ok result := by
  cases first with
  | error failure => simp [bind, Except.bind]
  | ok value => simp [bind, Except.bind]

section
variable {outcome : Except ε α} {f : α → β}

theorem map_eq_ok {result : β} :
    outcome.map f = .ok result ↔ ∃ value, outcome = .ok value ∧ f value = result := by
  cases outcome <;> simp [Except.map]

theorem map_eq_error {failure : ε} : outcome.map f = .error failure ↔ outcome = .error failure := by
  cases outcome <;> simp [Except.map]

end

/-- Computations that fail alike, or succeed with related results. -/
inductive Agree (R : α → β → Prop) : Except ε α → Except ε β → Prop where
  | error (failure : ε) : Agree R (.error failure) (.error failure)
  | ok {a : α} {b : β} (related : R a b) : Agree R (.ok a) (.ok b)

/-- What follows on related results ends alike. -/
theorem Agree.bind_eq {R : α → β → Prop} {x : Except ε α} {y : Except ε β}
    {next : α → Except ε γ} {next' : β → Except ε γ} (agree : Agree R x y)
    (same : ∀ a b, R a b → next a = next' b) : x >>= next = y >>= next' := by
  cases agree with
  | error failure => rfl
  | ok related => exact same _ _ related

section
variable {δ : Type} {outcome : Except ε α} {f : ε → δ}

theorem mapError_eq_ok {result : α} : outcome.mapError f = .ok result ↔ outcome = .ok result := by
  cases outcome <;> simp [Except.mapError]

theorem mapError_eq_error {failure : δ} :
    outcome.mapError f = .error failure ↔ ∃ cause, outcome = .error cause ∧ f cause = failure := by
  cases outcome <;> simp [Except.mapError]

end

/-- What stands in one of two related lists has a counterpart in the other. -/
theorem exists_of_forall₂ {R : α → β → Prop} {xs : List α} {ys : List β}
    (each : List.Forall₂ R xs ys) {x : α} (member : x ∈ xs) : ∃ y ∈ ys, R x y := by
  induction each with
  | nil => simp at member
  | cons here rest ih =>
      rcases List.mem_cons.1 member with rfl | later
      · exact ⟨_, List.mem_cons_self, here⟩
      · obtain ⟨y, listed, found⟩ := ih later
        exact ⟨y, List.mem_cons_of_mem _ listed, found⟩

/-- What is made of the items of two lists is the same if it is at each position. -/
theorem filterMap_of_forall₂ {f : α → Option γ} {g : β → Option γ} {as : List α} {bs : List β}
    (each : List.Forall₂ (fun a b => g b = f a) as bs) : bs.filterMap g = as.filterMap f := by
  induction each with
  | nil => rfl
  | cons here _ ih => rw [List.filterMap_cons, List.filterMap_cons, here, ih]

theorem flatMap_of_forall₂ {f : α → List γ} {g : β → List γ} {as : List α} {bs : List β}
    (each : List.Forall₂ (fun a b => g b = f a) as bs) : bs.flatMap g = as.flatMap f := by
  induction each with
  | nil => rfl
  | cons here _ ih => rw [List.flatMap_cons, List.flatMap_cons, here, ih]

/-- Items of two lists that are the same at each position are related if that follows. -/
theorem forall₂_of_map_eq {f : α → γ} {f' : β → γ} {P : α → β → Prop} {as : List α} {bs : List β}
    (same : as.map f = bs.map f')
    (related : ∀ a ∈ as, ∀ b ∈ bs, f a = f' b → P a b) : List.Forall₂ P as bs := by
  induction as generalizing bs with
  | nil =>
      obtain rfl : bs = [] := by simpa using same.symm
      exact .nil
  | cons a as ih =>
      cases bs with
      | nil => simp at same
      | cons b bs =>
          obtain ⟨first, rest⟩ := List.cons.inj same
          exact .cons (related a List.mem_cons_self b List.mem_cons_self first)
            (ih rest fun a' member b' member' =>
              related a' (List.mem_cons_of_mem a member) b' (List.mem_cons_of_mem b member'))

/-- A list is read exactly if each of its elements is. -/
theorem mapM_eq_ok_iff {read : β → Except ε γ} {bs : List β} {cs : List γ} :
    bs.mapM read = .ok cs ↔ List.Forall₂ (fun b c => read b = .ok c) bs cs := by
  induction bs generalizing cs with
  | nil => simp [pure, Except.pure, eq_comm]
  | cons b bs ih =>
      rw [List.mapM_cons, bind_eq_ok]
      constructor
      · rintro ⟨c, here, found⟩
        obtain ⟨rest, later, found⟩ := bind_eq_ok.1 found
        obtain rfl : c :: rest = cs := Except.ok.inj found
        exact .cons here (ih.1 later)
      · rintro (_ | ⟨here, later⟩)
        exact ⟨_, here, bind_eq_ok.2 ⟨_, ih.2 later, rfl⟩⟩

theorem mapM_map_ok {write : α → β} {read : β → Except ε γ} {result : α → γ} {xs : List α}
    (each : ∀ x ∈ xs, read (write x) = .ok (result x)) :
    (xs.map write).mapM read = .ok (xs.map result) := by
  rw [mapM_eq_ok_iff, List.forall₂_map_left_iff, List.forall₂_map_right_iff]
  exact List.forall₂_same.2 each

/-- If whatever is read was written so, a list that is read was written element by element. -/
theorem eq_map_of_mapM_ok {write : γ → β} {read : β → Except ε γ}
    (inverse : ∀ {b c}, read b = .ok c → b = write c) {bs : List β} {cs : List γ}
    (found : bs.mapM read = .ok cs) : bs = cs.map write := by
  have written := (mapM_eq_ok_iff.1 found).imp fun _ _ => inverse
  rw [← List.forall₂_map_right_iff, List.forall₂_eq_eq_eq] at written
  exact written

end ComposeStability
