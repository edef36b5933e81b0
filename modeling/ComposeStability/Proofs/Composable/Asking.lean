/-
# Proofs.Composable.Asking -- questions asked one after the other

Items are asked about in order, from state to state, until one of them fails
(`askAll`).  What each question keeps of the state, all of them keep
(`askAll_keeps`); what each answer satisfies, the answers satisfy item by item
(`askAll_forall₂`); and two ways to ask that give the same answer about each item
give the same answers about all (`askAll_agrees`).  If the state does not decide
which items fail, the failure is that of the first of them
(`askAll_eq_error_iff`).
-/
import ComposeStability.Composable.Analysis
import ComposeStability.Proofs.Outcome

namespace ComposeStability.Composable

set_option autoImplicit false

open TypeGraph (Failure)

variable {σ σ' α β : Type} {ask : σ → α → Except Failure β × σ}
  {ask' : σ' → α → Except Failure β × σ'} {a : α} {as : List α} {s after : σ}

theorem askAll_cons_error {failure : Failure} (first : ask s a = (.error failure, after)) :
    askAll ask s (a :: as) = (.error failure, after) := by
  rw [askAll, first]

theorem askAll_cons_ok {b : β} (first : ask s a = (.ok b, after)) :
    askAll ask s (a :: as) =
      ((askAll ask after as).1.map (b :: ·), (askAll ask after as).2) := by
  rw [askAll, first]
  dsimp only
  rcases askAll ask after as with ⟨answers, last⟩
  cases answers <;> rfl

section
variable {holds : σ → Prop}

/-- What every question keeps, all of them keep. -/
theorem askAll_keeps (keeps : ∀ s, holds s → ∀ a ∈ as, holds (ask s a).2) (start : holds s) :
    holds (askAll ask s as).2 := by
  induction as generalizing s with
  | nil => exact start
  | cons a as ih =>
      have here := keeps s start a List.mem_cons_self
      have later := ih (fun s held b member => keeps s held b (List.mem_cons_of_mem _ member)) here
      rcases first : ask s a with ⟨failure | b, after⟩
      · rw [first] at here
        rwa [askAll_cons_error first]
      · rw [first] at later
        rwa [askAll_cons_ok first]

/-- What is answered about all items is answered about each of them. -/
theorem askAll_forall₂ {answered : α → β → Prop}
    (keeps : ∀ s, holds s → ∀ a ∈ as, holds (ask s a).2)
    (sound : ∀ s, holds s → ∀ a ∈ as, ∀ b, (ask s a).1 = .ok b → answered a b)
    (start : holds s) {bs : List β} (found : (askAll ask s as).1 = .ok bs) :
    List.Forall₂ answered as bs := by
  induction as generalizing s bs with
  | nil =>
      obtain rfl := Except.ok.inj found
      exact .nil
  | cons a as ih =>
      have kept := keeps s start a List.mem_cons_self
      have right := sound s start a List.mem_cons_self
      rcases first : ask s a with ⟨failure | b, after⟩
      · rw [askAll_cons_error first] at found
        cases found
      · rw [first] at kept right
        rw [askAll_cons_ok first] at found
        obtain ⟨rest, later, rfl⟩ := map_eq_ok.1 found
        exact .cons (right b rfl) (ih
          (fun s held c member => keeps s held c (List.mem_cons_of_mem _ member))
          (fun s held c member => sound s held c (List.mem_cons_of_mem _ member)) kept later)

end

theorem forall₂_of_askAll {answered : α → β → Prop}
    (sound : ∀ s, ∀ a ∈ as, ∀ b, (ask s a).1 = .ok b → answered a b) {bs : List β}
    (found : (askAll ask s as).1 = .ok bs) : List.Forall₂ answered as bs := by
  have keeps (s : σ) (_ : True) (a : α) (_ : a ∈ as) : True := trivial
  exact askAll_forall₂ keeps (fun s _ => sound s) trivial found

/-- If every question is answered, all of them are. -/
theorem askAll_returns (returns : ∀ s, ∀ a ∈ as, ∃ b, (ask s a).1 = .ok b) (s : σ) :
    ∃ bs, (askAll ask s as).1 = .ok bs := by
  induction as generalizing s with
  | nil => exact ⟨[], rfl⟩
  | cons a as ih =>
      obtain ⟨b, answer⟩ := returns s a List.mem_cons_self
      have first : ask s a = (.ok b, (ask s a).2) := Prod.ext answer rfl
      obtain ⟨bs, later⟩ := ih (fun s c member => returns s c (List.mem_cons_of_mem _ member))
        (ask s a).2
      exact ⟨b :: bs, by rw [askAll_cons_ok first, later]; rfl⟩

/-- Two ways to ask that give the same answer about each item give the same answers about all. -/
theorem askAll_agrees (both : σ → σ' → Prop)
    (agree : ∀ s s', both s s' → ∀ a ∈ as,
      (ask s a).1 = (ask' s' a).1 ∧ both (ask s a).2 (ask' s' a).2)
    (s' : σ') (start : both s s') :
    (askAll ask s as).1 = (askAll ask' s' as).1 ∧
      both (askAll ask s as).2 (askAll ask' s' as).2 := by
  induction as generalizing s s' with
  | nil => exact ⟨rfl, start⟩
  | cons a as ih =>
      obtain ⟨same, kept⟩ := agree s s' start a List.mem_cons_self
      rcases first : ask s a with ⟨answer, after⟩
      rcases second : ask' s' a with ⟨answer', after'⟩
      rw [first, second] at same kept
      obtain rfl : answer = answer' := same
      cases answer with
      | error failure =>
          rw [askAll_cons_error first, askAll_cons_error second]
          exact ⟨rfl, kept⟩
      | ok b =>
          obtain ⟨same, held⟩ := ih
            (fun s s' held c member => agree s s' held c (List.mem_cons_of_mem _ member)) _ kept
          rw [askAll_cons_ok first, askAll_cons_ok second, same]
          exact ⟨rfl, held⟩

/-- If the state does not decide which items fail, the first of them is the failure of all. -/
theorem askAll_eq_error_iff {fails? : α → Option Failure}
    (fails : ∀ s, ∀ a ∈ as, ∀ failure, (ask s a).1 = .error failure ↔ fails? a = some failure)
    (s : σ) (failure : Failure) :
    (askAll ask s as).1 = .error failure ↔ as.findSome? fails? = some failure := by
  induction as generalizing s with
  | nil => exact iff_of_false nofun nofun
  | cons a as ih =>
      have here := fails s a List.mem_cons_self
      rcases first : ask s a with ⟨cause | b, after⟩
      · rw [first] at here
        have found : fails? a = some cause := (here cause).1 rfl
        rw [askAll_cons_error first, List.findSome?_cons, found]
        simp
      · rw [first] at here
        have none : fails? a = none :=
          Option.eq_none_iff_forall_ne_some.2 fun cause found => nomatch (here cause).2 found
        rw [askAll_cons_ok first, List.findSome?_cons, none, map_eq_error]
        exact ih (fun s c member => fails s c (List.mem_cons_of_mem _ member)) after

end ComposeStability.Composable
