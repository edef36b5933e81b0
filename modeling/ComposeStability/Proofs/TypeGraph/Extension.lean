/-
# Proofs.TypeGraph.Extension -- answers stay when more is answered

A type graph extends another if it describes the same types and answers all that
the other answers, to a depth that is no smaller.  A search or a walk that ended
with an answer did so on answers alone, so it ends with the same answer in the
extension (`Extends.classify`).
-/
import ComposeStability.Proofs.Outcome
import ComposeStability.TypeGraph.Classify

namespace ComposeStability.TypeGraph

set_option autoImplicit false

open Stability (Verdict)

/-! ## Answers that stay -/

/-- Whatever the first answers, the second answers too. -/
def Stays {ε α : Type} (x y : Except ε α) : Prop := ∀ a, x = .ok a → y = .ok a

namespace Stays

variable {ε α β : Type}

theorem refl (x : Except ε α) : Stays x x := fun _ found => found

theorem error (failure : ε) (y : Except ε α) : Stays (.error failure) y :=
  fun _ found => nomatch found

theorem bind {x y : Except ε α} {f f' : α → Except ε β} (first : Stays x y)
    (next : ∀ a, Stays (f a) (f' a)) : Stays (x >>= f) (y >>= f') := by
  intro b found
  obtain ⟨a, here, later⟩ := bind_eq_ok.1 found
  exact bind_eq_ok.2 ⟨a, first a here, next a b later⟩

theorem after (x : Except ε α) {f f' : α → Except ε β} (next : ∀ a, Stays (f a) (f' a)) :
    Stays (x >>= f) (x >>= f') := (refl x).bind next

theorem ite {c : Prop} [Decidable c] {x x' y y' : Except ε α} (yes : Stays x x')
    (no : Stays y y') : Stays (if c then x else y) (if c then x' else y') := by
  split
  · exact yes
  · exact no

end Stays

/-- An answer, or another one where there is none. -/
def answerOr {ε α : Type} (fallback : α) : Except ε α → Except ε α
  | .ok a => .ok a
  | .error _ => .ok fallback

theorem stays_answerOr {ε α : Type} (fallback : α) (x : Except ε α) :
    Stays x (answerOr fallback x) := by
  rintro a rfl
  rfl

theorem answerOr_answers {ε α : Type} (fallback : α) (x : Except ε α) :
    ∃ a, answerOr fallback x = .ok a := by
  cases x with
  | ok a => exact ⟨a, rfl⟩
  | error failure => exact ⟨fallback, rfl⟩

/-! ## Extensions -/

variable {τ : Type}

/-- `g'` describes the same types as `g`, answers whatever `g` answers, and is no less deep. -/
structure Extends (g g' : TypeGraph τ) : Prop where
  kind : ∀ t, Stays (g.kind t) (g'.kind t)
  markers : ∀ t, Stays (g.markers t) (g'.markers t)
  key : ∀ t, g.key t = g'.key t
  name : ∀ t, g.name t = g'.name t
  text : ∀ t, g.text t = g'.text t
  elem : ∀ t, g.elem t = g'.elem t
  members : ∀ t, g.members t = g'.members t
  supertypes : ∀ t, g.supertypes t = g'.supertypes t
  depth : g.depth ≤ g'.depth

namespace Extends

variable {g g' : TypeGraph τ} {patterns : List Pattern}

theorem searchAnyMarked {fuel fuel' : Nat}
    (each : ∀ seen t, Stays (searchMarked g fuel seen t) (searchMarked g' fuel' seen t))
    (types : List (Option τ)) (seen : List String) :
    Stays (TypeGraph.searchAnyMarked g fuel seen types)
      (TypeGraph.searchAnyMarked g' fuel' seen types) := by
  induction types generalizing seen with
  | nil =>
      rw [TypeGraph.searchAnyMarked, TypeGraph.searchAnyMarked]
      exact .refl _
  | cons t types ih =>
      rw [TypeGraph.searchAnyMarked, TypeGraph.searchAnyMarked]
      refine (each seen t).bind ?_
      rintro ⟨found, seen⟩
      exact .ite (.refl _) (ih seen)

theorem searchMarked (extended : Extends g g') {fuel fuel' : Nat} (more : fuel ≤ fuel')
    (seen : List String) (t : Option τ) :
    Stays (TypeGraph.searchMarked g fuel seen t) (TypeGraph.searchMarked g' fuel' seen t) := by
  induction fuel generalizing fuel' seen t with
  | zero =>
      cases t with
      | none =>
          rw [TypeGraph.searchMarked, TypeGraph.searchMarked]
          exact .refl _
      | some t =>
          rw [TypeGraph.searchMarked]
          exact .error _ _
  | succ fuel ih =>
      cases t with
      | none =>
          rw [TypeGraph.searchMarked, TypeGraph.searchMarked]
          exact .refl _
      | some t =>
          obtain ⟨fuel', rfl⟩ : ∃ n, fuel' = n + 1 := ⟨fuel' - 1, by omega⟩
          rw [TypeGraph.searchMarked, TypeGraph.searchMarked, ← extended.key t,
            ← extended.supertypes t]
          refine (extended.markers t).bind fun markers => .ite (.refl _) ?_
          refine .after _ fun key => .ite (.refl _) (.after _ fun supertypes => ?_)
          exact searchAnyMarked (fun seen t => ih (by omega) seen t) _ _

theorem declaredStable (extended : Extends g g') (t : τ) :
    Stays (TypeGraph.declaredStable g t) (TypeGraph.declaredStable g' t) :=
  (extended.searchMarked (Nat.succ_le_succ extended.depth) [] (some t)).bind fun _ => .refl _

theorem unwrap (extended : Extends g g') {fuel fuel' : Nat} (more : fuel ≤ fuel')
    (t : Option τ) : Stays (TypeGraph.unwrap g fuel t) (TypeGraph.unwrap g' fuel' t) := by
  induction fuel generalizing fuel' t with
  | zero =>
      cases t with
      | none =>
          rw [TypeGraph.unwrap, TypeGraph.unwrap]
          exact .refl _
      | some t => exact .error _ _
  | succ fuel ih =>
      cases t with
      | none =>
          rw [TypeGraph.unwrap, TypeGraph.unwrap]
          exact .refl _
      | some t =>
          obtain ⟨fuel', rfl⟩ : ∃ n, fuel' = n + 1 := ⟨fuel' - 1, by omega⟩
          rw [TypeGraph.unwrap, TypeGraph.unwrap, ← extended.elem t]
          refine (extended.kind t).bind fun kind => .ite (.after _ fun elem => ?_) (.refl _)
          exact ih (by omega) elem

/-! ## The walk -/

section
variable {fuel fuel' : Nat} {visiting : List String}

theorem memberVerdict (extended : Extends g g') (t : τ) (member : String) (verdict : Verdict) :
    TypeGraph.memberVerdict g t member verdict = TypeGraph.memberVerdict g' t member verdict := by
  unfold TypeGraph.memberVerdict
  rw [extended.text]

theorem walkMembers (extended : Extends g g') (owner : τ)
    (each : ∀ t, Stays (walk g patterns fuel visiting t) (walk g' patterns fuel' visiting t))
    (members : List (Member τ)) :
    Stays (TypeGraph.walkMembers g patterns fuel visiting owner members)
      (TypeGraph.walkMembers g' patterns fuel' visiting owner members) := by
  induction members with
  | nil =>
      rw [TypeGraph.walkMembers, TypeGraph.walkMembers]
      exact .refl _
  | cons m members ih =>
      rw [TypeGraph.walkMembers, TypeGraph.walkMembers]
      refine (each m.type).bind fun verdict => ?_
      rw [extended.memberVerdict]
      exact .after _ fun named => ih.bind fun rest => .refl _

theorem walkAll
    (each : ∀ t, Stays (walk g patterns fuel visiting t) (walk g' patterns fuel' visiting t))
    (types : List (Option τ)) :
    Stays (TypeGraph.walkAll g patterns fuel visiting types)
      (TypeGraph.walkAll g' patterns fuel' visiting types) := by
  induction types with
  | nil =>
      rw [TypeGraph.walkAll, TypeGraph.walkAll]
      exact .refl _
  | cons t types ih =>
      rw [TypeGraph.walkAll, TypeGraph.walkAll]
      exact (each t).bind fun verdict => ih.bind fun rest => .refl _

theorem walkParts (extended : Extends g g')
    (each : ∀ visiting t,
      Stays (walk g patterns fuel visiting t) (walk g' patterns fuel' visiting t))
    (t : τ) (supertypes : Except Failure (List (Option τ))) :
    Stays (TypeGraph.walkParts g patterns fuel visiting t supertypes)
      (TypeGraph.walkParts g' patterns fuel' visiting t supertypes) := by
  rw [TypeGraph.walkParts, TypeGraph.walkParts, ← extended.key t, ← extended.text t,
    ← extended.members t]
  refine .after _ fun key => .ite (.refl _) (.after _ fun above => .after _ fun members => ?_)
  split
  · exact .refl _
  · refine (extended.walkMembers t (each _) members).bind fun own => ?_
    exact (walkAll (each _) above).bind fun _ => .refl _

end

/-- A walk that ends with an answer ends with it in an extension. -/
theorem walk (extended : Extends g g') {fuel fuel' : Nat} (more : fuel ≤ fuel')
    (visiting : List String) (start : Option τ) :
    Stays (TypeGraph.walk g patterns fuel visiting start)
      (TypeGraph.walk g' patterns fuel' visiting start) := by
  induction fuel generalizing fuel' visiting start with
  | zero =>
      rw [TypeGraph.walk]
      exact .error _ _
  | succ fuel ih =>
      obtain ⟨fuel', rfl⟩ : ∃ n, fuel' = n + 1 := ⟨fuel' - 1, by omega⟩
      have each (visiting : List String) (t : Option τ) :
          Stays (TypeGraph.walk g patterns fuel visiting t)
            (TypeGraph.walk g' patterns fuel' visiting t) := ih (by omega) visiting t
      have parts (t : τ) (supertypes : Except Failure (List (Option τ))) :
          Stays (TypeGraph.walkParts g patterns fuel visiting t supertypes)
            (TypeGraph.walkParts g' patterns fuel' visiting t supertypes) :=
        extended.walkParts each t supertypes
      rw [TypeGraph.walk, TypeGraph.walk]
      refine (extended.unwrap (Nat.succ_le_succ extended.depth) start).bind fun behind => ?_
      cases behind with
      | none => exact .refl _
      | some t =>
          simp only [← extended.key t, ← extended.name t, ← extended.text t, ← extended.elem t,
            ← extended.supertypes t]
          refine (extended.kind t).bind fun kind => ?_
          -- the same questions in the same order; `split` goes on after each that decides alone
          split
          · exact .refl _
          · exact .refl _
          · refine .after _ fun name => .ite (.refl _) ?_
            refine (extended.declaredStable t).bind fun declared => ?_
            refine .ite (.refl _) (.ite (.refl _) (.ite (.refl _) ?_))
            split
            · exact .refl _
            · exact .refl _
            · exact .refl _
            · exact .refl _
            · exact .after _ fun key => .ite (.refl _) (.after _ fun elem => each _ _)
            · refine (extended.markers t).bind fun markers => .ite (parts t (.ok [])) ?_
              split
              · exact parts t _
              · exact .refl _
              · exact .refl _

/-- Classification that ends with a verdict ends with it in an extension. -/
theorem classify (extended : Extends g g') (t : Option τ) :
    Stays (TypeGraph.classify g patterns t) (TypeGraph.classify g' patterns t) := by
  cases t with
  | none => exact .refl _
  | some t =>
      rw [TypeGraph.classify, TypeGraph.classify, ← extended.key t]
      exact .after _ fun _ => extended.walk (Nat.succ_le_succ extended.depth) [] (some t)

end Extends

end ComposeStability.TypeGraph
