/-
# Proofs.TypeGraph.Reasons -- what the reasons of a verdict are made of

A step of the walk answers by itself, asks for the type inside a wrapper, or
combines the verdicts on the parts of a type (`walk_cases`).  The reasons that
it gives are put together from the texts of the types it meets and the names of
their members, and what this keeps holds of all of them (`Kept.classify`).  So
where these texts stand on one line, all reasons do (`classify_unbroken`), and
no reason is empty (`kept_spoken`).
-/
import ComposeStability.Proofs.Outcome
import ComposeStability.Proofs.Stability.Combine
import ComposeStability.Proofs.TypeGraph.Chart
import Mathlib.Data.Option.Basic

namespace ComposeStability.TypeGraph

set_option autoImplicit false

open Stability (Verdict Obstacle)

variable {τ : Type} {g : TypeGraph τ} {patterns : List Pattern} {fuel : Nat}
  {visiting : List String}

/-! ## Steps -/

/-- What a step of the walk can answer at a type. -/
inductive Answer (g : TypeGraph τ) (patterns : List Pattern) (fuel : Nat) (visiting : List String)
    (t : τ) : Verdict → Prop where
  | stable (reason : String) : Answer g patterns fuel visiting t (.stable reason)
  | parametric : Answer g patterns fuel visiting t (.obstacle (.parametric (g.textOf t)))
  | collection :
      Answer g patterns fuel visiting t (.unstable (g.textOf t ++ " is a mutable collection"))
  | recursive : Answer g patterns fuel visiting t (.runtime (g.textOf t) "recursive type reference")
  | hidden : Answer g patterns fuel visiting t (.runtime (g.textOf t) "")
  | unknown : Answer g patterns fuel visiting t (.unknown (g.textOf t))
  | wrapped {verdict : Verdict}
      (inside : walk g patterns fuel (g.keyOf t :: visiting) (g.elemOf t) = .ok verdict) :
      Answer g patterns fuel visiting t verdict
  | mutable {m : Member τ} (member : m ∈ g.membersOf t) :
      Answer g patterns fuel visiting t (.unstable (g.textOf t ++ "." ++ m.name ++ " is mutable"))
  | parts {supertypes : List (Option τ)} {own inherited : List Verdict}
      (above : supertypes ⊆ g.supertypesOf t)
      (members : walkMembers g patterns fuel (g.keyOf t :: visiting) t (g.membersOf t) =
        .ok own)
      (types : walkAll g patterns fuel (g.keyOf t :: visiting) supertypes = .ok inherited) :
      Answer g patterns fuel visiting t (.combine ((own ++ inherited).map some))

theorem walkParts_cases [g.Tells] {t : τ} {supertypes : List (Option τ)} {verdict : Verdict}
    (above : supertypes ⊆ g.supertypesOf t)
    (found : walkParts g patterns fuel visiting t (.ok supertypes) = .ok verdict) :
    Answer g patterns fuel visiting t verdict := by
  rw [walkParts_told] at found
  split at found
  · obtain rfl := Except.ok.inj found
    exact .recursive
  · split at found
    · next m first =>
      obtain rfl := Except.ok.inj found
      exact .mutable (List.mem_of_find?_eq_some first)
    · obtain ⟨own, members, found⟩ := bind_eq_ok.1 found
      obtain ⟨inherited, types, found⟩ := bind_eq_ok.1 found
      obtain rfl := Except.ok.inj found
      exact .parts above members types

/-- A step of the walk finds nothing behind the wrappers, or answers at the type it finds there. -/
theorem walk_cases [g.Tells] {start : Option τ} {verdict : Verdict}
    (found : walk g patterns (fuel + 1) visiting start = .ok verdict) :
    verdict = unresolved ∨ ∃ t, unwrap g (g.depth + 1) start = .ok (some t) ∧
      Answer g patterns fuel visiting t verdict := by
  rw [walk] at found
  cases behind : unwrap g (g.depth + 1) start with
  | error failure => simp [behind, bind, Except.bind] at found
  | ok target =>
      cases target with
      | none =>
          simp only [behind, bind, Except.bind, pure, Except.pure, Except.ok.injEq] at found
          exact .inl found.symm
      | some t =>
          refine .inr ⟨t, rfl, ?_⟩
          simp only [behind, bind, Except.bind, pure, Except.pure, Tells.key, Tells.name, Tells.text,
            Tells.elem, Tells.supertypes] at found
          split at found
          · cases found
          · next kind _ =>
            -- The questions in the order of the walk; each `split` is one of them.
            split at found
            · cases found; exact .parametric
            · cases found; exact .stable _
            split at found
            · cases found; exact .stable _
            split at found
            · cases found
            split at found
            · cases found; exact .stable _
            split at found
            · cases found; exact .stable _
            split at found
            · cases found; exact .collection
            split at found
            · cases found; exact .stable _
            · cases found; exact .stable _
            · cases found; exact .collection
            · cases found; exact .stable _
            · split at found
              · cases found; exact .recursive
              · exact .wrapped found
            split at found
            · cases found
            split at found
            · exact walkParts_cases (List.nil_subset _) found
            split at found
            · exact walkParts_cases (List.Subset.refl _) found
            · split at found
              · cases found; exact .hidden
              · cases found; exact .unknown
            · cases found; exact .unknown

theorem unwrap_closed [g.Tells] {good : τ → Prop} (elem : ∀ t u, good t → g.elemOf t = some u → good u)
    {depth : Nat} {start : Option τ} {t : τ} (given : ∀ u, start = some u → good u)
    (behind : unwrap g depth start = .ok (some t)) : good t := by
  induction depth generalizing start with
  | zero => cases start <;> simp [unwrap] at behind
  | succ depth ih =>
      cases start with
      | none => simp [unwrap] at behind
      | some u =>
          rw [unwrap] at behind
          cases kind : g.kind u with
          | error failure => simp [kind, bind, Except.bind] at behind
          | ok k =>
              simp only [kind, bind, Except.bind, Tells.elem] at behind
              split at behind
              · exact ih (fun v inside => elem u v (given u rfl) inside) behind
              · obtain rfl : u = t := Option.some.inj (Except.ok.inj behind)
                exact given u rfl

/-! ## What holds of every obstacle -/

/-- A property of obstacles that a walk over good types keeps: what a step says against a type has
it, naming a member keeps it, and neighbours of good types are good. -/
structure Kept (g : TypeGraph τ) (good : τ → Prop) (P : Obstacle → Prop) : Prop where
  elem : ∀ t u, good t → g.elemOf t = some u → good u
  members : ∀ t, good t → ∀ m ∈ g.membersOf t, ∀ u, m.type = some u → good u
  supertypes : ∀ t, good t → ∀ u, some u ∈ g.supertypesOf t → good u
  unresolved : P (.unknown "<unresolved>")
  parametric : ∀ t, good t → P (.parametric (g.textOf t))
  collection : ∀ t, good t → P (.unstable (g.textOf t ++ " is a mutable collection"))
  recursive : ∀ t, good t → P (.runtime (g.textOf t) "recursive type reference")
  hidden : ∀ t, good t → P (.runtime (g.textOf t) "")
  unknown : ∀ t, good t → P (.unknown (g.textOf t))
  mutable : ∀ t, good t → ∀ m ∈ g.membersOf t,
    P (.unstable (g.textOf t ++ "." ++ m.name ++ " is mutable"))
  inMember : ∀ t, good t → ∀ m ∈ g.membersOf t, ∀ reason, P (.unstable reason) →
    P (.unstable (g.textOf t ++ "." ++ m.name ++ ": " ++ reason))

section
variable {P : Obstacle → Prop}

theorem each_obstacle {o : Obstacle} (here : P o) :
    ∀ other ∈ (Verdict.obstacle o).obstacles, P other := by
  intro other listed
  obtain rfl : other = o := List.mem_singleton.1 listed
  exact here

theorem each_inMember {owner member : String}
    (named : ∀ reason, P (.unstable reason) →
      P (.unstable (owner ++ "." ++ member ++ ": " ++ reason)))
    {verdict : Verdict} (each : ∀ o ∈ verdict.obstacles, P o) :
    ∀ o ∈ (inMember owner member verdict).obstacles, P o := by
  cases verdict with
  | stable reason => exact each
  | combined parts => exact each
  | obstacle o =>
      cases o with
      | unstable reason => exact each_obstacle (named reason (each _ List.mem_cons_self))
      | runtime typeName reason => exact each
      | unknown declaration => exact each
      | parametric parameter => exact each

theorem each_combine {verdicts : List Verdict}
    (each : ∀ v ∈ verdicts, ∀ o ∈ v.obstacles, P o) :
    ∀ o ∈ (Verdict.combine (verdicts.map some)).obstacles, P o := by
  intro o listed
  have kept := Verdict.dropRepeats_subset _ listed
  simp only [Verdict.sortByText, List.mem_mergeSort, List.mem_flatMap, List.mem_map] at kept
  obtain ⟨_, ⟨v, given, rfl⟩, found⟩ := kept
  exact each v given o found

end

namespace Kept

variable {good : τ → Prop} {P : Obstacle → Prop}

theorem walkMembers [g.Tells] {owner : τ}
    (each : ∀ {start}, (∀ t, start = some t → good t) → ∀ {verdict},
      walk g patterns fuel visiting start = .ok verdict → ∀ o ∈ verdict.obstacles, P o)
    {members : List (Member τ)} (known : ∀ m ∈ members, ∀ u, m.type = some u → good u)
    (named : ∀ m ∈ members, ∀ reason, P (.unstable reason) →
      P (.unstable (g.textOf owner ++ "." ++ m.name ++ ": " ++ reason)))
    {verdicts : List Verdict}
    (found : TypeGraph.walkMembers g patterns fuel visiting owner members = .ok verdicts) :
    ∀ v ∈ verdicts, ∀ o ∈ v.obstacles, P o := by
  induction members generalizing verdicts with
  | nil =>
      rw [TypeGraph.walkMembers] at found
      cases found
      simp
  | cons m members ih =>
      rw [walkMembers_told] at found
      obtain ⟨verdict, here, found⟩ := bind_eq_ok.1 found
      obtain ⟨rest, later, found⟩ := bind_eq_ok.1 found
      cases found
      rw [List.forall_mem_cons] at known named ⊢
      exact ⟨each_inMember named.1 (each known.1 here), ih known.2 named.2 later⟩

theorem walkAll
    (each : ∀ {start}, (∀ t, start = some t → good t) → ∀ {verdict},
      walk g patterns fuel visiting start = .ok verdict → ∀ o ∈ verdict.obstacles, P o)
    {types : List (Option τ)} (known : ∀ u, some u ∈ types → good u) {verdicts : List Verdict}
    (found : TypeGraph.walkAll g patterns fuel visiting types = .ok verdicts) :
    ∀ v ∈ verdicts, ∀ o ∈ v.obstacles, P o := by
  induction types generalizing verdicts with
  | nil =>
      rw [TypeGraph.walkAll] at found
      cases found
      simp
  | cons t types ih =>
      rw [TypeGraph.walkAll] at found
      obtain ⟨verdict, here, found⟩ := bind_eq_ok.1 found
      obtain ⟨rest, later, found⟩ := bind_eq_ok.1 found
      cases found
      rw [List.forall_mem_cons]
      refine ⟨each (fun u same => known u (by simp [same])) here, ?_⟩
      exact ih (fun u member => known u (List.mem_cons_of_mem t member)) later

/-- Every obstacle found on a walk over good types has the property. -/
theorem walk [g.Tells] (kept : g.Kept good P) {visiting : List String} {start : Option τ}
    (given : ∀ t, start = some t → good t) {verdict : Verdict}
    (found : TypeGraph.walk g patterns fuel visiting start = .ok verdict) :
    ∀ o ∈ verdict.obstacles, P o := by
  induction fuel generalizing visiting start verdict with
  | zero =>
      rw [TypeGraph.walk] at found
      cases found
  | succ fuel ih =>
      rcases walk_cases found with rfl | ⟨t, behind, answer⟩
      · exact each_obstacle kept.unresolved
      · have known : good t := unwrap_closed kept.elem given behind
        cases answer with
        | stable reason => exact fun o listed => absurd listed (by simp [Verdict.obstacles])
        | parametric => exact each_obstacle (kept.parametric t known)
        | collection => exact each_obstacle (kept.collection t known)
        | recursive => exact each_obstacle (kept.recursive t known)
        | hidden => exact each_obstacle (kept.hidden t known)
        | unknown => exact each_obstacle (kept.unknown t known)
        | wrapped inside => exact ih (fun u found => kept.elem t u known found) inside
        | mutable member => exact each_obstacle (kept.mutable t known _ member)
        | parts above members types =>
            refine each_combine fun v listed => ?_
            rcases List.mem_append.1 listed with own | inherited
            · exact walkMembers ih (kept.members t known) (kept.inMember t known) members v own
            · exact walkAll ih (fun u listed => kept.supertypes t known u (above listed))
                types v inherited

theorem classify [g.Tells] (kept : g.Kept good P) {t : Option τ} (given : ∀ u, t = some u → good u)
    {verdict : Verdict} (found : TypeGraph.classify g patterns t = .ok verdict) :
    ∀ o ∈ verdict.obstacles, P o := by
  cases t with
  | none =>
      obtain rfl := Except.ok.inj found
      exact each_obstacle kept.unresolved
  | some t => exact kept.walk given ((classify_told patterns t).symm.trans found)

end Kept

/-! ## Reasons on one line -/

/-- What a verdict says against a type stands on one line. -/
def Unbroken (verdict : Verdict) : Prop := ∀ o ∈ verdict.obstacles, '\n' ∉ o.explain.toList

theorem line_append {s t : String} (first : '\n' ∉ s.toList) (second : '\n' ∉ t.toList) :
    '\n' ∉ (s ++ t).toList := by
  rw [String.toList_append, List.mem_append, not_or]
  exact ⟨first, second⟩

theorem dot_line : '\n' ∉ ".".toList := by decide

theorem colon_line : '\n' ∉ ": ".toList := by decide

/-- Types whose text and whose members' names stand on one line, as do those of their neighbours. -/
structure Lined (g : TypeGraph τ) (good : τ → Prop) : Prop where
  text : ∀ t, good t → '\n' ∉ (g.textOf t).toList
  elem : ∀ t u, good t → g.elemOf t = some u → good u
  members : ∀ t, good t → ∀ m ∈ g.membersOf t, '\n' ∉ m.name.toList ∧ ∀ u, m.type = some u → good u
  supertypes : ∀ t, good t → ∀ u, some u ∈ g.supertypesOf t → good u

namespace Lined

variable {good : τ → Prop}

theorem kept (lined : g.Lined good) : g.Kept good fun o => '\n' ∉ o.explain.toList where
  elem := lined.elem
  members t given m member := (lined.members t given m member).2
  supertypes := lined.supertypes
  unresolved := by decide
  parametric t given :=
    line_append (by decide : '\n' ∉ "depends on type parameter ".toList) (lined.text t given)
  collection t given :=
    line_append (lined.text t given) (by decide : '\n' ∉ " is a mutable collection".toList)
  recursive t given := line_append (line_append (lined.text t given) colon_line)
    (by decide : '\n' ∉ "recursive type reference".toList)
  hidden t given := line_append
    (line_append (by decide : '\n' ∉ "stability of ".toList) (lined.text t given))
    (by decide : '\n' ∉ " is decided at runtime".toList)
  unknown t given := line_append (lined.text t given)
    (by decide : '\n' ∉ " is an interface or abstract type".toList)
  mutable t given m member := by
    have name := (lined.members t given m member).1
    have place := line_append (line_append (lined.text t given) dot_line) name
    exact line_append place (by decide : '\n' ∉ " is mutable".toList)
  inMember t given m member reason line := by
    have name := (lined.members t given m member).1
    have place := line_append (line_append (lined.text t given) dot_line) name
    exact line_append (line_append place colon_line) line

/-- The reasons of a verdict on a type stand on one line. -/
theorem classify_unbroken [g.Tells] (lined : g.Lined good) {t : τ} (given : good t) {verdict : Verdict}
    (found : classify g patterns (some t) = .ok verdict) : Unbroken verdict :=
  lined.kept.classify (fun _ same => Option.some.inj same ▸ given) found

end Lined

/-! ## Reasons with a text -/

/-- Whatever speaks against a type says something. -/
theorem kept_spoken (g : TypeGraph τ) : g.Kept (fun _ => True) fun o => o ≠ .unstable "" where
  elem _ _ _ _ := trivial
  members _ _ _ _ _ _ := trivial
  supertypes _ _ _ _ := trivial
  unresolved := by simp
  parametric _ _ := by simp
  collection _ _ := by simp
  recursive _ _ := by simp
  hidden _ _ := by simp
  unknown _ _ := by simp
  mutable _ _ _ _ := by simp
  inMember _ _ _ _ _ _ := by simp

/-- A verdict that is not stable comes with a reason. -/
theorem classify_explained [g.Tells] {t : Option τ} {verdict : Verdict}
    (found : classify g patterns t = .ok verdict) (unstable : verdict.value ≠ .stable) :
    verdict.explain ≠ "" :=
  verdict.explain_ne_empty ((kept_spoken g).classify (fun _ _ => trivial) found) unstable

end ComposeStability.TypeGraph
