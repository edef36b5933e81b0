/-
# Proofs.TypeGraph.Bisimulation -- outcomes do not depend on how types are presented

Two type graphs may present the same types in different ways, one with more
nodes for the same type than the other.  If related types are wrappers together,
and behind the wrappers play the same role towards related types, then whatever
can be reached in one graph can be reached in the other (`Bisimulation`).

Keys and texts of related types may differ, so the walks cut their cycles at
different places.  The outcomes agree all the same, since they depend on
reachability alone (`Answered`).  Only of what is stable for good nothing need
be related any more (`Settled`): there an enumeration is as good as a wrapper of
a number.
-/
import ComposeStability.Proofs.Outcome
import ComposeStability.Proofs.TypeGraph.Reachability
import Mathlib.Data.List.Forall2
import Mathlib.Data.Option.Basic

namespace ComposeStability.TypeGraph

set_option autoImplicit false

open Relation (ReflTransGen TransGen)
open Stability (Value)

variable {τ τ' : Type}

/-! ## Related types -/

theorem Option.Rel.flip {R : τ → τ' → Prop} {a : Option τ} {a' : Option τ'}
    (related : Option.Rel R a a') : Option.Rel (fun t' t => R t t') a' a := by
  cases related with
  | none => exact .none
  | some related => exact .some related

/-- The same role towards related types. -/
inductive Role.Rel (R : τ → τ' → Prop) : Role τ → Role τ' → Prop where
  | stable : Role.Rel R .stable .stable
  | unstable : Role.Rel R .unstable .unstable
  | runtime : Role.Rel R .runtime .runtime
  | inner {parts : List (Option τ)} {parts' : List (Option τ')}
      (each : List.Forall₂ (Option.Rel R) parts parts') : Role.Rel R (.inner parts) (.inner parts')

theorem Role.Rel.flip {R : τ → τ' → Prop} {role : Role τ} {role' : Role τ'}
    (related : Role.Rel R role role') : Role.Rel (fun t' t => R t t') role' role := by
  cases related with
  | stable => exact .stable
  | unstable => exact .unstable
  | runtime => exact .runtime
  | inner each => exact .inner (each.flip.imp fun _ _ => Option.Rel.flip)

/-- Related types are wrappers together, of related types; otherwise they play the same role, or
are stable for good. -/
structure Bisimulation (g : TypeGraph τ) (g' : TypeGraph τ') (patterns : List Pattern)
    (R : τ → τ' → Prop) : Prop where
  nullable : ∀ {t t'}, R t t' → (g.kindOf t = .nullable ↔ g'.kindOf t' = .nullable)
  elem : ∀ {t t'}, R t t' → g.kindOf t = .nullable → Option.Rel R (g.elemOf t) (g'.elemOf t')
  role : ∀ {t t'}, R t t' → g.kindOf t ≠ .nullable →
    g.Settled patterns (some t) ∧ g'.Settled patterns (some t') ∨
      Role.Rel R (g.role patterns t) (g'.role patterns t')

/-! ## What can be reached -/

namespace Bisimulation

variable {g : TypeGraph τ} {g' : TypeGraph τ'} {patterns : List Pattern} {R : τ → τ' → Prop}
  {p a b u : Option τ} {p' a' u' : Option τ'}

theorem flip (same : Bisimulation g g' patterns R) :
    Bisimulation g' g patterns fun t' t => R t t' where
  nullable related := (same.nullable related).symm
  elem related wrapper := Option.Rel.flip (same.elem related ((same.nullable related).2 wrapper))
  role related bare :=
    (same.role related (mt (same.nullable related).1 bare)).imp And.symm Role.Rel.flip

/-- Behind the wrappers around related types stand related types. -/
theorem unwraps (same : Bisimulation g g' patterns R) (related : Option.Rel R p p')
    (behind : g.Unwraps p u) : ∃ u', g'.Unwraps p' u' ∧ Option.Rel R u u' := by
  induction behind generalizing p' with
  | unresolved =>
      cases related with
      | none => exact ⟨none, .unresolved, .none⟩
  | bare kind =>
      cases related with
      | some related => exact ⟨_, .bare (mt (same.nullable related).2 kind), .some related⟩
  | wrapper kind _ ih =>
      cases related with
      | some related =>
          obtain ⟨u', inside, found⟩ := ih (same.elem related kind)
          exact ⟨u', .wrapper ((same.nullable related).1 kind) inside, found⟩

/-- Types that stand behind wrappers, related as such. -/
inductive Met (g : TypeGraph τ) (R : τ → τ' → Prop) : Option τ → Option τ' → Prop where
  | unresolved : Met g R none none
  | bare {t : τ} {t' : τ'} (related : R t t') (kind : g.kindOf t ≠ .nullable) :
      Met g R (some t) (some t')

theorem met_of_unwraps (behind : g.Unwraps p u) (related : Option.Rel R u u') : Met g R u u' := by
  have bare : ∀ t, u = some t → g.kindOf t ≠ .nullable := by
    induction behind with
    | unresolved => exact fun t none => nomatch none
    | bare kind => exact fun t here => Option.some.inj here ▸ kind
    | wrapper _ _ ih => exact ih related
  cases related with
  | none => exact .unresolved
  | some related => exact .bare related (bare _ rfl)

theorem Met.flip (same : Bisimulation g g' patterns R) (met : Met g R a a') :
    Met g' (fun t' t => R t t') a' a := by
  cases met with
  | unresolved => exact .unresolved
  | bare related kind => exact .bare related (mt (same.nullable related).2 kind)

/-- Types that are met play the same role, or are stable for good. -/
theorem roles (same : Bisimulation g g' patterns R) (met : Met g R a a') :
    g.Settled patterns a ∧ g'.Settled patterns a' ∨
      Role.Rel R (g.roleOf patterns a) (g'.roleOf patterns a') := by
  cases met with
  | unresolved => exact .inr .runtime
  | bare related kind => exact same.role related kind

/-- A part of one type has a counterpart among the parts of the other. -/
theorem part (same : Bisimulation g g' patterns R)
    (roles : Role.Rel R (g.roleOf patterns a) (g'.roleOf patterns a'))
    (step : g.Step patterns a b) : ∃ b', g'.Step patterns a' b' ∧ Met g R b b' := by
  obtain ⟨inner, mem, behind⟩ := step
  rw [inner] at roles
  generalize role : g'.roleOf patterns a' = counterpart at roles
  cases roles with
  | inner each =>
      obtain ⟨p', mem', related⟩ := exists_of_forall₂ each mem
      obtain ⟨b', behind', found⟩ := same.unwraps related behind
      exact ⟨b', .part role mem' behind', met_of_unwraps behind found⟩

theorem reaches_unstable (same : Bisimulation g g' patterns R)
    (way : ReflTransGen (g.Step patterns) a u) (leaf : g.roleOf patterns u = .unstable)
    (met : Met g R a a') :
    ∃ u', ReflTransGen (g'.Step patterns) a' u' ∧ g'.roleOf patterns u' = .unstable := by
  induction way using ReflTransGen.head_induction_on generalizing a' with
  | refl =>
      rcases same.roles met with ⟨settled, -⟩ | roles
      · exact absurd leaf settled.role_ne.1
      · rw [leaf] at roles
        generalize role : g'.roleOf patterns a' = counterpart at roles
        cases roles with
        | unstable => exact ⟨a', .refl, role⟩
  | head step way ih =>
      rcases same.roles met with ⟨settled, -⟩ | roles
      · exact absurd leaf (settled.reaches (way.head step)).role_ne.1
      · obtain ⟨b', step', met'⟩ := same.part roles step
        obtain ⟨u', way', leaf'⟩ := ih met'
        exact ⟨u', way'.head step', leaf'⟩

theorem settled (same : Bisimulation g g' patterns R) (settled : g.Settled patterns a)
    (met : Met g R a a') : g'.Settled patterns a' := by
  induction settled generalizing a' with
  | leaf role =>
      rcases same.roles met with ⟨-, done⟩ | roles
      · exact done
      · rw [role] at roles
        generalize role' : g'.roleOf patterns a' = counterpart at roles
        cases roles with
        | stable => exact .leaf role'
  | @inner a parts role all ih =>
      rcases same.roles met with ⟨-, done⟩ | roles
      · exact done
      · have back := roles.flip
        rw [role] at roles
        generalize role' : g'.roleOf patterns a' = counterpart at roles
        cases roles with
        | inner each =>
            refine .inner role' fun b' step' => ?_
            obtain ⟨b, step, met'⟩ := same.flip.part back step'
            exact ih b step (Met.flip same.flip met')

end Bisimulation

/-! ## Outcomes -/

theorem Answered.stable_iff {g : TypeGraph τ} {patterns : List Pattern} {a : Option τ}
    {value : Value} (answered : g.Answered patterns [] a value) :
    value = .stable ↔ g.Settled patterns a := by
  refine ⟨answered.stable, fun settled => ?_⟩
  rcases answered.named with stable | unstable | runtime
  · exact stable
  · obtain ⟨u, way, leaf⟩ := answered.unstable.1 unstable
    rw [stepAround_nil] at way
    exact absurd leaf (settled.reaches way).role_ne.1
  · obtain ⟨u, way, leaf | cycle⟩ := answered.runtime runtime
    · exact absurd leaf (settled.reaches way).role_ne.2
    · exact absurd cycle (settled.reaches way).not_cyclic

/-- Types that are met in both graphs have the same outcome. -/
theorem Bisimulation.value_eq {g : TypeGraph τ} {g' : TypeGraph τ'} {patterns : List Pattern}
    {R : τ → τ' → Prop} (same : Bisimulation g g' patterns R) {a : Option τ} {a' : Option τ'}
    (met : Met g R a a') {value value' : Value} (answered : g.Answered patterns [] a value)
    (answered' : g'.Answered patterns [] a' value') : value = value' := by
  have stable : value = .stable ↔ value' = .stable := by
    rw [answered.stable_iff, answered'.stable_iff]
    exact ⟨fun settled => same.settled settled met,
      fun settled => same.flip.settled settled (Met.flip same met)⟩
  have unstable : value = .unstable ↔ value' = .unstable := by
    rw [answered.unstable, answered'.unstable, stepAround_nil, stepAround_nil]
    constructor
    · rintro ⟨u, way, leaf⟩
      exact same.reaches_unstable way leaf met
    · rintro ⟨u, way, leaf⟩
      exact same.flip.reaches_unstable way leaf (Met.flip same met)
  rcases answered.named with here | here | here
  · rw [here, stable.1 here]
  · rw [here, unstable.1 here]
  · rcases answered'.named with there | there | there
    · rw [there, stable.2 there]
    · rw [there, unstable.2 there]
    · rw [here, there]

/-! ## Roles of types that look the same -/

theorem kindOf_congr {g : TypeGraph τ} {g' : TypeGraph τ'} {t : τ} {t' : τ'}
    (same : g.kind t = g'.kind t') : g.kindOf t = g'.kindOf t' := by
  rw [kindOf, kindOf, same]

theorem markersOf_congr {g : TypeGraph τ} {g' : TypeGraph τ'} {t : τ} {t' : τ'}
    (same : g.markers t = g'.markers t') : g.markersOf t = g'.markersOf t' := by
  rw [markersOf, markersOf, same]

/-- Related types have the same markers, and so have the types above them. -/
structure SameMarkers (g : TypeGraph τ) (g' : TypeGraph τ') (R : τ → τ' → Prop) : Prop where
  markers : ∀ {t t'}, R t t' → g.markersOf t = g'.markersOf t'
  supertypes : ∀ {t t'}, R t t' → List.Forall₂ (Option.Rel R) (g.supertypesOf t) (g'.supertypesOf t')

namespace SameMarkers

variable {g : TypeGraph τ} {g' : TypeGraph τ'} {R : τ → τ' → Prop} {t : τ} {t' : τ'}

theorem flip (same : SameMarkers g g' R) : SameMarkers g' g fun t' t => R t t' where
  markers related := (same.markers related).symm
  supertypes related := (same.supertypes related).flip.imp fun _ _ => Option.Rel.flip

theorem declaredStable (same : SameMarkers g g' R) (related : R t t')
    (declared : g.DeclaredStable t) : g'.DeclaredStable t' := by
  obtain ⟨u, way, marked⟩ := declared
  induction way using ReflTransGen.head_induction_on generalizing t' with
  | refl => exact ⟨t', .refl, by rw [Marked, ← same.markers related]; exact marked⟩
  | head step _ ih =>
      obtain ⟨above, listed, found⟩ := exists_of_forall₂ (same.supertypes related) step
      cases found with
      | some found => exact (ih found).of_supertype listed

theorem declaredStable_iff (same : SameMarkers g g' R) (related : R t t') :
    g.DeclaredStable t ↔ g'.DeclaredStable t' :=
  ⟨same.declaredStable related, same.flip.declaredStable related⟩

end SameMarkers

/-- Types that look the same but for their keys, towards related neighbours. -/
structure Resembles (g : TypeGraph τ) (g' : TypeGraph τ') (R : τ → τ' → Prop) (t : τ) (t' : τ') :
    Prop where
  kind : g.kindOf t = g'.kindOf t'
  name : g.nameOf t = g'.nameOf t'
  elem : Option.Rel R (g.elemOf t) (g'.elemOf t')
  members : List.Forall₂ (fun m m' => m.mutable = m'.mutable ∧ Option.Rel R m.type m'.type)
    (g.membersOf t) (g'.membersOf t')

section
variable {g : TypeGraph τ} {g' : TypeGraph τ'} {patterns : List Pattern} {R : τ → τ' → Prop}
  {t : τ} {t' : τ'}

theorem Role.Rel.ofParts {ms : List (Member τ)} {ms' : List (Member τ')}
    {types : List (Option τ)} {types' : List (Option τ')}
    (members : List.Forall₂ (fun m m' => m.mutable = m'.mutable ∧ Option.Rel R m.type m'.type)
      ms ms') (supertypes : List.Forall₂ (Option.Rel R) types types') :
    Role.Rel R (.ofParts ms types) (.ofParts ms' types') := by
  have mutable : ms.any (·.mutable) = ms'.any (·.mutable) := by
    induction members with
    | nil => rfl
    | cons here _ ih => rw [List.any_cons, List.any_cons, here.1, ih]
  unfold Role.ofParts
  rw [mutable]
  split
  · exact .unstable
  · refine .inner (List.rel_append ?_ supertypes)
    rw [List.forall₂_map_left_iff, List.forall₂_map_right_iff]
    exact members.imp fun _ _ here => here.2

/-- Types that look the same play the same role. -/
theorem Resembles.role (looks : Resembles g g' R t t') (same : SameMarkers g g' R)
    (related : R t t') : Role.Rel R (g.role patterns t) (g'.role patterns t') := by
  unfold TypeGraph.role
  rw [looks.kind, looks.name, same.markers related, propext (same.declaredStable_iff related)]
  split
  · exact .runtime
  split
  · exact .stable
  split
  · exact .stable
  split
  · exact .stable
  split
  · exact .stable
  split
  · exact .unstable
  split
  · exact .stable
  · exact .stable
  · exact .stable
  · exact .unstable
  · exact .inner (.cons looks.elem .nil)
  · split
    · exact .ofParts looks.members .nil
    · split
      · exact .ofParts looks.members (same.supertypes related)
      · exact .runtime

/-- An enumeration and a wrapper are told apart last. -/
theorem role_of_enum_or_value (kind : g.kindOf t = .enum ∨ g.kindOf t = .value) :
    g.role patterns t =
      open Classical in
      if isKnownStable patterns (g.nameOf t) then .stable
      else if g.DeclaredStable t then .stable
      else if g.nameOf t ∈ immutableCollections then .stable
      else if g.nameOf t ∈ mutableCollections then .unstable
      else if g.kindOf t = .enum then .stable
      else .inner [g.elemOf t] := by
  unfold role
  rcases kind with kind | kind <;> rw [kind] <;> rfl

theorem settled_of_enum_or_value
    (role : g.role patterns t = if g.kindOf t = .enum then .stable else .inner [g.elemOf t])
    (inside : ∀ u, g.Unwraps (g.elemOf t) u → g.Settled patterns u) :
    g.Settled patterns (some t) := by
  split at role
  · exact .leaf role
  · refine .inner role fun b step => ?_
    obtain ⟨inner, mem, behind⟩ := step
    cases role.symm.trans inner
    exact inside b (List.mem_singleton.1 mem ▸ behind)

/-- Enumerations and wrappers of what is stable for good play the same role, or are stable for good
themselves. -/
theorem roles_of_enum_or_value (same : SameMarkers g g' R) (related : R t t')
    (name : g.nameOf t = g'.nameOf t') (kind : g.kindOf t = .enum ∨ g.kindOf t = .value)
    (kind' : g'.kindOf t' = .enum ∨ g'.kindOf t' = .value)
    (inside : ∀ u, g.Unwraps (g.elemOf t) u → g.Settled patterns u)
    (inside' : ∀ u, g'.Unwraps (g'.elemOf t') u → g'.Settled patterns u) :
    g.Settled patterns (some t) ∧ g'.Settled patterns (some t') ∨
      Role.Rel R (g.role patterns t) (g'.role patterns t') := by
  have role : g.role patterns t = _ := role_of_enum_or_value kind
  have role' : g'.role patterns t' = _ := role_of_enum_or_value kind'
  rw [← name, ← propext (same.declaredStable_iff related)] at role'
  by_cases known : isKnownStable patterns (g.nameOf t) = true
  · rw [role, role', if_pos known, if_pos known]
    exact .inr .stable
  rw [if_neg known] at role role'
  by_cases declared : g.DeclaredStable t
  · rw [role, role', if_pos declared, if_pos declared]
    exact .inr .stable
  rw [if_neg declared] at role role'
  by_cases immutable : g.nameOf t ∈ immutableCollections
  · rw [role, role', if_pos immutable, if_pos immutable]
    exact .inr .stable
  rw [if_neg immutable] at role role'
  by_cases mutable : g.nameOf t ∈ mutableCollections
  · rw [role, role', if_pos mutable, if_pos mutable]
    exact .inr .unstable
  rw [if_neg mutable] at role role'
  exact .inl ⟨settled_of_enum_or_value role inside, settled_of_enum_or_value role' inside'⟩

theorem role_primitive (kind : g.kindOf t = .primitive) (plain : g.nameOf t ∉ mutableCollections) :
    g.role patterns t = .stable := by
  unfold role
  rw [kind, if_neg plain]
  simp

end

end ComposeStability.TypeGraph
