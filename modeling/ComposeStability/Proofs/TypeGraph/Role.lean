/-
# Proofs.TypeGraph.Role -- the graph of types behind wrappers

Behind wrappers that may be empty, every type plays one role: it is a stable,
an unstable or a runtime leaf, or an inner type with parts.  The role follows
from the type alone, by the first rule that applies (`role`); the parts of
inner types are the edges of a plain graph (`Step`).  `reachedValue` is the
outcome that reachability in this graph assigns to a type.

One step of the walk agrees with the role of the type it stands at
(`walk_meets`).
-/
import ComposeStability.Proofs.Stability.Combine
import ComposeStability.Proofs.TypeGraph.MarkerSearch

namespace ComposeStability.TypeGraph

set_option autoImplicit false

open Relation (ReflTransGen TransGen)
open Stability (Value Verdict Obstacle)

variable {τ : Type}

/-! ## Wrappers -/

/-- `Unwraps g p u`: `u` stands behind all wrappers around `p`. -/
inductive Unwraps (g : TypeGraph τ) : Option τ → Option τ → Prop where
  | unresolved : Unwraps g none none
  | bare {t : τ} (kind : g.kindOf t ≠ .nullable) : Unwraps g (some t) (some t)
  | wrapper {t : τ} {u : Option τ} (kind : g.kindOf t = .nullable)
      (inside : Unwraps g (g.elemOf t) u) : Unwraps g (some t) u

/-- One step from a wrapper to a wrapper inside it. -/
def WrapperStep (g : TypeGraph τ) (t u : τ) : Prop :=
  g.kindOf t = .nullable ∧ g.elemOf t = some u

/-- No wrapper contains itself with nothing but wrappers in between. -/
def WrappersEnd (g : TypeGraph τ) : Prop := ∀ t, ¬ TransGen g.WrapperStep t t

/-- A type is charted if it is resolved to a charted one, or not at all. -/
def InChart (nodes : List τ) (p : Option τ) : Prop := ∀ t, p = some t → t ∈ nodes

/-! ## Roles -/

/-- What the rules make of a type. -/
inductive Role (τ : Type) where
  | stable
  | unstable
  | runtime
  /-- The outcome follows from the outcomes of these types. -/
  | inner (parts : List (Option τ))

/-- A member that can change makes a type unstable; else members and supertypes are its parts. -/
def Role.ofParts (members : List (Member τ)) (supertypes : List (Option τ)) : Role τ :=
  if members.any (·.mutable) then .unstable
  else .inner (members.map (·.type) ++ supertypes)

open Classical in
/-- The role of a type that is no wrapper. -/
noncomputable def role (g : TypeGraph τ) (patterns : List Pattern) (t : τ) : Role τ :=
  if g.kindOf t = .typeParameter then .runtime
  else if g.kindOf t = .function then .stable
  else if isKnownStable patterns (g.nameOf t) then .stable
  else if g.DeclaredStable t then .stable
  else if g.nameOf t ∈ immutableCollections then .stable
  else if g.nameOf t ∈ mutableCollections then .unstable
  else match g.kindOf t with
    | .primitive | .immutableCollection | .enum => .stable
    | .mutableCollection => .unstable
    | .value => .inner [g.elemOf t]
    | kind =>
        if (g.markersOf t).has .serializable then .ofParts (g.membersOf t) []
        else if kind = .composite then .ofParts (g.membersOf t) (g.supertypesOf t)
        else .runtime

/-- The role of a type that may be unresolved. -/
noncomputable def roleOf (g : TypeGraph τ) (patterns : List Pattern) : Option τ → Role τ
  | none => .runtime
  | some t => g.role patterns t

/-- One step from an inner type to what stands behind one of its parts. -/
inductive Step (g : TypeGraph τ) (patterns : List Pattern) : Option τ → Option τ → Prop where
  | part {a b p : Option τ} {parts : List (Option τ)} (inner : g.roleOf patterns a = .inner parts)
      (mem : p ∈ parts) (behind : g.Unwraps p b) : Step g patterns a b

open Classical in
/-- The outcome by reachability: an unstable leaf decides; without one, a runtime leaf or a
type that can be reached from itself does. -/
noncomputable def reachedValue (g : TypeGraph τ) (patterns : List Pattern) (start : Option τ) :
    Value :=
  if ∃ u, ReflTransGen (g.Step patterns) start u ∧ g.roleOf patterns u = .unstable then .unstable
  else if ∃ u, ReflTransGen (g.Step patterns) start u ∧
      (g.roleOf patterns u = .runtime ∨ TransGen (g.Step patterns) u u) then .runtime
  else .stable

variable {g : TypeGraph τ} {nodes : List τ} {patterns : List Pattern}

/-- The parts of an inner type are its wrapped type, or its members and some of its supertypes. -/
theorem role_inner_cases {t : τ} {parts : List (Option τ)}
    (inner : g.role patterns t = .inner parts) :
    parts = [g.elemOf t] ∨
      ∃ supertypes ⊆ g.supertypesOf t, parts = (g.membersOf t).map (·.type) ++ supertypes := by
  have ofParts {supertypes : List (Option τ)}
      (shape : Role.ofParts (g.membersOf t) supertypes = .inner parts) :
      parts = (g.membersOf t).map (·.type) ++ supertypes := by
    unfold Role.ofParts at shape
    split at shape
    · cases shape
    · exact (Role.inner.inj shape).symm
  unfold role at inner
  iterate 6
    split at inner
    · cases inner
  split at inner
  case h_5 => exact .inl (Role.inner.inj inner).symm
  case h_6 =>
    split at inner
    · exact .inr ⟨[], List.nil_subset _, ofParts inner⟩
    · split at inner
      · exact .inr ⟨g.supertypesOf t, List.Subset.refl _, ofParts inner⟩
      · cases inner
  all_goals cases inner

/-! ## Looking through wrappers -/

theorem Unwraps.inChart (chart : g.Charted nodes) {p u : Option τ} (behind : g.Unwraps p u)
    (charted : InChart nodes p) : InChart nodes u := by
  induction behind with
  | unresolved => exact charted
  | bare => exact charted
  | wrapper kind inside ih => exact ih fun u found => chart.elem_mem _ (charted _ rfl) u found

/-- Looking through wrappers ends as long as some charted type is not among those passed. -/
theorem unwrap_answers [g.Tells] (chart : g.Charted nodes) (ends : g.WrappersEnd) :
    ∀ (fuel : Nat) (passed : List τ) (p : Option τ), InChart nodes p → passed.Nodup →
      passed ⊆ nodes → (∀ t ∈ passed, ∀ u, p = some u → TransGen g.WrapperStep t u) →
      g.depth < fuel + passed.length →
      ∃ u, unwrap g fuel p = .ok u ∧ g.Unwraps p u
  | _, _, none, _, _, _, _, _ => ⟨none, by unfold unwrap; rfl, .unresolved⟩
  | 0, passed, some t, _, nodup, inside, _, enough => by
      have := nodup.length_le_of_subset inside
      have := chart.length_le
      omega
  | fuel + 1, passed, some t, charted, nodup, inside, leads, enough => by
      have mem := charted t rfl
      by_cases kind : g.kindOf t = .nullable
      · have new : t ∉ passed := fun old => ends t (leads t old t rfl)
        have step (u : τ) (found : g.elemOf t = some u) : g.WrapperStep t u := ⟨kind, found⟩
        obtain ⟨u, found, behind⟩ :=
          unwrap_answers chart ends fuel (t :: passed) (g.elemOf t)
            (fun u found => chart.elem_mem t mem u found) (List.nodup_cons.2 ⟨new, nodup⟩)
            (List.cons_subset.2 ⟨mem, inside⟩)
            (by
              intro s old u found
              rcases List.mem_cons.1 old with rfl | old
              · exact .single (step u found)
              · exact (leads s old t rfl).tail (step u found))
            (by simp only [List.length_cons]; omega)
        refine ⟨u, ?_, .wrapper kind behind⟩
        rw [unwrap, chart.kind_eq t mem, kind, Tells.elem]
        exact found
      · refine ⟨some t, ?_, .bare kind⟩
        rw [unwrap, chart.kind_eq t mem]
        exact if_neg kind

/-- Behind the wrappers around a charted type stands a charted type, and the walk finds it. -/
theorem unwrap_depth [g.Tells] (chart : g.Charted nodes) (ends : g.WrappersEnd) {p : Option τ}
    (charted : InChart nodes p) : ∃ u, unwrap g (g.depth + 1) p = .ok u ∧ g.Unwraps p u :=
  unwrap_answers chart ends (g.depth + 1) [] p charted List.nodup_nil (List.nil_subset _)
    (by simp) (by simp)

/-! ## One step of the walk -/

theorem value_inMember (owner member : String) (verdict : Verdict) :
    (inMember owner member verdict).value = verdict.value := by
  unfold inMember
  split <;> rfl

theorem worst_singleton (verdict : Verdict) : Verdict.worst [verdict.value] = verdict.value := by
  have named : verdict.value = .stable ∨ verdict.value = .unstable ∨ verdict.value = .runtime := by
    simpa using verdict.value_mem
  rcases named with h | h | h <;> simp [h, Verdict.worst]

section

variable {fuel : Nat} {visiting : List String} {f : Option τ → Value}

/-- The walk answers at every given type, with the outcome that `f` names. -/
def WalksTo (g : TypeGraph τ) (patterns : List Pattern) (fuel : Nat) (visiting : List String)
    (f : Option τ → Value) (p : Option τ) : Prop :=
  ∃ verdict, walk g patterns fuel visiting p = .ok verdict ∧ verdict.value = f p

theorem walkMembers_answers [g.Tells] (owner : τ) {members : List (Member τ)}
    (answers : ∀ m ∈ members, g.WalksTo patterns fuel visiting f m.type) :
    ∃ verdicts, walkMembers g patterns fuel visiting owner members = .ok verdicts ∧
      verdicts.map Verdict.value = members.map fun m => f m.type := by
  induction members with
  | nil => exact ⟨[], by rw [walkMembers], rfl⟩
  | cons m rest ih =>
      obtain ⟨verdict, found, value⟩ := answers m (by simp)
      obtain ⟨verdicts, foundRest, values⟩ := ih fun m mem => answers m (List.mem_cons_of_mem _ mem)
      refine ⟨inMember (g.textOf owner) m.name verdict :: verdicts, ?_, ?_⟩
      · rw [walkMembers_told, found, foundRest]
        rfl
      · simp [value_inMember, value, values]

theorem walkAll_answers {types : List (Option τ)}
    (answers : ∀ p ∈ types, g.WalksTo patterns fuel visiting f p) :
    ∃ verdicts, walkAll g patterns fuel visiting types = .ok verdicts ∧
      verdicts.map Verdict.value = types.map f := by
  induction types with
  | nil => exact ⟨[], by rw [walkAll], rfl⟩
  | cons p rest ih =>
      obtain ⟨verdict, found, value⟩ := answers p (by simp)
      obtain ⟨verdicts, foundRest, values⟩ := ih fun p mem => answers p (List.mem_cons_of_mem _ mem)
      refine ⟨verdict :: verdicts, ?_, by simp [value, values]⟩
      rw [walkAll, found, foundRest]
      rfl

/-- What a role promises of the walk at a type. -/
def Meets (g : TypeGraph τ) (patterns : List Pattern) (fuel : Nat) (visiting : List String) (t : τ)
    (result : Except Failure Verdict) : Role τ → Prop
  | .stable => ∃ verdict, result = .ok verdict ∧ verdict.value = .stable
  | .unstable => g.keyOf t ∉ visiting → ∃ verdict, result = .ok verdict ∧ verdict.value = .unstable
  | .runtime => ∃ verdict, result = .ok verdict ∧ verdict.value = .runtime
  | .inner parts =>
      (g.keyOf t ∈ visiting → ∃ verdict, result = .ok verdict ∧ verdict.value = .runtime) ∧
      (g.keyOf t ∉ visiting → ∀ f : Option τ → Value,
        (∀ p ∈ parts, g.WalksTo patterns fuel (g.keyOf t :: visiting) f p) →
        ∃ verdict, result = .ok verdict ∧ verdict.value = Verdict.worst (parts.map f))

theorem walkParts_meets [g.Tells] (t : τ) (supertypes : List (Option τ)) :
    g.Meets patterns fuel visiting t (walkParts g patterns fuel visiting t (.ok supertypes))
      (.ofParts (g.membersOf t) supertypes) := by
  rw [walkParts_told, Role.ofParts]
  by_cases changes : (g.membersOf t).any (·.mutable) = true
  · rw [if_pos changes]
    intro new
    obtain ⟨m, first⟩ :=
      Option.isSome_iff_exists.1 (List.find?_isSome.2 (List.any_eq_true.1 changes))
    rw [if_neg (by simpa using new), first]
    exact ⟨_, rfl, rfl⟩
  · rw [if_neg changes]
    refine ⟨fun old => ?_, fun new f answers => ?_⟩
    · rw [if_pos (by simpa using old)]
      exact ⟨_, rfl, rfl⟩
    · have fixed : (g.membersOf t).find? (·.mutable) = none := by
        simpa [List.find?_eq_none] using changes
      obtain ⟨own, foundOwn, ownValues⟩ := walkMembers_answers t
        fun m mem => answers m.type (List.mem_append_left _ (List.mem_map_of_mem mem))
      obtain ⟨inherited, foundInherited, inheritedValues⟩ := walkAll_answers
        fun p mem => answers p (List.mem_append_right _ mem)
      refine ⟨.combine ((own ++ inherited).map some), ?_, ?_⟩
      · rw [if_neg (by simpa using new), fixed]
        simp only [foundOwn, foundInherited]
        rfl
      · rw [Verdict.value_combine, List.map_append, ownValues, inheritedValues, List.map_append,
          List.map_map]
        rfl

/-- A wrapper of one value has the outcome of that value. -/
theorem walkValue_meets (t : τ) :
    g.Meets patterns fuel visiting t
      (if g.keyOf t ∈ visiting then .ok (.runtime (g.textOf t) "recursive type reference")
        else walk g patterns fuel (g.keyOf t :: visiting) (g.elemOf t))
      (.inner [g.elemOf t]) := by
  refine ⟨fun old => ?_, fun new f answers => ?_⟩
  · rw [if_pos old]
    exact ⟨_, rfl, rfl⟩
  · obtain ⟨verdict, found, value⟩ := answers (g.elemOf t) (by simp)
    refine ⟨verdict, ?_, ?_⟩
    · rw [if_neg new, found]
    · rw [List.map_singleton, ← value, worst_singleton]

/-- One step of the walk does what the role of the type promises. -/
theorem walk_meets [g.Tells] (chart : g.Charted nodes) (distinct : g.KeysDistinct nodes) {t : τ}
    {p : Option τ} (mem : t ∈ nodes) (found : unwrap g (g.depth + 1) p = .ok (some t)) :
    g.Meets patterns fuel visiting t (walk g patterns (fuel + 1) visiting p)
      (g.role patterns t) := by
  rw [walk, found, role]
  simp only [bind, Except.bind, chart.kind_eq t mem,
    declaredStable_eq chart.closedUpwards distinct mem, chart.markers_eq t mem,
    List.contains_iff_mem, Tells.key, Tells.name, Tells.text, Tells.elem, Tells.supertypes]
  split
  · next kind =>
      rw [if_pos kind]
      exact ⟨_, rfl, rfl⟩
  · next kind =>
      rw [if_neg (by simp [kind]), if_pos kind]
      exact ⟨_, rfl, rfl⟩
  · next notParameter notFunction =>
      rw [if_neg notParameter, if_neg notFunction]
      by_cases known : isKnownStable patterns (g.nameOf t) = true
      · rw [if_pos known, if_pos known]
        exact ⟨_, rfl, rfl⟩
      rw [if_neg known, if_neg known]
      by_cases declared : g.DeclaredStable t
      · rw [if_pos (by simpa using declared), if_pos declared]
        exact ⟨_, rfl, rfl⟩
      rw [if_neg (by simpa using declared), if_neg declared]
      by_cases immutable : g.nameOf t ∈ immutableCollections
      · rw [if_pos immutable, if_pos immutable]
        exact ⟨_, rfl, rfl⟩
      rw [if_neg immutable, if_neg immutable]
      by_cases mutable : g.nameOf t ∈ mutableCollections
      · rw [if_pos mutable, if_pos mutable]
        exact fun _ => ⟨_, rfl, rfl⟩
      rw [if_neg mutable, if_neg mutable]
      cases kind : g.kindOf t with
      | primitive => exact ⟨_, rfl, rfl⟩
      | immutableCollection => exact ⟨_, rfl, rfl⟩
      | mutableCollection => exact fun _ => ⟨_, rfl, rfl⟩
      | enum => exact ⟨_, rfl, rfl⟩
      | typeParameter => exact absurd kind notParameter
      | function => exact absurd kind notFunction
      | value => exact walkValue_meets t
      | composite =>
          by_cases serial : (g.markersOf t).has .serializable = true
          · simpa only [if_pos serial] using walkParts_meets t []
          · simpa only [if_neg serial, if_true] using walkParts_meets t (g.supertypesOf t)
      | hidden =>
          by_cases serial : (g.markersOf t).has .serializable = true
          · simpa only [if_pos serial] using walkParts_meets t []
          · simp only [if_neg serial]
            split <;> exact ⟨_, rfl, rfl⟩
      | _ =>
          by_cases serial : (g.markersOf t).has .serializable = true
          · simpa only [if_pos serial] using walkParts_meets t []
          · simp only [if_neg serial]
            exact ⟨_, rfl, rfl⟩

end

end ComposeStability.TypeGraph
