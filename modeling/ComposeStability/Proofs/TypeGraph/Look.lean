/-
# Proofs.TypeGraph.Look -- types that look the same are classified alike

Classification asks a type for its kind, its names, its markers and its
neighbours, and tells neighbours apart by their keys only.  All of this is the
look of a type (`look`).  Types of two graphs match if they have the same look
and their neighbours match in turn (`Matching`); the verdicts on them are the
same (`Matching.classify_eq`).  If, among the types that occur below some given
ones, those with the same key look the same, then equal keys are a matching
(`SameLooks.matching`).
-/
import ComposeStability.Proofs.Outcome
import ComposeStability.Proofs.TypeGraph.Chart
import Mathlib.Data.List.Forall2
import Mathlib.Data.Option.Basic

namespace ComposeStability.TypeGraph

set_option autoImplicit false

open Stability (Verdict)

variable {τ τ' : Type}

/-! ## Looks -/

/-- What classification sees of a type, with its neighbours by their keys. -/
structure Look where
  kind : Except Failure Kind
  name : String
  text : String
  markers : Except Failure Markers
  elem : Option String
  members : List (Member String)
  supertypes : List (Option String)

/-- A member with the key of its type. -/
def memberByKey (g : TypeGraph τ) (m : Member τ) : Member String :=
  ⟨m.name, m.mutable, m.type.map g.keyOf⟩

def look (g : TypeGraph τ) (t : τ) : Look where
  kind := g.kind t
  name := g.nameOf t
  text := g.textOf t
  markers := g.markers t
  elem := (g.elemOf t).map g.keyOf
  members := (g.membersOf t).map g.memberByKey
  supertypes := (g.supertypesOf t).map (Option.map g.keyOf)

/-- A type that can be met on the way down from some given types. -/
inductive Occurs (g : TypeGraph τ) (given : τ → Prop) : τ → Prop where
  | given {t : τ} : given t → Occurs g given t
  | elem {t u : τ} : Occurs g given t → g.elemOf t = some u → Occurs g given u
  | member {t u : τ} {m : Member τ} :
      Occurs g given t → m ∈ g.membersOf t → m.type = some u → Occurs g given u
  | supertype {t u : τ} : Occurs g given t → some u ∈ g.supertypesOf t → Occurs g given u

/-- Types that occur in two graphs and have the same key look the same. -/
def SameLooks (g : TypeGraph τ) (given : τ → Prop) (g' : TypeGraph τ') (given' : τ' → Prop) :
    Prop :=
  ∀ t t', g.Occurs given t → g'.Occurs given' t' → g.keyOf t = g'.keyOf t' → g.look t = g'.look t'

/-! ## Matching types -/

/-- Members with the same name, both of which can change or not, of related types. -/
structure SameMember (R : τ → τ' → Prop) (m : Member τ) (m' : Member τ') : Prop where
  name : m.name = m'.name
  mutable : m.mutable = m'.mutable
  type : Option.Rel R m.type m'.type

/-- A relation between types that look the same, as do their neighbours.  What one of them refuses
to tell, the other refuses for the same cause. -/
structure Matching (g : TypeGraph τ) (g' : TypeGraph τ') (R : τ → τ' → Prop) : Prop where
  depth : g.depth = g'.depth
  key : ∀ {t t'}, R t t' → g.key t = g'.key t'
  kind : ∀ {t t'}, R t t' → g.kind t = g'.kind t'
  name : ∀ {t t'}, R t t' → g.name t = g'.name t'
  text : ∀ {t t'}, R t t' → g.text t = g'.text t'
  markers : ∀ {t t'}, R t t' → g.markers t = g'.markers t'
  elem : ∀ {t t'}, R t t' → Agree (Option.Rel R) (g.elem t) (g'.elem t')
  members : ∀ {t t'}, R t t' → Agree (List.Forall₂ (SameMember R)) (g.members t) (g'.members t')
  supertypes : ∀ {t t'}, R t t' →
    Agree (List.Forall₂ (Option.Rel R)) (g.supertypes t) (g'.supertypes t')

theorem optionRel_eq_refl (a : Option τ) : Option.Rel Eq a a := by
  cases a with
  | none => exact .none
  | some t => exact .some rfl

/-- Every type matches itself. -/
theorem matching_eq (g : TypeGraph τ) : Matching g g Eq := by
  refine ⟨rfl, ?_, ?_, ?_, ?_, ?_, ?_, ?_, ?_⟩ <;> rintro t _ rfl
  · rfl
  · rfl
  · rfl
  · rfl
  · rfl
  · cases g.elem t with
    | error failure => exact .error failure
    | ok u => exact .ok (optionRel_eq_refl u)
  · cases g.members t with
    | error failure => exact .error failure
    | ok members => exact .ok (List.forall₂_same.2 fun m _ => ⟨rfl, rfl, optionRel_eq_refl _⟩)
  · cases g.supertypes t with
    | error failure => exact .error failure
    | ok types => exact .ok (List.forall₂_same.2 fun a _ => optionRel_eq_refl a)

namespace Matching

variable {g : TypeGraph τ} {g' : TypeGraph τ'} {R : τ → τ' → Prop} {patterns : List Pattern}

theorem searchAnyMarked_eq {fuel : Nat}
    (each : ∀ {a a'}, Option.Rel R a a' → ∀ seen,
      searchMarked g fuel seen a = searchMarked g' fuel seen a')
    {ts : List (Option τ)} {ts' : List (Option τ')} (related : List.Forall₂ (Option.Rel R) ts ts')
    (seen : List String) : searchAnyMarked g fuel seen ts = searchAnyMarked g' fuel seen ts' := by
  induction related generalizing seen with
  | nil => simp only [searchAnyMarked]
  | cons first _ ih => simp only [searchAnyMarked, each first, ih]

theorem searchMarked_eq (same : Matching g g' R) (fuel : Nat) {a : Option τ} {a' : Option τ'}
    (related : Option.Rel R a a') (seen : List String) :
    searchMarked g fuel seen a = searchMarked g' fuel seen a' := by
  induction fuel generalizing a a' seen with
  | zero => cases related <;> simp only [searchMarked]
  | succ fuel ih =>
      cases related with
      | none => simp only [searchMarked]
      | @some t t' related =>
          have above (seen : List String) : (g.supertypes t >>= searchAnyMarked g fuel seen) =
              g'.supertypes t' >>= searchAnyMarked g' fuel seen :=
            (same.supertypes related).bind_eq fun _ _ above =>
              searchAnyMarked_eq (fun related seen => ih related seen) above seen
          simp only [searchMarked, same.markers related, same.key related, above]

theorem declaredStable_eq (same : Matching g g' R) {t : τ} {t' : τ'} (related : R t t') :
    declaredStable g t = declaredStable g' t' := by
  simp only [declaredStable, same.depth, same.searchMarked_eq _ (.some related)]

/-- Behind the wrappers around matching types stand matching types. -/
theorem unwrap_agree (same : Matching g g' R) (fuel : Nat) {a : Option τ} {a' : Option τ'}
    (related : Option.Rel R a a') :
    Agree (Option.Rel R) (unwrap g fuel a) (unwrap g' fuel a') := by
  induction fuel generalizing a a' with
  | zero =>
      cases related with
      | none => exact .ok .none
      | some related => exact .error _
  | succ fuel ih =>
      cases related with
      | none => exact .ok .none
      | @some t t' related =>
          rw [unwrap, unwrap, same.kind related]
          cases g'.kind t' with
          | error failure => exact .error failure
          | ok kind =>
              by_cases wrapper : kind = .nullable
              · simp only [wrapper, bind, Except.bind]
                have inside := same.elem related
                generalize g.elem t = elem at inside
                generalize g'.elem t' = elem' at inside
                cases inside with
                | error failure => exact .error failure
                | ok inside => exact ih inside
              · simp only [wrapper, bind, Except.bind]
                exact .ok (.some related)

section
variable {fuel : Nat} {visiting : List String}

theorem walkMembers_eq (same : Matching g g' R)
    (each : ∀ {a a'}, Option.Rel R a a' →
      walk g patterns fuel visiting a = walk g' patterns fuel visiting a')
    {t : τ} {t' : τ'} (owner : R t t') {ms : List (Member τ)} {ms' : List (Member τ')}
    (related : List.Forall₂ (SameMember R) ms ms') :
    walkMembers g patterns fuel visiting t ms = walkMembers g' patterns fuel visiting t' ms' := by
  induction related with
  | nil => simp only [walkMembers]
  | cons first _ ih =>
      simp only [walkMembers, memberVerdict, each first.type, first.name, same.text owner, ih]

theorem walkAll_eq
    (each : ∀ {a a'}, Option.Rel R a a' →
      walk g patterns fuel visiting a = walk g' patterns fuel visiting a')
    {ts : List (Option τ)} {ts' : List (Option τ')}
    (related : List.Forall₂ (Option.Rel R) ts ts') :
    walkAll g patterns fuel visiting ts = walkAll g' patterns fuel visiting ts' := by
  induction related with
  | nil => simp only [walkAll]
  | cons first _ ih => simp only [walkAll, each first, ih]

theorem firstMutable_rel {ms : List (Member τ)} {ms' : List (Member τ')}
    (related : List.Forall₂ (SameMember R) ms ms') :
    Option.Rel (SameMember R) (ms.find? (·.mutable)) (ms'.find? (·.mutable)) := by
  induction related with
  | nil => exact .none
  | @cons m m' ms ms' first _ ih =>
      rw [List.find?_cons, List.find?_cons, first.mutable]
      cases m'.mutable with
      | true => exact .some first
      | false => exact ih

theorem walkParts_eq (same : Matching g g' R)
    (each : ∀ {a a'} visiting, Option.Rel R a a' →
      walk g patterns fuel visiting a = walk g' patterns fuel visiting a')
    {t : τ} {t' : τ'} (related : R t t') {ts : Except Failure (List (Option τ))}
    {ts' : Except Failure (List (Option τ'))} (above : Agree (List.Forall₂ (Option.Rel R)) ts ts') :
    walkParts g patterns fuel visiting t ts = walkParts g' patterns fuel visiting t' ts' := by
  rw [walkParts, walkParts, same.key related, same.text related]
  refine bind_congr fun key => ?_
  split
  · rfl
  refine above.bind_eq fun ts ts' above => (same.members related).bind_eq fun ms ms' members => ?_
  simp only [same.walkMembers_eq (each _) related members, walkAll_eq (each _) above]
  generalize changed : ms.find? (·.mutable) = first
  generalize changed' : ms'.find? (·.mutable) = first'
  have mutable := firstMutable_rel members
  rw [changed, changed'] at mutable
  cases mutable with
  | none => rfl
  | some here => simp only [here.name]

end

/-- The walk through one graph ends as the walk through the other. -/
theorem walk_eq (same : Matching g g' R) (fuel : Nat) (visiting : List String) {a : Option τ}
    {a' : Option τ'} (related : Option.Rel R a a') :
    walk g patterns fuel visiting a = walk g' patterns fuel visiting a' := by
  induction fuel generalizing visiting a a' with
  | zero => simp only [walk]
  | succ fuel ih =>
      rw [walk, walk, ← same.depth]
      refine (same.unwrap_agree (g.depth + 1) related).bind_eq fun b b' related => ?_
      cases related with
      | none => rfl
      | @some t t' related =>
          have wrapped (visiting : List String) : (g.elem t >>= walk g patterns fuel visiting) =
              g'.elem t' >>= walk g' patterns fuel visiting :=
            (same.elem related).bind_eq fun _ _ inside => ih visiting inside
          have parts {ts : Except Failure (List (Option τ))}
              {ts' : Except Failure (List (Option τ'))}
              (above : Agree (List.Forall₂ (Option.Rel R)) ts ts') :
              walkParts g patterns fuel visiting t ts =
                walkParts g' patterns fuel visiting t' ts' :=
            same.walkParts_eq (fun visiting => ih visiting) related above
          simp only [same.kind related, same.text related, same.name related,
            same.declaredStable_eq related, same.markers related, same.key related, wrapped,
            parts (same.supertypes related), parts (.ok .nil)]

/-- The verdicts on matching types are the same. -/
theorem classify_eq (same : Matching g g' R) {a : Option τ} {a' : Option τ'}
    (related : Option.Rel R a a') : classify g patterns a = classify g' patterns a' := by
  cases related with
  | none => rfl
  | some related =>
      rw [classify, classify, same.key related, same.depth]
      exact bind_congr fun _ => same.walk_eq _ _ (.some related)

end Matching

/-! ## Keys as a matching -/

section
variable {g : TypeGraph τ} {given : τ → Prop} {g' : TypeGraph τ'} {given' : τ' → Prop}

/-- Occurring types that have the same key. -/
def Twins (g : TypeGraph τ) (given : τ → Prop) (g' : TypeGraph τ') (given' : τ' → Prop) (t : τ)
    (t' : τ') : Prop :=
  g.Occurs given t ∧ g'.Occurs given' t' ∧ g.keyOf t = g'.keyOf t'

/-- Neighbours with the same keys are twins, if they occur. -/
theorem Twins.of_option {a : Option τ} {a' : Option τ'}
    (occurs : ∀ t, a = some t → g.Occurs given t)
    (occurs' : ∀ t', a' = some t' → g'.Occurs given' t') (keys : a.map g.keyOf = a'.map g'.keyOf) :
    Option.Rel (Twins g given g' given') a a' := by
  cases a with
  | none =>
      cases a' with
      | none => exact .none
      | some t' => simp at keys
  | some t =>
      cases a' with
      | none => simp at keys
      | some t' => exact .some ⟨occurs t rfl, occurs' t' rfl, by simpa using keys⟩

/-- Types with the same key match, if those that occur look the same. -/
theorem SameLooks.matching [g.Tells] [g'.Tells] (same : SameLooks g given g' given')
    (depth : g.depth = g'.depth) : Matching g g' (Twins g given g' given') := by
  have looks {t : τ} {t' : τ'} (twins : Twins g given g' given' t t') : g.look t = g'.look t' :=
    same t t' twins.1 twins.2.1 twins.2.2
  refine ⟨depth, fun twins => ?_, fun twins => congrArg Look.kind (looks twins), fun twins => ?_,
    fun twins => ?_, fun twins => congrArg Look.markers (looks twins), fun twins => ?_,
    fun twins => ?_, fun twins => ?_⟩
  · rw [Tells.key, Tells.key, twins.2.2]
  · rw [Tells.name, Tells.name]
    exact congrArg Except.ok (congrArg Look.name (looks twins))
  · rw [Tells.text, Tells.text]
    exact congrArg Except.ok (congrArg Look.text (looks twins))
  · rw [Tells.elem, Tells.elem]
    refine .ok ?_
    exact Twins.of_option (fun u found => twins.1.elem found)
      (fun u found => twins.2.1.elem found) (congrArg Look.elem (looks twins))
  · rw [Tells.members, Tells.members]
    refine .ok (forall₂_of_map_eq (congrArg Look.members (looks twins)) ?_)
    intro m member m' member' alike
    obtain ⟨name, mutable, type⟩ := Member.mk.inj alike
    exact ⟨name, mutable, Twins.of_option (fun u found => twins.1.member member found)
      (fun u found => twins.2.1.member member' found) type⟩
  · rw [Tells.supertypes, Tells.supertypes]
    refine .ok (forall₂_of_map_eq (congrArg Look.supertypes (looks twins)) ?_)
    intro a member a' member' alike
    exact Twins.of_option (fun u found => twins.1.supertype (found ▸ member))
      (fun u found => twins.2.1.supertype (found ▸ member')) alike

end

end ComposeStability.TypeGraph
