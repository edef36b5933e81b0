/-
# Proofs.Session.Stores -- what a store gives back

A store may forget, but what it gives was added under the same key
(`Store.Blank`), whatever its order of eviction.  So if only right values were
added, only right values come back (`Store.Holds`).  Verdicts are stored under
texts that begin with the version; these tell versions and keys apart
(`versionedKey_inj`).
-/
import ComposeStability.Proofs.Text.Literal
import ComposeStability.Proofs.Text.Separated
import ComposeStability.Session.Unit
import Mathlib.Data.List.Induction

namespace ComposeStability

set_option autoImplicit false

/-! ## Numbers in base 36 -/

namespace Text

theorem digitValue?_digit36 {value : Nat} (bound : value < 36) :
    digitValue? 36 (digit36 value) = some value := by
  have all : ∀ v : Fin 36, digitValue? 36 (digit36 v) = some v.val := by decide +kernel
  exact all ⟨value, bound⟩

theorem digitsValue?_base36 (n : Nat) : digitsValue? 36 (base36 n) = some n := by
  induction n using base36.induct with
  | case1 n small =>
      rw [base36, if_pos small, ← List.nil_append [digit36 n], digitsValue?_snoc,
        digitValue?_digit36 small]
      simp [digitsValue?]
  | case2 n large ih =>
      have bound : n % 36 < 36 := Nat.mod_lt n (by decide)
      rw [base36, if_neg large, digitsValue?_snoc, ih, digitValue?_digit36 bound]
      simp only [Option.bind_some, Option.some_inj]
      omega

theorem mem_base36 {n : Nat} {c : Char} (member : c ∈ base36 n) :
    ∃ value < 36, c = digit36 value := by
  induction n using base36.induct with
  | case1 n small =>
      rw [base36, if_pos small] at member
      exact ⟨n, small, List.mem_singleton.1 member⟩
  | case2 n large ih =>
      rw [base36, if_neg large] at member
      rcases List.mem_append.1 member with higher | lowest
      · exact ih higher
      · exact ⟨n % 36, Nat.mod_lt n (by decide), List.mem_singleton.1 lowest⟩

theorem colon_not_mem_base36 (n : Nat) : ':' ∉ base36 n := by
  intro member
  obtain ⟨value, bound, same⟩ := mem_base36 member
  have digit := digitValue?_digit36 bound
  rw [← same] at digit
  have none : digitValue? 36 ':' = none := by decide
  simp [none] at digit

end Text

namespace Session

/-- Versions and keys can be read off again. -/
theorem versionedKey_inj {version version' : UInt64} {key key' : String}
    (same : versionedKey version key = versionedKey version' key') :
    version = version' ∧ key = key' := by
  have cut (version : UInt64) (key : String) :
      Text.cut [':'] (versionedKey version key).toList =
        some (Text.base36 version.toNat, key.toList) := by
    have found := Text.cut_append (Text.colon_not_mem_base36 version.toNat) [] key.toList
    simpa [versionedKey] using found
  have parts := cut version key
  rw [same, cut version' key'] at parts
  obtain ⟨digits, keys⟩ := Prod.mk.inj (Option.some.inj parts)
  have versions := Text.digitsValue?_base36 version.toNat
  rw [← digits, Text.digitsValue?_base36] at versions
  exact ⟨(UInt64.toNat_inj.1 (Option.some.inj versions)).symm, String.toList_inj.1 keys.symm⟩

/-! ## Stores -/

/-- A use of a store. -/
inductive Use (κ ν : Type) where
  | get (key : κ)
  | add (key : κ) (value : ν)

namespace Store

section
variable {σ κ ν : Type} [Store σ κ ν]

def use (s : σ) : Use κ ν → σ
  | .get key => (get s key).2
  | .add key value => add s key value

/-- A store after some uses of it. -/
def after (s : σ) (uses : List (Use κ ν)) : σ := uses.foldl use s

/-- A store that only gives what was added to it under the same key. -/
def Blank (s : σ) : Prop :=
  ∀ (uses : List (Use κ ν)) (key : κ) (value : ν),
    (get (after s uses) key).1 = some value → .add key value ∈ uses

/-- A store that, after any uses, gives what was added last. -/
def Lasting (s : σ) : Prop :=
  ∀ (uses : List (Use κ ν)) (key : κ) (value : ν),
    (get (add (after s uses) key value) key).1 = some value

/-- A store that was blank, and to which only right values were added. -/
def Holds (right : κ → ν → Prop) (s : σ) : Prop :=
  ∃ (start : σ) (uses : List (Use κ ν)), Blank start ∧ s = after start uses ∧
    ∀ key value, .add key value ∈ uses → right key value

variable {right right' : κ → ν → Prop} {s : σ}

theorem after_snoc (s : σ) (uses : List (Use κ ν)) (u : Use κ ν) :
    after s (uses ++ [u]) = use (after s uses) u := by
  simp [after]

theorem Blank.holds (blank : Blank s) : Holds right s :=
  ⟨s, [], blank, rfl, fun _ _ member => absurd member List.not_mem_nil⟩

theorem Holds.mono (holds : Holds right s)
    (weaker : ∀ key value, right key value → right' key value) : Holds right' s := by
  obtain ⟨start, uses, blank, same, added⟩ := holds
  exact ⟨start, uses, blank, same,
    fun key value member => weaker key value (added key value member)⟩

/-- What is given is right. -/
theorem Holds.right_of_get (holds : Holds right s) {key : κ} {value : ν}
    (given : (get s key).1 = some value) : right key value := by
  obtain ⟨start, uses, blank, rfl, added⟩ := holds
  exact added key value (blank uses key value given)

theorem Holds.get (holds : Holds right s) (key : κ) : Holds right (get s key).2 := by
  obtain ⟨start, uses, blank, rfl, added⟩ := holds
  refine ⟨start, uses ++ [Use.get key], blank, (after_snoc start uses (.get key)).symm, ?_⟩
  intro other value member
  exact added other value (by simpa using member)

theorem Holds.add (holds : Holds right s) {key : κ} {value : ν} (correct : right key value) :
    Holds right (add s key value) := by
  obtain ⟨start, uses, blank, rfl, added⟩ := holds
  refine ⟨start, uses ++ [Use.add key value], blank,
    (after_snoc start uses (.add key value)).symm, ?_⟩
  intro other value' member
  rcases List.mem_append.1 member with earlier | last
  · exact added other value' earlier
  · obtain ⟨rfl, rfl⟩ : other = key ∧ value' = value := by simpa using last
    exact correct

end

end Store

/-! ## Bounded stores -/

namespace Recency

variable {κ ν : Type} [BEq κ]

/-- What is found was held, and using it adds nothing. -/
theorem get_subset [LawfulBEq κ] (r : Recency κ ν) (key : κ) :
    (∀ value, (r.get key).1 = some value → (key, value) ∈ r.entries) ∧
      (r.get key).2.entries ⊆ r.entries := by
  unfold get
  cases found : r.entries.find? fun e => e.1 == key with
  | none => exact ⟨by simp, List.Subset.refl _⟩
  | some e =>
      obtain ⟨other, value⟩ := e
      have same : other = key := by simpa using List.find?_some found
      subst same
      have held := List.mem_of_find?_eq_some found
      refine ⟨fun answer same => ?_, fun e member => ?_⟩
      · obtain rfl : value = answer := by simpa using same
        exact held
      · rcases List.mem_cons.1 member with rfl | later
        · exact held
        · exact (List.mem_filter.1 later).1

theorem mem_add {r : Recency κ ν} {key : κ} {value : ν} {e : κ × ν}
    (member : e ∈ (r.add key value).entries) : e = (key, value) ∨ e ∈ r.entries := by
  rcases List.mem_cons.1 (List.mem_of_mem_take member) with rfl | later
  · exact .inl rfl
  · exact .inr (List.mem_filter.1 later).1

/-- Every entry was added. -/
theorem mem_after [LawfulBEq κ] {capacity : Nat} {uses : List (Use κ ν)} {e : κ × ν}
    (member : e ∈ (Store.after (empty capacity : Recency κ ν) uses).entries) :
    .add e.1 e.2 ∈ uses := by
  induction uses using List.reverseRecOn with
  | nil => exact absurd member List.not_mem_nil
  | append_singleton uses u ih =>
      rw [Store.after_snoc] at member
      cases u with
      | get key =>
          have held := (get_subset _ key).2 member
          exact List.mem_append_left _ (ih held)
      | add key value =>
          rcases mem_add member with rfl | held
          · exact List.mem_append_right _ List.mem_cons_self
          · exact List.mem_append_left _ (ih held)

/-- A bounded store is blank at first, whatever its capacity. -/
theorem empty_blank [LawfulBEq κ] (capacity : Nat) :
    Store.Blank (empty capacity : Recency κ ν) := by
  intro uses key value given
  exact mem_after ((get_subset _ key).1 value given)

/-- A use does not change the capacity. -/
theorem capacity_use (r : Recency κ ν) (u : Use κ ν) : (Store.use r u).capacity = r.capacity := by
  cases u with
  | get key =>
      show (r.get key).2.capacity = r.capacity
      unfold get
      split <;> rfl
  | add key value => rfl

theorem capacity_after (r : Recency κ ν) (uses : List (Use κ ν)) :
    (Store.after r uses).capacity = r.capacity := by
  induction uses using List.reverseRecOn with
  | nil => rfl
  | append_singleton uses u ih => rw [Store.after_snoc, capacity_use, ih]

/-- A bounded store with room for one entry gives what was added last. -/
theorem empty_lasting [LawfulBEq κ] {capacity : Nat} (room : 0 < capacity) :
    Store.Lasting (empty capacity : Recency κ ν) := by
  intro uses key value
  have kept : (Store.after (empty capacity : Recency κ ν) uses).capacity = capacity :=
    capacity_after _ uses
  obtain ⟨n, rfl⟩ : ∃ n, capacity = n + 1 := ⟨capacity - 1, by omega⟩
  show ((add _ key value).get key).1 = some value
  simp [get, add, kept]

end Recency

/-! ## Stores of new sessions -/

/-- Whatever the capacity, the stores only give what is added to them. -/
structure Stores.Blank {μ φ : Type} [Store μ String Stability.Verdict]
    [Store φ FunctionKey Stability.Summary] (stores : Stores μ φ) : Prop where
  verdicts : ∀ capacity, Store.Blank (stores.verdicts capacity)
  functions : ∀ capacity, Store.Blank (stores.functions capacity)

theorem Stores.bounded_blank : Stores.bounded.Blank where
  verdicts := Recency.empty_blank
  functions := Recency.empty_blank

end Session

end ComposeStability
