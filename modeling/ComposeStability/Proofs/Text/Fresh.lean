/-
# Proofs.Text.Fresh -- a free name is found

Among one more candidates than there are taken names one is free, if all
candidates differ (`firstFree_not_mem`).  Those for a name do, since a number
can be told from its digits (`candidate_injective`), so the name that is chosen
is never taken (`freshName_not_mem`).  It is the only one that is free while the
candidates before it are taken (`firstFree_iff`).  A search that tries candidates
one after the other, without any bound (`Tries`), stops there after at most one
try more than there are taken names (`FirstFree.tries`).
-/
import ComposeStability.Text.Fresh
import Mathlib.Data.List.Dedup

namespace ComposeStability.Text

set_option autoImplicit false

theorem toString_injective {m n : Nat} (same : toString m = toString n) : m = n := by
  have digits : Nat.toDigits 10 m = Nat.toDigits 10 n := by
    have chars := congrArg String.toList same
    simpa using chars
  rw [← Nat.ofDigitChars_ten_toDigits (n := m), digits, Nat.ofDigitChars_ten_toDigits]

/-- The first free one of many different candidates is free. -/
theorem firstFree_not_mem {candidates : Nat → String} (distinct : Function.Injective candidates)
    (taken : List String) (base : String) :
    (((List.range (taken.length + 1)).map candidates).find? fun name =>
      !taken.contains name).getD base ∉ taken := by
  cases found : ((List.range (taken.length + 1)).map candidates).find? fun name =>
      !taken.contains name with
  | some name => simpa using List.find?_some found
  | none =>
      have all_taken : (List.range (taken.length + 1)).map candidates ⊆ taken := by
        intro name member
        simpa using List.find?_eq_none.1 found name member
      have bound := (List.nodup_range.map distinct).length_le_of_subset all_taken
      rw [List.length_map, List.length_range] at bound
      omega

/-- What is behind the name in a candidate. -/
def candidateDigits : Nat → List Char
  | 0 => []
  | n + 1 => Nat.toDigits 10 (n + 1)

theorem candidate_toList (base : String) (n : Nat) :
    (candidate base n).toList = base.toList ++ candidateDigits n := by
  cases n with
  | zero => exact (List.append_nil _).symm
  | succ n => simp [candidate, candidateDigits]

theorem candidate_injective (base : String) : Function.Injective (candidate base) := by
  intro m n same
  have digits : candidateDigits m = candidateDigits n := by
    have chars := congrArg String.toList same
    rwa [candidate_toList, candidate_toList, List.append_cancel_left_eq] at chars
  cases m with
  | zero =>
      cases n with
      | zero => rfl
      | succ n => exact absurd digits.symm Nat.toDigits_ne_nil
  | succ m =>
      cases n with
      | zero => exact absurd digits Nat.toDigits_ne_nil
      | succ n =>
          have read := congrArg (Nat.ofDigitChars 10 · 0) digits
          simpa only [candidateDigits, Nat.ofDigitChars_ten_toDigits] using read

/-- A fresh name is not taken. -/
theorem freshName_not_mem (base : String) (taken : List String) : freshName base taken ∉ taken :=
  firstFree_not_mem (candidate_injective base) taken base

/-- The first candidate for a name that is not taken. -/
def FirstFree (base : String) (taken : List String) (name : String) : Prop :=
  ∃ n, name = candidate base n ∧ name ∉ taken ∧ ∀ m < n, candidate base m ∈ taken

theorem freshName_firstFree (base : String) (taken : List String) :
    FirstFree base taken (freshName base taken) := by
  have free := freshName_not_mem base taken
  rw [freshName, List.find?_map] at free ⊢
  cases found : (List.range (taken.length + 1)).find?
      ((fun name => !taken.contains name) ∘ candidate base) with
  | none =>
      rw [found] at free
      exact ⟨0, rfl, free, fun m before => absurd before (Nat.not_lt_zero m)⟩
  | some n =>
      rw [found] at free
      refine ⟨n, rfl, free, fun m before => ?_⟩
      simpa using (List.find?_range_eq_some.1 found).2.2 m before

/-- Only the fresh name is the first that is free. -/
theorem firstFree_iff {base : String} {taken : List String} {name : String} :
    FirstFree base taken name ↔ name = freshName base taken := by
  constructor
  · rintro ⟨n, rfl, free, before⟩
    obtain ⟨k, same, other, below⟩ := freshName_firstFree base taken
    rw [same] at other ⊢
    rcases Nat.lt_trichotomy n k with less | rfl | more
    · exact absurd (below n less) free
    · rfl
    · exact absurd (before k more) other
  · rintro rfl
    exact freshName_firstFree base taken

/-! ## Searching -/

/-- A search for a free name at work: the candidate at hand, and the number for the next one. -/
structure Trial where
  name : String
  next : Nat

/-- The name itself is tried first. -/
def Trial.start (base : String) : Trial := ⟨base, 1⟩

/-- The next candidate is the name with the next number behind it. -/
def Trial.advance (base : String) (t : Trial) : Trial := ⟨base ++ toString t.next, t.next + 1⟩

/-- `Tries base taken t n name`: a search that has come to `t` tries `n` candidates, the one at hand
included, and stops with `name`.  It goes on as long as candidates are taken, however many. -/
inductive Tries (base : String) (taken : List String) : Trial → Nat → String → Prop where
  | stop {t : Trial} (free : t.name ∉ taken) : Tries base taken t 1 t.name
  | next {t : Trial} {n : Nat} {name : String} (used : t.name ∈ taken)
      (later : Tries base taken (t.advance base) n name) : Tries base taken t (n + 1) name

/-- A search stops in one way at most. -/
theorem Tries.unique {base : String} {taken : List String} {t : Trial} {m n : Nat}
    {name other : String} (first : Tries base taken t m name) (second : Tries base taken t n other) :
    m = n ∧ name = other := by
  induction first generalizing n other with
  | stop free =>
      cases second with
      | stop => exact ⟨rfl, rfl⟩
      | next used => exact absurd used free
  | next used _ ih =>
      cases second with
      | stop free => exact absurd used free
      | next _ later =>
          obtain ⟨same, named⟩ := ih later
          exact ⟨congrArg (· + 1) same, named⟩

/-- A search passes the candidates that are taken and stops with one that is free. -/
theorem tries_of_free {base : String} {taken : List String} (n k : Nat)
    (free : candidate base (k + n) ∉ taken)
    (used : ∀ m < n, candidate base (k + m) ∈ taken) :
    Tries base taken ⟨candidate base k, k + 1⟩ (n + 1) (candidate base (k + n)) := by
  induction n generalizing k with
  | zero => exact .stop free
  | succ n ih =>
      have shift (m : Nat) : k + 1 + m = k + (m + 1) := by omega
      have later := ih (k + 1) (by rwa [shift]) fun m before => by
        rw [shift]
        exact used (m + 1) (Nat.succ_lt_succ before)
      rw [shift n] at later
      exact .next (used 0 (Nat.succ_pos n)) later

/-- Candidates that are taken are no more than the names that are, each counted once. -/
theorem taken_candidates_le {base : String} {taken : List String} {n : Nat}
    (used : ∀ m < n, candidate base m ∈ taken) : n ≤ taken.dedup.length := by
  have distinct : ((List.range n).map (candidate base)).Nodup :=
    List.nodup_range.map (candidate_injective base)
  have inside : (List.range n).map (candidate base) ⊆ taken.dedup := by
    intro name listed
    obtain ⟨m, before, rfl⟩ := List.mem_map.1 listed
    exact List.mem_dedup.2 (used m (List.mem_range.1 before))
  simpa using distinct.length_le_of_subset inside

/-- The first free candidate is found after at most one try more than there are names taken. -/
theorem FirstFree.tries {base : String} {taken : List String} {name : String}
    (first : FirstFree base taken name) :
    ∃ n ≤ taken.dedup.length + 1, Tries base taken (.start base) n name := by
  obtain ⟨k, rfl, free, used⟩ := first
  refine ⟨k + 1, Nat.succ_le_succ (taken_candidates_le used), ?_⟩
  have found := tries_of_free k 0 (by rwa [Nat.zero_add]) fun m before => by
    rw [Nat.zero_add]
    exact used m before
  have whole : 0 + k = k := Nat.zero_add k
  rw [whole] at found
  exact found

/-- A fresh name starts with the name that it is for. -/
theorem freshName_toList (base : String) (taken : List String) :
    ∃ digits, (freshName base taken).toList = base.toList ++ digits := by
  unfold freshName
  cases found : ((List.range (taken.length + 1)).map (candidate base)).find? fun name =>
      !taken.contains name with
  | none => exact ⟨[], (List.append_nil _).symm⟩
  | some name =>
      obtain ⟨n, -, rfl⟩ := List.mem_map.1 (List.mem_of_find?_eq_some found)
      exact ⟨_, candidate_toList base n⟩

end ComposeStability.Text
