/-
# Proofs.Stability.Regrouping -- combining forgets order, repeats and nesting

What a combination renders to depends only on which texts occur among its
obstacles (`texts_eq`): they are listed once each, in order, wherever a sort
puts two obstacles of one text.  So the results are about any sort by text
(`Combines`), and `combine`, whose sort is stable, is a case of them.  Moving,
repeating and grouping parts keeps the texts that occur (`Regrouped.texts`), and
so does anything that is made of such changes.  With the outcome as the maximum of
the outcomes this makes combining the join of a semilattice, and the lists it
builds its normal forms (`combine_semilattice`).
-/
import ComposeStability.Proofs.Stability.Combine
import ComposeStability.Proofs.Text.SortedNames
import Mathlib.Data.List.Sort
import Mathlib.Logic.Relation

namespace ComposeStability.Stability

set_option autoImplicit false

/-! ## Arranged obstacles -/

/-- Obstacles in the order of their texts; nothing is said of those with one text. -/
structure Arranges (sorted given : List Obstacle) : Prop where
  perm : sorted.Perm given
  ordered : sorted.Pairwise fun a b => a.text ≤ b.text

/-- Obstacles once each, in the order of their texts. -/
def Tidy (parts : List Obstacle) : Prop :=
  parts.Pairwise fun a b => a.text < b.text

theorem arranges_sortByText (parts : List Obstacle) :
    Arranges (Verdict.sortByText parts) parts where
  perm := List.mergeSort_perm _ _
  ordered := by
    have sorted : (Verdict.sortByText parts).Pairwise fun a b =>
        decide (a.text ≤ b.text) = true :=
      List.pairwise_mergeSort
        (fun a b c ab bc => by simpa using String.le_trans (by simpa using ab) (by simpa using bc))
        (fun a b => by simpa using String.le_total a.text b.text) parts
    exact sorted.imp fun before => by simpa using before

namespace Verdict

theorem texts_dropRepeats (parts : List Obstacle) :
    (dropRepeats parts).map Obstacle.text = (parts.map Obstacle.text).eraseReps := by
  fun_induction dropRepeats parts with
  | case1 => rfl
  | case2 o => rfl
  | case3 a b rest same ih =>
      rw [ih, List.map_cons, List.map_cons, List.map_cons, Text.eraseReps_cons_cons,
        if_pos (by simpa using same)]
  | case4 a b rest differ ih =>
      rw [List.map_cons, ih]
      simp only [List.map_cons]
      rw [Text.eraseReps_cons_cons, if_neg (by simpa using differ)]

end Verdict

namespace Arranges

variable {sorted given sorted' given' : List Obstacle}

theorem tidy (arranged : Arranges sorted given) : Tidy (Verdict.dropRepeats sorted) := by
  have ordered : (sorted.map Obstacle.text).Pairwise (· ≤ ·) :=
    List.pairwise_map.2 arranged.ordered
  have strict := Text.eraseReps_strict ordered
  rw [← Verdict.texts_dropRepeats] at strict
  exact List.pairwise_map.1 strict

theorem mem_texts (arranged : Arranges sorted given) (text : String) :
    text ∈ (Verdict.dropRepeats sorted).map Obstacle.text ↔ text ∈ given.map Obstacle.text := by
  rw [Verdict.texts_dropRepeats, Text.mem_eraseReps]
  exact (arranged.perm.map _).mem_iff

/-- The texts that are listed depend only on which texts occur. -/
theorem texts_eq (arranged : Arranges sorted given) (arranged' : Arranges sorted' given')
    (same : ∀ text, text ∈ given.map Obstacle.text ↔ text ∈ given'.map Obstacle.text) :
    (Verdict.dropRepeats sorted).map Obstacle.text =
      (Verdict.dropRepeats sorted').map Obstacle.text := by
  have strict := List.pairwise_map.2 arranged.tidy
  have strict' := List.pairwise_map.2 arranged'.tidy
  refine List.Pairwise.eq_of_mem_iff strict strict' fun text => ?_
  rw [arranged.mem_texts, arranged'.mem_texts, same]

end Arranges

/-- What the texts tell of obstacles, equal lists of texts tell of the lists. -/
theorem map_eq_of_texts_eq {α : Type} (f : Obstacle → α) : ∀ {xs ys : List Obstacle},
    xs.map Obstacle.text = ys.map Obstacle.text →
    (∀ x ∈ xs, ∀ y ∈ ys, x.text = y.text → f x = f y) → xs.map f = ys.map f
  | [], [], _, _ => rfl
  | x :: xs, y :: ys, same, told => by
      obtain ⟨head, tail⟩ := List.cons.inj same
      have rest := map_eq_of_texts_eq f tail fun x' mem y' mem' =>
        told x' (List.mem_cons_of_mem x mem) y' (List.mem_cons_of_mem y mem')
      rw [List.map_cons, List.map_cons, rest,
        told x List.mem_cons_self y List.mem_cons_self head]

theorem values_eq_of_texts_eq {xs ys : List Obstacle}
    (same : xs.map Obstacle.text = ys.map Obstacle.text) :
    xs.map Obstacle.value = ys.map Obstacle.value :=
  map_eq_of_texts_eq Obstacle.value same fun _ _ _ _ => Obstacle.value_eq_of_text_eq

theorem Tidy.dropRepeats_eq {parts : List Obstacle} (tidy : Tidy parts) :
    Verdict.dropRepeats parts = parts := by
  fun_induction Verdict.dropRepeats parts with
  | case1 => rfl
  | case2 o => rfl
  | case3 a b rest same ih =>
      have less : a.text < b.text := List.rel_of_pairwise_cons tidy List.mem_cons_self
      exact absurd (same ▸ less) (String.lt_irrefl _)
  | case4 a b rest differ ih => rw [ih (List.pairwise_cons.1 tidy).2]

/-- Among tidy obstacles a text belongs to one. -/
theorem Tidy.eq_of_text_eq {parts : List Obstacle} (tidy : Tidy parts) {a b : Obstacle}
    (given : a ∈ parts) (given' : b ∈ parts) (same : a.text = b.text) : a = b := by
  have sorted : (parts.map Obstacle.text).Pairwise (· < ·) := List.pairwise_map.2 tidy
  have distinct : (parts.map Obstacle.text).Nodup := sorted.imp fun less equal => by
    rw [equal] at less
    exact String.lt_irrefl _ less
  exact List.inj_on_of_nodup_map distinct given given' same

/-- Tidy obstacles are in the one order of their texts. -/
theorem Arranges.eq_of_tidy {sorted given : List Obstacle} (arranged : Arranges sorted given)
    (tidy : Tidy given) : sorted = given := by
  have ordered : given.Pairwise fun a b => a.text ≤ b.text :=
    tidy.imp fun less => String.not_lt.1 (String.lt_asymm less)
  refine arranged.perm.eq_of_pairwise (fun a b mem mem' before after => ?_) arranged.ordered ordered
  exact tidy.eq_of_text_eq (arranged.perm.mem_iff.1 mem) mem' (String.le_antisymm before after)

namespace Verdict

/-! ## What a combination is made of -/

theorem combine_some (parts : List Verdict) :
    combine (parts.map some) = .combined (dropRepeats (sortByText (parts.flatMap obstacles))) := by
  simp only [combine, List.flatMap_map, Option.map_some, Option.getD_some]

theorem obstacles_combine (parts : List Verdict) :
    (combine (parts.map some)).obstacles =
      dropRepeats (sortByText (parts.flatMap obstacles)) := by
  rw [combine_some]
  rfl

/-- A verdict on several parts together, with their obstacles sorted by text in any way. -/
def Combines (parts : List Verdict) (verdict : Verdict) : Prop :=
  ∃ sorted, Arranges sorted (parts.flatMap obstacles) ∧ verdict = .combined (dropRepeats sorted)

theorem combines_combine (parts : List Verdict) : Combines parts (combine (parts.map some)) :=
  ⟨_, arranges_sortByText _, combine_some parts⟩

section
variable {parts others : List Verdict} {verdict other : Verdict}

theorem Combines.eq_combined (combines : Combines parts verdict) :
    verdict = .combined verdict.obstacles := by
  obtain ⟨sorted, -, rfl⟩ := combines
  rfl

theorem Combines.tidy (combines : Combines parts verdict) : Tidy verdict.obstacles := by
  obtain ⟨sorted, arranged, rfl⟩ := combines
  exact arranged.tidy

theorem Combines.mem (combines : Combines parts verdict) {o : Obstacle}
    (kept : o ∈ verdict.obstacles) : o ∈ parts.flatMap obstacles := by
  obtain ⟨sorted, arranged, rfl⟩ := combines
  exact arranged.perm.mem_iff.1 (dropRepeats_subset _ kept)

theorem Combines.mem_texts (combines : Combines parts verdict) (text : String) :
    text ∈ verdict.obstacles.map Obstacle.text ↔
      text ∈ (parts.flatMap obstacles).map Obstacle.text := by
  obtain ⟨sorted, arranged, rfl⟩ := combines
  exact arranged.mem_texts text

/-- The texts in a combination depend only on which texts occur. -/
theorem Combines.texts_eq (combines : Combines parts verdict) (combines' : Combines others other)
    (same : ∀ text, text ∈ (parts.flatMap obstacles).map Obstacle.text ↔
      text ∈ (others.flatMap obstacles).map Obstacle.text) :
    verdict.obstacles.map Obstacle.text = other.obstacles.map Obstacle.text := by
  obtain ⟨sorted, arranged, rfl⟩ := combines
  obtain ⟨sorted', arranged', rfl⟩ := combines'
  exact arranged.texts_eq arranged' same

/-- Text and outcome of a combination depend only on which texts occur. -/
theorem Combines.congr (combines : Combines parts verdict) (combines' : Combines others other)
    (same : ∀ text, text ∈ (parts.flatMap obstacles).map Obstacle.text ↔
      text ∈ (others.flatMap obstacles).map Obstacle.text) :
    verdict.text = other.text ∧ verdict.value = other.value := by
  have texts := combines.texts_eq combines' same
  constructor
  · rw [combines.eq_combined, combines'.eq_combined, text, text, texts]
  · rw [value_eq_worst, value_eq_worst, values_eq_of_texts_eq texts]

/-- The outcome of a combination is the worst outcome of its parts. -/
theorem Combines.value_eq (combines : Combines parts verdict) :
    verdict.value = worst (parts.map value) := by
  rw [← value_combine]
  exact (combines.congr (combines_combine parts) fun _ => Iff.rfl).2

/-- A list of obstacles in normal form is the one combination of its members. -/
theorem Combines.eq_of_tidy {kept : List Obstacle} (combines : Combines (kept.map obstacle) verdict)
    (tidy : Tidy kept) : verdict = .combined kept := by
  obtain ⟨sorted, arranged, rfl⟩ := combines
  simp only [List.flatMap_map, obstacles, List.flatMap_singleton'] at arranged
  rw [arranged.eq_of_tidy tidy, tidy.dropRepeats_eq]

end

/-! ## Regrouping -/

/-- One change of a list of parts that is to leave its combination alone. -/
inductive Regrouped : List Verdict → List Verdict → Prop
  | moved {xs ys : List Verdict} (perm : xs.Perm ys) : Regrouped xs ys
  | repeated {xs : List Verdict} {x : Verdict} (given : x ∈ xs) : Regrouped xs (x :: xs)
  | padded (xs : List Verdict) (reason : String) : Regrouped xs (.stable reason :: xs)
  | grouped {xs : List Verdict} {verdict : Verdict} (combines : Combines xs verdict)
      (ys : List Verdict) : Regrouped (xs ++ ys) (verdict :: ys)

theorem Regrouped.texts {xs ys : List Verdict} (regrouped : Regrouped xs ys) (text : String) :
    text ∈ (xs.flatMap obstacles).map Obstacle.text ↔
      text ∈ (ys.flatMap obstacles).map Obstacle.text := by
  cases regrouped with
  | moved perm => exact ((perm.flatMap_right _).map _).mem_iff
  | repeated given =>
      rw [List.flatMap_cons, List.map_append, List.mem_append]
      refine (or_iff_right_of_imp fun own => ?_).symm
      obtain ⟨o, mem, rfl⟩ := List.mem_map.1 own
      exact List.mem_map_of_mem (List.mem_flatMap.2 ⟨_, given, mem⟩)
  | padded reason => rfl
  | grouped combines ys =>
      rw [List.flatMap_append, List.flatMap_cons, List.map_append, List.map_append,
        List.mem_append, List.mem_append, combines.mem_texts]

/-- Any number of changes, in any direction and at any depth of nesting. -/
theorem texts_of_regroupings {xs ys : List Verdict} (regrouped : Relation.EqvGen Regrouped xs ys)
    (text : String) :
    text ∈ (xs.flatMap obstacles).map Obstacle.text ↔
      text ∈ (ys.flatMap obstacles).map Obstacle.text := by
  induction regrouped with
  | rel xs ys step => exact step.texts text
  | refl xs => rfl
  | symm xs ys _ ih => exact ih.symm
  | trans xs ys zs _ _ first second => exact first.trans second

/-! ## The maximum -/

theorem rank_le_worst {values : List Value} {v : Value} (given : v ∈ values)
    (named : v ∈ [Value.stable, .unstable, .runtime]) : v.rank ≤ (worst values).rank := by
  simp only [List.mem_cons, List.not_mem_nil, or_false] at named
  rcases named with rfl | rfl | rfl
  · exact Nat.zero_le _
  · rw [worst_eq_unstable_iff.2 given]
  · by_cases unstable : .unstable ∈ values
    · rw [worst_eq_unstable_iff.2 unstable]
      decide
    · rw [worst_eq_runtime_iff.2 ⟨unstable, given⟩]

/-- Combining is the join of a semilattice: order, repeats, stable parts and grouping leave
its text and outcome alone, its outcome is the greatest of its parts', and what it builds
lists obstacles once each in the order of their texts, which it leaves as they are.  All this
holds of any sort by text. -/
theorem combine_semilattice (parts : List Verdict) :
    Combines parts (combine (parts.map some)) ∧ ∀ verdict, Combines parts verdict →
      (∀ others other, Relation.EqvGen Regrouped parts others → Combines others other →
        other.text = verdict.text ∧ other.value = verdict.value) ∧
      ((∀ part ∈ parts, part.value.rank ≤ verdict.value.rank) ∧
        (verdict.value = .stable ∨ ∃ part ∈ parts, part.value = verdict.value)) ∧
      ∃ kept : List Obstacle, verdict = .combined kept ∧
        (∀ o ∈ kept, o.value ≠ .stable) ∧
        (kept.Pairwise fun a b => a.text < b.text) ∧
        ∀ again, Combines (kept.map obstacle) again → again = verdict := by
  refine ⟨combines_combine parts, fun verdict combines => ⟨fun others other regrouped combined => ?_,
    ⟨fun part given => ?_, ?_⟩, verdict.obstacles, combines.eq_combined, fun o _ => ?_,
    combines.tidy, fun again combined => ?_⟩⟩
  · exact combined.congr combines fun text => (texts_of_regroupings regrouped text).symm
  · rw [combines.value_eq]
    exact rank_le_worst (List.mem_map_of_mem given) part.value_mem
  · rw [combines.value_eq]
    refine (worst_mem _).imp_right fun attained => ?_
    obtain ⟨part, given, eq⟩ := List.mem_map.1 attained
    exact ⟨part, given, eq⟩
  · cases o <;> simp [Obstacle.value]
  · rw [combined.eq_of_tidy combines.tidy, ← combines.eq_combined]

/-- A reversed list with a repeat, a stable part and a nested combination. -/
theorem combine_semilattice_nested :
    Relation.EqvGen Regrouped [unstable "x", unknown "I", runtime "R" "marker"]
      [.stable "s", combine [some (runtime "R" "marker"), some (unknown "I")], unstable "x",
        unstable "x"] ∧
    (combine [some (.stable "s"), some (combine [some (runtime "R" "marker"), some (unknown "I")]),
        some (unstable "x"), some (unstable "x")]).text =
      (combine [some (unstable "x"), some (unknown "I"), some (runtime "R" "marker")]).text := by
  have regrouped : Relation.EqvGen Regrouped [unstable "x", unknown "I", runtime "R" "marker"]
      [.stable "s", combine [some (runtime "R" "marker"), some (unknown "I")], unstable "x",
        unstable "x"] := by
    refine .trans _ _ _ (.rel _ _ (.repeated List.mem_cons_self)) ?_
    refine .trans _ [runtime "R" "marker", unknown "I", unstable "x", unstable "x"] _
      (.rel _ _ (.moved (by decide))) ?_
    have inner := combines_combine [runtime "R" "marker", unknown "I"]
    refine .trans _ _ _ (.rel _ _ (.grouped inner _)) ?_
    exact .rel _ _ (.padded _ "s")
  obtain ⟨combines, all⟩ := combine_semilattice [unstable "x", unknown "I", runtime "R" "marker"]
  exact ⟨regrouped, ((all _ combines).1 _ _ regrouped (combines_combine _)).1⟩

end Verdict

end ComposeStability.Stability
