/-
# Proofs.Report.Selection -- which functions are reported

Of the results of several packages, the first summary of each name counts, in
the order in which the names first occur (`firstOfEachName_positions`).  What a
report leaves out is decided by all results together: a name that a later result
ignores is left out as well (`Analysis.summaries_exact`).  So results that occur
once more at the end change nothing, and neither does filtering once more.
-/
import ComposeStability.Command.Analysis
import Mathlib.Data.List.Basic
import Mathlib.Data.List.Induction

namespace ComposeStability

set_option autoImplicit false

open Stability (Summary)

namespace Report

/-! ## The first of each name -/

/-- One more summary at the end is listed if its name has not occurred. -/
theorem firstOfEachName_snoc (seen : List String) (all : List Summary) (s : Summary) :
    firstOfEachName seen (all ++ [s]) = firstOfEachName seen all ++
      if s.qualifiedName ∈ seen ∨ s.qualifiedName ∈ all.map (·.qualifiedName) then [] else [s] := by
  induction all generalizing seen with
  | nil => by_cases known : s.qualifiedName ∈ seen <;> simp [firstOfEachName, known]
  | cons t all ih =>
      rw [List.cons_append, firstOfEachName, firstOfEachName]
      by_cases known : t.qualifiedName ∈ seen
      · rw [if_pos (by simpa using known), if_pos (by simpa using known), ih]
        by_cases same : s.qualifiedName = t.qualifiedName
        · simp [same, known]
        · simp [same]
      · rw [if_neg (by simpa using known), if_neg (by simpa using known), ih]
        simp [or_left_comm, or_assoc]

/-- Summaries whose names have occurred add nothing at the end. -/
theorem firstOfEachName_append (all : List Summary) {more : List Summary}
    (known : ∀ s ∈ more, s.qualifiedName ∈ all.map (·.qualifiedName)) :
    firstOfEachName [] (all ++ more) = firstOfEachName [] all := by
  induction more using List.reverseRecOn with
  | nil => rw [List.append_nil]
  | append_singleton more s ih =>
      have here := known s (List.mem_append_right more List.mem_cons_self)
      have earlier := ih fun t member => known t (List.mem_append_left [s] member)
      rw [← List.append_assoc, firstOfEachName_snoc, earlier, if_pos, List.append_nil]
      rw [List.map_append]
      exact .inr (List.mem_append_left _ here)

/-- Position `i` holds a summary whose name does not occur before it. -/
def FirstAt (all : List Summary) (i : Nat) (s : Summary) : Prop :=
  all[i]? = some s ∧ ∀ j < i, ∀ t, all[j]? = some t → t.qualifiedName ≠ s.qualifiedName

theorem FirstAt.inside {all : List Summary} {i : Nat} {s : Summary} (first : FirstAt all i s) :
    i < all.length :=
  (List.getElem?_eq_some_iff.1 first.1).1

theorem firstAt_snoc (all : List Summary) (s : Summary) (i : Nat) (t : Summary) :
    FirstAt (all ++ [s]) i t ↔
      FirstAt all i t ∨
        i = all.length ∧ t = s ∧ s.qualifiedName ∉ all.map (·.qualifiedName) := by
  rcases Nat.lt_trichotomy i all.length with inside | rfl | outside
  · have before (j : Nat) (le : j ≤ i) : (all ++ [s])[j]? = all[j]? :=
      List.getElem?_append_left (Nat.lt_of_le_of_lt le inside)
    have same : FirstAt (all ++ [s]) i t ↔ FirstAt all i t := by
      unfold FirstAt
      rw [before i (Nat.le_refl i)]
      refine and_congr_right fun _ => forall_congr' fun j => forall_congr' fun earlier => ?_
      rw [before j (Nat.le_of_lt earlier)]
    rw [same]
    exact ⟨.inl, fun either => either.elim id fun ⟨last, _⟩ => absurd last (Nat.ne_of_lt inside)⟩
  · have last : (all ++ [s])[all.length]? = some s := List.getElem?_concat_length
    constructor
    · rintro ⟨here, new⟩
      obtain rfl : s = t := Option.some.inj (last.symm.trans here)
      refine .inr ⟨rfl, rfl, fun known => ?_⟩
      obtain ⟨e, listed, same⟩ := List.mem_map.1 known
      obtain ⟨j, inside, found⟩ := List.getElem_of_mem listed
      refine new j inside e ?_ same
      rw [List.getElem?_append_left inside, List.getElem?_eq_getElem inside, found]
    · rintro (first | ⟨-, rfl, unknown⟩)
      · exact absurd first.inside (Nat.lt_irrefl _)
      · refine ⟨last, fun j inside e found same => unknown ?_⟩
        rw [List.getElem?_append_left inside] at found
        exact List.mem_map.2 ⟨e, List.mem_of_getElem? found, same⟩
  · constructor
    · intro first
      have inside := first.inside
      rw [List.length_append, List.length_singleton] at inside
      omega
    · rintro (first | ⟨last, -⟩)
      · exact absurd first.inside (Nat.lt_asymm outside)
      · omega

/-- The summaries listed are those at the first positions of their names, in order. -/
theorem firstOfEachName_positions (all : List Summary) :
    ∃ positions : List Nat, positions.Pairwise (· < ·) ∧
      (∀ i, i ∈ positions ↔ ∃ s, FirstAt all i s) ∧
      firstOfEachName [] all = positions.filterMap (all[·]?) := by
  induction all using List.reverseRecOn with
  | nil => exact ⟨[], .nil, by simp [FirstAt], rfl⟩
  | append_singleton all s ih =>
      obtain ⟨positions, increasing, firsts, listed⟩ := ih
      have inside {i : Nat} (member : i ∈ positions) : i < all.length := by
        obtain ⟨t, first⟩ := (firsts i).1 member
        exact first.inside
      have kept : positions.filterMap ((all ++ [s])[·]?) = positions.filterMap (all[·]?) :=
        List.filterMap_congr fun i member => List.getElem?_append_left (inside member)
      rw [firstOfEachName_snoc, listed, ← kept]
      by_cases known : s.qualifiedName ∈ all.map (·.qualifiedName)
      · refine ⟨positions, increasing, fun i => ?_, ?_⟩
        · simp [firsts, firstAt_snoc, known]
        · rw [if_pos (.inr known), List.append_nil]
      · refine ⟨positions ++ [all.length], ?_, fun i => ?_, ?_⟩
        · rw [List.pairwise_append]
          refine ⟨increasing, List.pairwise_singleton _ _, fun i member j last => ?_⟩
          rw [List.mem_singleton.1 last]
          exact inside member
        · simp only [List.mem_append, List.mem_singleton, firsts, firstAt_snoc, exists_or]
          refine or_congr_right ⟨fun last => ⟨s, last, rfl, known⟩, ?_⟩
          rintro ⟨_, last, -, -⟩
          exact last
        · rw [if_neg (by simpa using known), List.filterMap_append]
          simp

theorem firstOfEachName_sublist (seen : List String) (all : List Summary) :
    (firstOfEachName seen all).Sublist all := by
  induction all generalizing seen with
  | nil => exact .slnil
  | cons s all ih =>
      rw [firstOfEachName]
      split
      · exact (ih seen).cons s
      · exact (ih _).cons_cons s

theorem firstOfEachName_nodup (all : List Summary) :
    ((firstOfEachName [] all).map (·.qualifiedName)).Nodup := by
  induction all using List.reverseRecOn with
  | nil => exact .nil
  | append_singleton all s ih =>
      rw [firstOfEachName_snoc]
      by_cases known : s.qualifiedName ∈ all.map (·.qualifiedName)
      · rwa [if_pos (.inr known), List.append_nil]
      · rw [if_neg (by simpa using known), List.map_append, List.map_singleton]
        refine List.nodup_append.2 ⟨ih, List.pairwise_singleton _ _, ?_⟩
        intro name listed last here same
        rw [same, List.mem_singleton.1 here] at listed
        exact known (((firstOfEachName_sublist [] all).map _).subset listed)

/-! ## What is left out -/

/-- A function is reported unless its name is left out, begins like those left out, or is that of a
method of a type that is left out; the empty text names no type. -/
theorem Filter.keeps_iff (f : Filter) (s : Summary) :
    f.keeps s = true ↔
      s.qualifiedName ∉ f.functions ∧
        (∀ start ∈ f.packages, ¬ start.toList <+: s.qualifiedName.toList) ∧
        ∀ type ∈ f.types, type ≠ "" → receiverName? s ≠ some type := by
  have package : f.packages.any (Text.startsWith · s.qualifiedName) = false ↔
      ∀ start ∈ f.packages, ¬ start.toList <+: s.qualifiedName.toList := by
    simp [Text.startsWith]
  have type : ((receiverName? s).any fun receiver => receiver != "" && f.types.contains receiver) =
      false ↔ ∀ type ∈ f.types, type ≠ "" → receiverName? s ≠ some type := by
    cases receiverName? s with
    | none => simp
    | some receiver =>
        simp only [Option.any_some, Bool.and_eq_false_iff, bne_eq_false_iff_eq, ne_eq,
          Option.some.injEq, List.contains_eq_mem, decide_eq_false_iff_not]
        constructor
        · rintro either type listed named rfl
          exact either.elim named fun unlisted => unlisted listed
        · intro other
          by_cases named : receiver = ""
          · exact .inl named
          · exact .inr fun listed => other receiver listed named rfl
  rw [Filter.keeps, Bool.and_eq_true, Bool.and_eq_true, Bool.not_eq_true', Bool.not_eq_true',
    Bool.not_eq_true', package, type, List.contains_eq_mem, decide_eq_false_iff_not, and_assoc]

theorem Filter.keeps_congr {f f' : Filter} (packages : f.packages = f'.packages)
    (types : f.types = f'.types) (functions : ∀ name, name ∈ f.functions ↔ name ∈ f'.functions) :
    f.keeps = f'.keeps := by
  funext s
  rw [Bool.eq_iff_iff, keeps_iff, keeps_iff, packages, types, functions]

end Report

namespace Command.Analysis

open Report

/-- What the report of an analysis leaves out. -/
def filter (a : Analysis) (c : Config) : Filter :=
  ⟨c.ignoredPackages, c.ignoredTypes, a.results.flatMap (·.ignored)⟩

/-- All summaries, package by package. -/
def allSummaries (a : Analysis) : List Summary := a.results.flatMap (·.summaries)

theorem summaries_eq (a : Analysis) (c : Config) :
    a.summaries c = (firstOfEachName [] a.allSummaries).filter (a.filter c).keeps := by
  simp [summaries, select, Filter.apply, filter, allSummaries, List.flatMap_map]

/-- A function may be reported: no result ignores its name, which does not begin like an ignored
package, and it is no method of an ignored type; the empty text names no type. -/
structure MayReport (a : Analysis) (c : Config) (s : Summary) : Prop where
  name : ∀ r ∈ a.results, s.qualifiedName ∉ r.ignored
  package : ∀ start ∈ c.ignoredPackages, ¬ start.toList <+: s.qualifiedName.toList
  type : ∀ type ∈ c.ignoredTypes, type ≠ "" → receiverName? s ≠ some type

theorem keeps_iff_mayReport (a : Analysis) (c : Config) (s : Summary) :
    (a.filter c).keeps s = true ↔ a.MayReport c s := by
  rw [Filter.keeps_iff]
  constructor
  · rintro ⟨name, package, type⟩
    refine ⟨fun r listed ignored => name ?_, package, type⟩
    exact List.mem_flatMap.2 ⟨r, listed, ignored⟩
  · rintro ⟨name, package, type⟩
    refine ⟨fun ignored => ?_, package, type⟩
    obtain ⟨r, listed, ignored⟩ := List.mem_flatMap.1 ignored
    exact name r listed ignored

/-- The report lists, in order, the summaries at the first positions of their names that may be
reported.  So names in it are different, results that are given again at the end change nothing, and
neither does filtering again. -/
theorem summaries_exact (a : Analysis) (c : Config) :
    (∃ positions : List Nat, positions.Pairwise (· < ·) ∧
        (∀ i, i ∈ positions ↔ ∃ s, FirstAt a.allSummaries i s ∧ a.MayReport c s) ∧
        a.summaries c = positions.filterMap (a.allSummaries[·]?)) ∧
      ((a.summaries c).map (·.qualifiedName)).Nodup ∧
      (∀ again ⊆ a.results,
        ({ a with results := a.results ++ again } : Analysis).summaries c = a.summaries c) ∧
      (a.filter c).apply (a.summaries c) = a.summaries c := by
  refine ⟨?_, ?_, fun again known => ?_, ?_⟩
  · obtain ⟨positions, increasing, firsts, listed⟩ := firstOfEachName_positions a.allSummaries
    let kept (i : Nat) : Bool := a.allSummaries[i]?.any (a.filter c).keeps
    refine ⟨positions.filter kept, increasing.filter kept, fun i => ?_, ?_⟩
    · rw [List.mem_filter, firsts]
      constructor
      · rintro ⟨⟨s, first⟩, keeps⟩
        refine ⟨s, first, (a.keeps_iff_mayReport c s).1 ?_⟩
        simpa [kept, first.1] using keeps
      · rintro ⟨s, first, reported⟩
        refine ⟨⟨s, first⟩, ?_⟩
        simpa [kept, first.1] using (a.keeps_iff_mayReport c s).2 reported
    · rw [summaries_eq, listed, List.filter_filterMap, List.filterMap_filter]
      refine List.filterMap_congr fun i _ => ?_
      show a.allSummaries[i]?.filter _ = if kept i then a.allSummaries[i]? else none
      cases found : a.allSummaries[i]? with
      | none => simp
      | some s => simp [kept, found, Option.filter]
  · rw [summaries_eq]
    exact (firstOfEachName_nodup _).sublist (List.filter_sublist.map _)
  · have given {α : Type} (part : Session.Result → List α) :
        again.flatMap part ⊆ a.results.flatMap part := by
      intro x member
      obtain ⟨r, listed, here⟩ := List.mem_flatMap.1 member
      exact List.mem_flatMap.2 ⟨r, known listed, here⟩
    have keeps : (({ a with results := a.results ++ again } : Analysis).filter c).keeps =
        (a.filter c).keeps := by
      refine Filter.keeps_congr rfl rfl fun name => ?_
      show name ∈ (a.results ++ again).flatMap (·.ignored) ↔ name ∈ a.results.flatMap (·.ignored)
      rw [List.flatMap_append, List.mem_append, or_iff_left_iff_imp]
      exact fun member => given _ member
    rw [summaries_eq, summaries_eq, keeps, allSummaries, List.flatMap_append,
      firstOfEachName_append _ fun s member => List.mem_map_of_mem (given _ member)]
    rfl
  · rw [summaries_eq, Filter.apply, List.filter_filter]
    simp

end Command.Analysis

end ComposeStability
