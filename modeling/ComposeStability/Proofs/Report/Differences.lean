/-
# Proofs.Report.Differences -- what a comparison lists

A comparison goes over the names of both reports, each once and in order
(`allNames_strict`), and looks each up in both; of several entries with one name
the last counts (`Counts`).  So it lists at most one change for each name, in
the order of the names, and `change?_isSome_iff` says for which: those that only
one report has, and those whose two entries differ in something that is looked
at (`Differ`).

The changes may as well be collected name by name in any order and sorted
afterwards (`sort_collected`): there is one change for each name, so the order
decides.
-/
import ComposeStability.Proofs.Report.Clean

namespace ComposeStability.Report

set_option autoImplicit false

open Stability (Summary Parameter)

/-! ## Entries -/

/-- The entry that counts for a name: none behind it has the name. -/
def Counts (report : List Summary) (name : String) (s : Summary) : Prop :=
  ∃ before after, report = before ++ s :: after ∧ s.qualifiedName = name ∧
    ∀ other ∈ after, other.qualifiedName ≠ name

/-- The names that a report has entries for. -/
def namesOf (report : List Summary) : List String := report.map (·.qualifiedName)

/-- Two entries differ in something that a comparison looks at. -/
def Differ (old cur : Summary) : Prop :=
  old.restartable ≠ cur.restartable ∨ old.skippable ≠ cur.skippable ∨
    old.returnType ≠ cur.returnType ∨ old.visibility ≠ cur.visibility ∨
    old.parameters.length ≠ cur.parameters.length ∨
    ∃ pair ∈ old.parameters.zip cur.parameters, pair.1.name ≠ pair.2.name ∨
      pair.1.type ≠ pair.2.type ∨ pair.1.stability ≠ pair.2.stability

variable {golden current report : List Summary} {name : String}

theorem entry?_eq_some_iff {s : Summary} : entry? report name = some s ↔ Counts report name s := by
  simp only [ entry?, List.find?_eq_some_iff_append, beq_iff_eq, Counts]
  constructor
  · rintro ⟨same, before, after, split, apart⟩
    refine ⟨after.reverse, before.reverse, ?_, same, fun other later => ?_⟩
    · simpa using congrArg List.reverse split
    · simpa using apart other (List.mem_reverse.1 later)
  · rintro ⟨before, after, rfl, same, apart⟩
    refine ⟨same, after.reverse, before.reverse, by simp, fun other earlier => ?_⟩
    simpa using apart other (List.mem_reverse.1 earlier)

theorem entry?_eq_none_iff : entry? report name = none ↔ name ∉ namesOf report := by
  simp [ entry?, namesOf]

theorem exists_entry?_iff : (∃ s, entry? report name = some s) ↔ name ∈ namesOf report := by
  rw [← Option.isSome_iff_exists, Option.isSome_iff_ne_none, Ne, entry?_eq_none_iff, not_not]

/-- Entries with names of their own are found in whatever order they stand. -/
theorem entry?_perm {others : List Summary} (same : others.Perm report)
    (distinct : (namesOf report).Nodup) : entry? others = entry? report := by
  funext name
  cases found : entry? report name with
  | none => exact entry?_eq_none_iff.2 ((same.map _).mem_iff.not.2 (entry?_eq_none_iff.1 found))
  | some s =>
      have member : s ∈ report := by
        obtain ⟨before, after, rfl, -, -⟩ := entry?_eq_some_iff.1 found
        simp
      have named : s.qualifiedName = name := entry?_qualifiedName found
      rw [← named]
      exact entry?_of_mem ((same.map _).nodup_iff.2 distinct) (same.mem_iff.2 member)

/-! ## Entries that differ -/

theorem forall₂_unchanged_iff {olds curs : List Parameter} :
    List.Forall₂ Unchanged olds curs ↔ olds.length = curs.length ∧
      ∀ pair ∈ olds.zip curs, Unchanged pair.1 pair.2 :=
  List.forall₂_iff_zip.trans <| and_congr_right fun _ =>
    ⟨fun each _ => each, fun each a b => each (a, b)⟩

theorem differ_iff {old cur : Summary} : Differ old cur ↔ compare? old cur ≠ none := by
  rw [Ne, compare?_eq_none_iff, forall₂_unchanged_iff]
  simp only [Differ, Unchanged, SameParameter, not_and_or, not_forall, exists_prop, and_assoc,
    ne_eq]
  grind

/-- Entries in both reports make a change of one of three kinds. -/
theorem compare?_kind {old cur : Summary} {change : Change}
    (found : compare? old cur = some change) :
    change.kind ∈ [ChangeKind.regressed, .improved, .modified] := by
  unfold compare? at found
  grind

/-! ## The change of a name -/

theorem change?_of_counts {old cur : Summary} (recorded : Counts golden name old)
    (kept : Counts current name cur) : change? golden current name = compare? old cur := by
  rw [change?, entry?_eq_some_iff.2 recorded, entry?_eq_some_iff.2 kept]

/-- What a change says about the reports, by its kind. -/
theorem change?_cases {change : Change} (found : change? golden current name = some change) :
    (change.kind = .added ∧ name ∈ namesOf current ∧ name ∉ namesOf golden) ∨
    (change.kind = .removed ∧ name ∈ namesOf golden ∧ name ∉ namesOf current) ∨
    (change.kind ∈ [ChangeKind.regressed, .improved, .modified] ∧
      name ∈ namesOf golden ∧ name ∈ namesOf current) := by
  rw [change?] at found
  cases recorded : entry? golden name with
  | none =>
      cases kept : entry? current name with
      | none => simp [recorded, kept] at found
      | some cur =>
          simp only [recorded, kept, Option.some.injEq] at found
          subst found
          exact .inl ⟨rfl, exists_entry?_iff.1 ⟨cur, kept⟩, entry?_eq_none_iff.1 recorded⟩
  | some old =>
      have listed := exists_entry?_iff.1 ⟨old, recorded⟩
      cases kept : entry? current name with
      | none =>
          simp only [recorded, kept, Option.some.injEq] at found
          subst found
          exact .inr (.inl ⟨rfl, listed, entry?_eq_none_iff.1 kept⟩)
      | some cur =>
          simp only [recorded, kept] at found
          exact .inr (.inr ⟨compare?_kind found, listed, exists_entry?_iff.1 ⟨cur, kept⟩⟩)

/-- A function is new exactly if the current report alone has it. -/
theorem change?_added_iff :
    (∃ change, change? golden current name = some change ∧ change.kind = .added) ↔
      name ∈ namesOf current ∧ name ∉ namesOf golden := by
  constructor
  · rintro ⟨change, found, kind⟩
    rcases change?_cases found with ⟨-, only⟩ | ⟨other, -⟩ | ⟨other, -⟩
    · exact only
    · simp [kind] at other
    · simp [kind] at other
  · rintro ⟨listed, absent⟩
    obtain ⟨cur, kept⟩ := exists_entry?_iff.2 listed
    exact ⟨_, by rw [change?, entry?_eq_none_iff.2 absent, kept], rfl⟩

/-- A function is gone exactly if the recorded report alone has it. -/
theorem change?_removed_iff :
    (∃ change, change? golden current name = some change ∧ change.kind = .removed) ↔
      name ∈ namesOf golden ∧ name ∉ namesOf current := by
  constructor
  · rintro ⟨change, found, kind⟩
    rcases change?_cases found with ⟨other, -⟩ | ⟨-, only⟩ | ⟨other, -⟩
    · simp [kind] at other
    · exact only
    · simp [kind] at other
  · rintro ⟨listed, absent⟩
    obtain ⟨old, recorded⟩ := exists_entry?_iff.2 listed
    exact ⟨_, by rw [change?, entry?_eq_none_iff.2 absent, recorded], rfl⟩

theorem Differ.symm {old cur : Summary} (differ : Differ old cur) : Differ cur old := by
  rw [differ_iff, Ne, compare?_eq_none_iff] at *
  intro same
  obtain ⟨⟨restartable, skippable⟩, parameters, result, visibility⟩ := same
  refine differ ⟨⟨restartable.symm, skippable.symm⟩, ?_, result.symm, visibility.symm⟩
  refine parameters.flip.imp ?_
  rintro _ _ ⟨⟨name, type⟩, stability⟩
  exact ⟨⟨name.symm, type.symm⟩, stability.symm⟩

/-- The names that change are the same in both directions. -/
theorem change?_ne_none_comm :
    change? golden current name ≠ none ↔ change? current golden name ≠ none := by
  cases recorded : entry? golden name with
  | none => cases kept : entry? current name <;> simp [change?, recorded, kept]
  | some old =>
      cases kept : entry? current name with
      | none => simp [change?, recorded, kept]
      | some cur =>
          simp only [change?, recorded, kept, ← differ_iff]
          exact ⟨Differ.symm, Differ.symm⟩

theorem exists_entry_of_change (found : change? golden current name ≠ none) :
    name ∈ namesOf golden ∨ name ∈ namesOf current := by
  obtain ⟨change, found⟩ := Option.ne_none_iff_exists'.1 found
  rcases change?_cases found with ⟨-, kept, -⟩ | ⟨-, recorded, -⟩ | ⟨-, recorded, -⟩
  · exact .inr kept
  · exact .inl recorded
  · exact .inl recorded

/-! ## Lists of changes -/

theorem allNames_strict (golden current : List Summary) :
    (allNames golden current).Pairwise (· < ·) := by
  refine Text.eraseReps_strict ?_
  have sorted : (((golden ++ current).map (·.qualifiedName)).mergeSort
      fun a b => decide (a ≤ b)).Pairwise fun a b => decide (a ≤ b) = true :=
    List.pairwise_mergeSort
      (fun a b c ab bc => by simpa using String.le_trans (by simpa using ab) (by simpa using bc))
      (fun a b => by simpa using String.le_total a b) _
  exact sorted.imp fun before => by simpa using before

theorem mem_diff_iff {change : Change} :
    change ∈ diff golden current ↔ change? golden current change.qualifiedName = some change := by
  rw [diff, List.mem_filterMap]
  constructor
  · rintro ⟨name, -, found⟩
    rwa [change?_qualifiedName found]
  · intro found
    refine ⟨change.qualifiedName, mem_allNames.2 ?_, found⟩
    rw [List.map_append, List.mem_append]
    exact exists_entry_of_change (by simp [found])

/-- What is listed about a name is the change of the name. -/
theorem exists_mem_diff_iff {P : Change → Prop} :
    (∃ change ∈ diff golden current, change.qualifiedName = name ∧ P change) ↔
      ∃ change, change? golden current name = some change ∧ P change := by
  constructor
  · rintro ⟨change, listed, rfl, holds⟩
    exact ⟨change, mem_diff_iff.1 listed, holds⟩
  · rintro ⟨change, found, holds⟩
    have named := change?_qualifiedName found
    exact ⟨change, mem_diff_iff.2 (named ▸ found), named, holds⟩

theorem diff_strict (golden current : List Summary) :
    (diff golden current).Pairwise fun a b => a.qualifiedName < b.qualifiedName := by
  refine List.pairwise_filterMap.2 ((allNames_strict golden current).imp ?_)
  intro a b before change first change' second
  rw [change?_qualifiedName first, change?_qualifiedName second]
  exact before

theorem exists_named_iff :
    (∃ change ∈ diff golden current, change.qualifiedName = name) ↔
      change? golden current name ≠ none := by
  simpa [Option.ne_none_iff_exists'] using exists_mem_diff_iff (P := fun _ => True)

/-- Reports with the same entries for each name are told apart by nothing. -/
theorem diff_congr {golden' current' : List Summary} (recorded : entry? golden' = entry? golden)
    (kept : entry? current' = entry? current) : diff golden' current' = diff golden current := by
  have same (name : String) : change? golden' current' name = change? golden current name := by
    rw [change?, change?, recorded, kept]
  have perm : (diff golden' current').Perm (diff golden current) := by
    have nodup (golden current : List Summary) : (diff golden current).Nodup := by
      refine (diff_strict golden current).imp fun {a b} before => ?_
      rintro rfl
      exact String.lt_irrefl _ before
    refine (List.perm_ext_iff_of_nodup (nodup _ _) (nodup _ _)).2 fun change => ?_
    rw [mem_diff_iff, mem_diff_iff, same]
  refine perm.eq_of_pairwise ?_ (diff_strict golden' current') (diff_strict golden current)
  exact fun a b _ _ before after => absurd (String.lt_trans before after) (String.lt_irrefl _)

/-! ## Collecting in any order -/

/-- The names of a report, each once, in any order. -/
structure Enumerates (names : List String) (report : List Summary) : Prop where
  nodup : names.Nodup
  mem_iff : ∀ name, name ∈ names ↔ name ∈ namesOf report

/-- The changes as they come up: first for the recorded names, then for those that are new. -/
def collected (golden current : List Summary) (recorded kept : List String) : List Change :=
  recorded.filterMap (change? golden current) ++
    (kept.filter fun name => name ∉ namesOf golden).filterMap (change? golden current)

/-- By name, and of one name by kind. -/
def inOrder (a b : Change) : Bool :=
  decide (a.qualifiedName < b.qualifiedName) ||
    a.qualifiedName == b.qualifiedName &&
      decide (ChangeKind.all.idxOf a.kind ≤ ChangeKind.all.idxOf b.kind)

theorem inOrder_trans (a b c : Change) (first : inOrder a b = true) (second : inOrder b c = true) :
    inOrder a c = true := by
  simp only [inOrder, Bool.or_eq_true, Bool.and_eq_true, decide_eq_true_eq, beq_iff_eq] at *
  rcases first with before | ⟨same, kind⟩
  · rcases second with before' | ⟨same', -⟩
    · exact .inl (String.lt_trans before before')
    · exact .inl (same' ▸ before)
  · rcases second with before' | ⟨same', kind'⟩
    · exact .inl (same ▸ before')
    · exact .inr ⟨same.trans same', Nat.le_trans kind kind'⟩

theorem inOrder_total (a b : Change) : (inOrder a b || inOrder b a) = true := by
  simp only [inOrder, Bool.or_eq_true, Bool.and_eq_true, decide_eq_true_eq, beq_iff_eq]
  by_cases same : a.qualifiedName = b.qualifiedName
  · rcases Nat.le_total (ChangeKind.all.idxOf a.kind) (ChangeKind.all.idxOf b.kind) with h | h
    · exact .inl (.inr ⟨same, h⟩)
    · exact .inr (.inr ⟨same.symm, h⟩)
  · by_cases before : a.qualifiedName < b.qualifiedName
    · exact .inl (.inl before)
    · refine .inr (.inl (String.not_le.1 fun back => same ?_))
      exact String.le_antisymm back (String.not_lt.1 before)

theorem collected_perm {recorded kept : List String} (first : Enumerates recorded golden)
    (second : Enumerates kept current) :
    (collected golden current recorded kept).Perm (diff golden current) := by
  rw [collected, ← List.filterMap_append]
  refine List.Perm.filterMap _ ?_
  have strict := (allNames_strict golden current).imp fun before => String.ne_of_lt before
  refine (List.perm_ext_iff_of_nodup ?_ strict).2 fun name => ?_
  · refine List.nodup_append.2 ⟨first.nodup, second.nodup.filter _, ?_⟩
    rintro name old other new rfl
    simp only [List.mem_filter, decide_eq_true_eq] at new
    exact new.2 ((first.mem_iff name).1 old)
  · rw [mem_allNames, List.map_append, List.mem_append, List.mem_append, List.mem_filter,
      first.mem_iff, second.mem_iff, decide_eq_true_eq]
    simp only [namesOf]
    tauto

/-- Collected in any order and sorted, the changes are those listed by name. -/
theorem sort_collected {recorded kept : List String} (first : Enumerates recorded golden)
    (second : Enumerates kept current) :
    (collected golden current recorded kept).mergeSort inOrder = diff golden current := by
  have perm := (List.mergeSort_perm (collected golden current recorded kept) inOrder).trans
    (collected_perm first second)
  have ordered : (diff golden current).Pairwise fun a b => inOrder a b = true :=
    (diff_strict golden current).imp fun before => by simp [inOrder, before]
  refine perm.eq_of_pairwise ?_ (List.pairwise_mergeSort inOrder_trans inOrder_total _) ordered
  intro a b listed listed' before after
  have member := mem_diff_iff.1 (perm.mem_iff.1 listed)
  have member' := mem_diff_iff.1 listed'
  have named : a.qualifiedName = b.qualifiedName := by
    simp only [inOrder, Bool.or_eq_true, Bool.and_eq_true, decide_eq_true_eq, beq_iff_eq]
      at before after
    rcases before with first | first
    · rcases after with second | second
      · exact absurd (String.lt_trans first second) (String.lt_irrefl _)
      · exact second.1.symm
    · exact first.1
  exact Option.some.inj (member.symm.trans (named ▸ member'))

/-! ## Exactness -/

/-- The changes between two reports are strictly sorted by name.  A name is listed as added exactly
if the current report alone has it, as removed exactly if the recorded one alone has it, and a name
in both, as one of the other kinds, exactly if the entries that count differ.  So a report does not
differ from itself, both directions list the same names, with added and removed exchanged, and
neither the order of a report whose names are distinct nor the order in which changes are collected
matters. -/
theorem diff_exact (golden current : List Summary) :
    (diff golden current).Pairwise (fun a b => a.qualifiedName < b.qualifiedName) ∧
    (∀ name,
      ((∃ c ∈ diff golden current, c.qualifiedName = name ∧ c.kind = .added) ↔
        name ∈ namesOf current ∧ name ∉ namesOf golden) ∧
      ((∃ c ∈ diff golden current, c.qualifiedName = name ∧ c.kind = .removed) ↔
        name ∈ namesOf golden ∧ name ∉ namesOf current) ∧
      (∀ old cur, Counts golden name old → Counts current name cur →
        ((∃ c ∈ diff golden current, c.qualifiedName = name ∧
          c.kind ∈ [ChangeKind.regressed, .improved, .modified]) ↔ Differ old cur) ∧
        ((∃ c ∈ diff golden current, c.qualifiedName = name) ↔ Differ old cur)) ∧
      ((∃ c ∈ diff golden current, c.qualifiedName = name) →
        name ∈ namesOf golden ∨ name ∈ namesOf current)) ∧
    diff golden golden = [] ∧
    (∀ name,
      ((∃ c ∈ diff golden current, c.qualifiedName = name) ↔
        ∃ c ∈ diff current golden, c.qualifiedName = name) ∧
      ((∃ c ∈ diff golden current, c.qualifiedName = name ∧ c.kind = .added) ↔
        ∃ c ∈ diff current golden, c.qualifiedName = name ∧ c.kind = .removed)) ∧
    (∀ others, others.Perm golden → (namesOf golden).Nodup →
      diff others current = diff golden current) ∧
    (∀ others, others.Perm current → (namesOf current).Nodup →
      diff golden others = diff golden current) ∧
    ∀ recorded kept, Enumerates recorded golden → Enumerates kept current →
      (collected golden current recorded kept).mergeSort inOrder = diff golden current := by
  have unchanged (s : Summary) : compare? s s = none :=
    compare?_eq_none_iff.2 ⟨⟨rfl, rfl⟩, List.forall₂_same.2 fun _ _ => ⟨⟨rfl, rfl⟩, rfl⟩, rfl, rfl⟩
  refine ⟨diff_strict golden current, fun name => ⟨?_, ?_, fun old cur recorded kept => ?_, ?_⟩,
    diff_eq_nil_iff.2 fun name _ => ?_, fun name => ⟨?_, ?_⟩, fun others same distinct => ?_,
    fun others same distinct => ?_, fun _ _ => sort_collected⟩
  · rw [exists_mem_diff_iff, change?_added_iff]
  · rw [exists_mem_diff_iff, change?_removed_iff]
  · rw [exists_mem_diff_iff, exists_named_iff, change?_of_counts recorded kept, differ_iff,
      Option.ne_none_iff_exists']
    refine ⟨⟨fun ⟨c, found, _⟩ => ⟨c, found⟩, fun ⟨c, found⟩ => ⟨c, found, ?_⟩⟩, Iff.rfl⟩
    exact compare?_kind found
  · exact fun listed => exists_entry_of_change (exists_named_iff.1 listed)
  · rw [change?]
    cases entry? golden name with
    | none => rfl
    | some s => exact unchanged s
  · rw [exists_named_iff, exists_named_iff, change?_ne_none_comm]
  · rw [exists_mem_diff_iff, exists_mem_diff_iff, change?_added_iff, change?_removed_iff]
  · exact diff_congr (entry?_perm same distinct) rfl
  · exact diff_congr rfl (entry?_perm same distinct)

/-- A function without parameters. -/
def card (name : String) (skippable : Bool) : Summary where
  name := name
  qualifiedName := name
  visibility := "exported"
  returnType := "()"
  restartable := true
  skippable := skippable

/-- Of two entries for one name the second counts; the recorded report may be turned around. -/
theorem cards_differ :
    let golden := [card "deck" true, card "bar" true]
    let current := [card "bar" true, card "bar" false, card "suit" true]
    (∃ c ∈ diff golden current, c.qualifiedName = "bar" ∧
      c.kind ∈ [ChangeKind.regressed, .improved, .modified]) ∧
    diff [card "bar" true, card "deck" true] current = diff golden current ∧
    diff [card "a" true] [card "b" true, card "a" true] =
      diff [card "a" true] [card "a" true, card "b" true] ∧
    (collected golden current ["bar", "deck"] ["suit", "bar"]).mergeSort inOrder =
      diff golden current := by
  intro golden current
  obtain ⟨-, names, -, -, turned, -, anyOrder⟩ := diff_exact golden current
  obtain ⟨-, -, -, -, -, turned', -⟩ := diff_exact [card "a" true] [card "a" true, card "b" true]
  have recorded : Counts golden "bar" (card "bar" true) :=
    ⟨[card "deck" true], [], rfl, rfl, by simp⟩
  have kept : Counts current "bar" (card "bar" false) :=
    ⟨[card "bar" true], [card "suit" true], rfl, rfl, by simp [card]⟩
  refine ⟨((names "bar").2.2.1 _ _ recorded kept).1.2 (.inr (.inl (by simp [card]))),
    turned _ (List.Perm.swap _ _ _) (by simp [golden, namesOf, card]),
    turned' _ (List.Perm.swap _ _ _) (by simp [namesOf, card]),
    anyOrder _ _ ⟨by simp, ?_⟩ ⟨by simp, ?_⟩⟩
  · simp [golden, namesOf, card, or_comm]
  · simp [current, namesOf, card, or_comm]

end ComposeStability.Report
