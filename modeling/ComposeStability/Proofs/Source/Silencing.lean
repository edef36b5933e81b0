/-
# Proofs.Source.Silencing -- which comments silence the rest of a line

Groups of comments are searched by halving, which finds the first group that
starts at or after a position (`getElem?_searchGroups`).  Only the comment that
opens this group is read: it decides whether the line is silenced
(`silencedAt_iff_opening`).  So a comment that silences is heard unless another
one stands before it on the line (`silencedAt_iff_unless_hidden`).
-/
import ComposeStability.Source.File

namespace ComposeStability.Source.File

set_option autoImplicit false

/-! ## Groups in a row -/

/-- Where a group of comments starts. -/
def groupStart (group : List Comment) : Pos := (group.head?.map (·.pos)).getD 0

/-- Groups of comments in the order of the source: none starts before an earlier one. -/
def InOrder (groups : List (List Comment)) : Prop :=
  groups.Pairwise fun group later => groupStart group ≤ groupStart later

theorem InOrder.start_le {groups : List (List Comment)} (ordered : InOrder groups) {i j : Nat}
    (before : i ≤ j) (within : j < groups.length) :
    groupStart (groups[i]) ≤ groupStart (groups[j]) := by
  rcases Nat.lt_or_eq_of_le before with earlier | rfl
  · exact List.pairwise_iff_getElem.1 ordered i j (by omega) within earlier
  · exact Nat.le_refl _

/-! ## Searching by halving -/

/-- The groups before an index start before a position. -/
def EarlyBelow (groups : List (List Comment)) (pos : Pos) (index : Nat) : Prop :=
  ∀ i (inside : i < groups.length), i < index → groupStart groups[i] < pos

/-- The groups from an index on do not. -/
def LateFrom (groups : List (List Comment)) (pos : Pos) (index : Nat) : Prop :=
  ∀ i (inside : i < groups.length), index ≤ i → pos ≤ groupStart groups[i]

theorem start_middle {groups : List (List Comment)} {middle : Nat}
    (inside : middle < groups.length) :
    ((groups.toArray[middle]?.getD []).head?.map (·.pos)).getD 0 = groupStart groups[middle] := by
  simp [groupStart, inside]

/-- Halving keeps the groups below its range early and those above it late, so it ends where they
part. -/
theorem searchGroups_parts {groups : List (List Comment)} (ordered : InOrder groups) (pos : Pos)
    (low high : Nat) (range : low ≤ high) (within : high ≤ groups.length)
    (early : EarlyBelow groups pos low) (late : LateFrom groups pos high) :
    searchGroups groups.toArray pos low high ≤ groups.length ∧
      EarlyBelow groups pos (searchGroups groups.toArray pos low high) ∧
      LateFrom groups pos (searchGroups groups.toArray pos low high) := by
  fun_induction searchGroups groups.toArray pos low high with
  | case1 low high apart middle start before ih =>
      have inside : middle < groups.length := by omega
      have there : start = groupStart groups[middle] := start_middle inside
      rw [there] at before
      refine ih (by omega) within (fun i _ below => ?_) late
      exact Nat.lt_of_le_of_lt (ordered.start_le (Nat.le_of_lt_succ below) inside) before
  | case2 low high apart middle start behind ih =>
      have inside : middle < groups.length := by omega
      have there : start = groupStart groups[middle] := start_middle inside
      rw [there, Nat.not_lt] at behind
      refine ih (by omega) (by omega) early fun i inside' above => ?_
      exact Nat.le_trans behind (ordered.start_le above inside')
  | case3 low high together =>
      obtain rfl : low = high := by omega
      exact ⟨within, early, late⟩

/-- The first group that starts at or after a position is found. -/
theorem getElem?_searchGroups {groups : List (List Comment)} (ordered : InOrder groups)
    (pos : Pos) :
    groups[searchGroups groups.toArray pos 0 groups.length]? =
      groups.find? fun group => decide (pos ≤ groupStart group) := by
  obtain ⟨within, early, late⟩ := searchGroups_parts ordered pos 0 groups.length (Nat.zero_le _)
    (Nat.le_refl _) (fun i _ below => absurd below (Nat.not_lt_zero i))
    (fun i inside above => absurd inside (Nat.not_lt_of_le above))
  generalize searchGroups groups.toArray pos 0 groups.length = index at within early late
  rcases Nat.lt_or_eq_of_le within with inside | rfl
  · rw [List.getElem?_eq_getElem inside, eq_comm, List.find?_eq_some_iff_getElem]
    refine ⟨decide_eq_true (late index inside (Nat.le_refl _)), index, inside, rfl, ?_⟩
    intro i below
    have before := early i (Nat.lt_trans below inside) below
    simpa using before
  · rw [List.getElem?_eq_none (Nat.le_refl _), eq_comm, List.find?_eq_none]
    intro group member
    obtain ⟨i, inside, rfl⟩ := List.getElem_of_mem member
    simpa using early i inside inside

/-! ## The comment that decides -/

/-- The comment that opens the first group from a position on. -/
def opening? (f : File) (pos : Pos) : Option Comment :=
  (f.comments.find? fun group => decide (pos ≤ groupStart group)).bind (·.head?)

/-- A comment silences the line of a position, from the position on. -/
structure SilencesLine (f : File) (pos : Pos) (c : Comment) : Prop where
  behind : pos ≤ c.pos
  beside : f.lineOf c.pos = f.lineOf pos
  silences : Comment.silences c.text = true

/-- Some comment of the file silences the line of a position, from the position on. -/
def SilencedLine (f : File) (pos : Pos) : Prop :=
  ∃ group ∈ f.comments, ∃ c ∈ group, f.SilencesLine pos c

theorem opening?_eq_some {f : File} {pos : Pos} {c : Comment} (opens : f.opening? pos = some c) :
    pos ≤ c.pos ∧ ∃ group ∈ f.comments, c ∈ group := by
  obtain ⟨group, found, first⟩ := Option.bind_eq_some_iff.1 opens
  have start : groupStart group = c.pos := by rw [groupStart, first]; rfl
  have behind : pos ≤ groupStart group := by simpa using List.find?_some found
  exact ⟨start ▸ behind, group, List.mem_of_find?_eq_some found, List.mem_of_mem_head? first⟩

/-- The comment that opens the first group from a position on decides. -/
theorem silencedAt_iff_opening {f : File} (ordered : InOrder f.comments) (pos : Pos) :
    f.silencedAt pos = true ↔ ∃ c, f.opening? pos = some c ∧ f.SilencesLine pos c := by
  have found : (f.comments.toArray[searchGroups f.comments.toArray pos 0
      f.comments.toArray.size]?.getD []).head? = f.opening? pos := by
    rw [List.getElem?_toArray, List.size_toArray, getElem?_searchGroups ordered, opening?]
    cases f.comments.find? fun group => decide (pos ≤ groupStart group) <;> rfl
  rw [silencedAt, found]
  cases opens : f.opening? pos with
  | none => simp
  | some c =>
      simp only [Bool.and_eq_true, beq_iff_eq, Option.some.injEq, exists_eq_left']
      constructor
      · rintro ⟨beside, silences⟩
        exact ⟨(opening?_eq_some opens).1, beside, silences⟩
      · exact fun line => ⟨line.beside, line.silences⟩

/-! ## Comments that are not heard -/

/-- A comment silences the line of a position, but another one opens the first group from the
position on. -/
def Hidden (f : File) (pos : Pos) : Prop :=
  f.SilencedLine pos ∧ ∀ c, f.opening? pos = some c → ¬ f.SilencesLine pos c

/-- A position that no group reaches around, as no group reaches around a name. -/
def Outside (f : File) (pos : Pos) : Prop :=
  ∀ group ∈ f.comments, group ≠ [] ∧ (pos ≤ groupStart group ∨ ∀ c ∈ group, c.pos < pos)

/-- The first comment from a position on. -/
def firstFrom? (f : File) (pos : Pos) : Option Comment :=
  f.comments.flatten.find? fun c => decide (pos ≤ c.pos)

/-- Outside of the groups, the comment that opens the next group is the next comment. -/
theorem opening?_eq_firstFrom? {f : File} {pos : Pos} (outside : f.Outside pos) :
    f.opening? pos = f.firstFrom? pos := by
  unfold opening? firstFrom?
  unfold Outside at outside
  generalize f.comments = groups at outside ⊢
  induction groups with
  | nil => rfl
  | cons group groups ih =>
      obtain ⟨⟨filled, here⟩, others⟩ := List.forall_mem_cons.1 outside
      rcases here with behind | before
      · obtain ⟨c, rest, rfl⟩ := List.exists_cons_of_ne_nil filled
        have opens : pos ≤ c.pos := behind
        simp [behind, opens]
      · have early : ¬ pos ≤ groupStart group := by
          obtain ⟨c, rest, rfl⟩ := List.exists_cons_of_ne_nil filled
          exact Nat.not_le_of_lt (before c List.mem_cons_self)
        have skipped : group.find? (fun c => decide (pos ≤ c.pos)) = none := by
          rw [List.find?_eq_none]
          intro c member
          simpa using before c member
        rw [List.find?_cons_of_neg (by simpa using early), List.flatten_cons, List.find?_append,
          skipped, Option.none_or, ih others]

theorem exists_firstFrom? {f : File} {pos : Pos} (silenced : f.SilencedLine pos) :
    ∃ c, f.firstFrom? pos = some c := by
  obtain ⟨group, listed, c, member, line⟩ := silenced
  rw [← Option.isSome_iff_exists, firstFrom?, List.find?_isSome]
  exact ⟨c, List.mem_flatten_of_mem listed member, by simpa using line.behind⟩

/-- What is heard silences the line. -/
theorem silencedLine_of_silencedAt {f : File} (ordered : InOrder f.comments) {pos : Pos}
    (heard : f.silencedAt pos = true) : f.SilencedLine pos := by
  obtain ⟨c, opens, line⟩ := (silencedAt_iff_opening ordered pos).1 heard
  obtain ⟨-, group, listed, member⟩ := opening?_eq_some opens
  exact ⟨group, listed, c, member, line⟩

/-- A line with a comment that silences it is silenced unless that comment is hidden. -/
theorem silencedAt_iff_not_hidden {f : File} (ordered : InOrder f.comments) {pos : Pos}
    (line : f.SilencedLine pos) : f.silencedAt pos = true ↔ ¬ f.Hidden pos := by
  have opening := silencedAt_iff_opening ordered pos
  constructor
  · intro heard hidden
    obtain ⟨c, opens, silences⟩ := opening.1 heard
    exact hidden.2 c opens silences
  · intro shown
    refine Decidable.byContradiction fun unheard => shown ⟨line, fun c opens silences => ?_⟩
    exact unheard (opening.2 ⟨c, opens, silences⟩)

/-- The rest of a line is silenced if some comment on it silences and is not hidden.  So all
comments that silence are heard exactly if none is hidden; and outside of the groups, where names
are, they are hidden when the first comment from the position on is another one. -/
theorem silencedAt_iff_unless_hidden {f : File} (ordered : InOrder f.comments) (pos : Pos) :
    (f.silencedAt pos = true ↔ f.SilencedLine pos ∧ ¬ f.Hidden pos) ∧
      ((f.silencedAt pos = true ↔ f.SilencedLine pos) ↔ ¬ f.Hidden pos) ∧
      (f.Outside pos → (f.Hidden pos ↔
        f.SilencedLine pos ∧ ∃ c, f.firstFrom? pos = some c ∧ ¬ f.SilencesLine pos c)) := by
  have heard : f.silencedAt pos = true ↔ f.SilencedLine pos ∧ ¬ f.Hidden pos := by
    constructor
    · intro silenced
      have line := silencedLine_of_silencedAt ordered silenced
      exact ⟨line, (silencedAt_iff_not_hidden ordered line).1 silenced⟩
    · exact fun ⟨line, shown⟩ => (silencedAt_iff_not_hidden ordered line).2 shown
  refine ⟨heard, ?_, ?_⟩
  · rw [heard, and_iff_left_iff_imp]
    exact ⟨fun shown hidden => shown hidden.1 hidden, fun shown _ => shown⟩
  · intro outside
    refine and_congr_right fun line => ?_
    rw [opening?_eq_firstFrom? outside]
    obtain ⟨c, first⟩ := exists_firstFrom? line
    simp [first]

/-! ## One line, with and without a remark -/

namespace Demo

/-- A file with the line `func Screen(items []int /* shared */) { //nolint:stableguard`, in which
`Screen` starts at 18. -/
def screenFile (comments : List (List Comment)) : File where
  name := "ui.go"
  base := 1
  size := 75
  lines := [0, 11, 12, 73]
  packageName := "ui"
  package := 1
  comments

/-- The comment at the end of the line. -/
def nolint : Comment := ⟨53, "//nolint:stableguard"⟩

/-- The remark on the parameter. -/
def shared : Comment := ⟨37, "/* shared */"⟩

theorem nolint_silences (comments : List (List Comment)) :
    (screenFile comments).SilencesLine 18 nolint where
  behind := by decide
  beside := by
    show (screenFile []).lineOf nolint.pos = (screenFile []).lineOf 18
    decide
  silences := by decide

/-- Alone, the comment at the end of the line silences it. -/
theorem screen_silenced :
    InOrder (screenFile [[nolint]]).comments ∧ (screenFile [[nolint]]).silencedAt 18 = true := by
  have ordered : InOrder (screenFile [[nolint]]).comments := List.pairwise_singleton _ _
  have line : (screenFile [[nolint]]).SilencedLine 18 :=
    ⟨[nolint], List.mem_singleton.2 rfl, nolint, List.mem_singleton.2 rfl, nolint_silences _⟩
  refine ⟨ordered, (silencedAt_iff_unless_hidden ordered 18).1.2 ⟨line, fun hidden => ?_⟩⟩
  exact hidden.2 nolint rfl (nolint_silences _)

/-- Behind a remark on a parameter, the comment at the end of the line is not heard. -/
theorem screen_unheard :
    InOrder (screenFile [[shared], [nolint]]).comments ∧
      ¬ ((screenFile [[shared], [nolint]]).silencedAt 18 = true ↔
        (screenFile [[shared], [nolint]]).SilencedLine 18) := by
  have ordered : InOrder (screenFile [[shared], [nolint]]).comments :=
    List.pairwise_pair.2 (by decide)
  have line : (screenFile [[shared], [nolint]]).SilencedLine 18 :=
    ⟨[nolint], by decide, nolint, List.mem_singleton.2 rfl, nolint_silences _⟩
  have loud : Comment.silences shared.text = false := by decide
  refine ⟨ordered, fun same => (silencedAt_iff_not_hidden ordered line).1 (same.2 line) ?_⟩
  refine ⟨line, fun c opens silences => ?_⟩
  obtain rfl : shared = c := Option.some.inj opens
  exact absurd silences.silences (by simp [loud])

end Demo

end ComposeStability.Source.File
