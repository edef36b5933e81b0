/-
# Proofs.Stability.Ties -- when the order of the parts shows

Of obstacles with one text a combination keeps the one that comes first among
its parts (`find_combine`).  So parts can be moved freely just if no two
different obstacles share a text; and as the text of a runtime obstacle does not
tell where its type name ends, there are such ties.  An explanation shows one
of them just if no part is unstable, and the type name of one obstacle spells
out the name and the reason of another (`Spells`).  Without such ties it does not
matter either how obstacles of one text are sorted (`combine_order_iff`).
-/
import ComposeStability.Proofs.Stability.Regrouping
import Mathlib.Tactic.TFAE

namespace ComposeStability.Stability

set_option autoImplicit false

/-! ## Obstacles that share a text -/

namespace Obstacle

/-- A type with a reason, and a type without one whose name reads like both. -/
def Spells (a b : Obstacle) : Prop :=
  ∃ typeName reason, reason ≠ "" ∧ a = .runtime typeName reason ∧
    b = .runtime (typeName ++ ": " ++ reason) ""

theorem text_runtime {typeName reason : String} :
    text (.runtime typeName reason) =
      "Runtime(" ++ (if reason = "" then typeName else typeName ++ ": " ++ reason) ++ ")" := by
  by_cases empty : reason = ""
  · simp [text, empty]
  · simp [text, empty, String.append_assoc]

theorem Spells.text_eq {a b : Obstacle} (spells : Spells a b) : a.text = b.text := by
  obtain ⟨typeName, reason, filled, rfl, rfl⟩ := spells
  rw [text_runtime, text_runtime, if_neg filled, if_pos rfl]

/-- The third character of a text tells the four kinds of obstacles apart. -/
def mark : Obstacle → Char
  | .unstable _ => 's'
  | .runtime _ _ => 'n'
  | .unknown _ => 'k'
  | .parametric _ => 'r'

theorem text_getElem_mark (o : Obstacle) : o.text.toList[2]? = some o.mark := by
  cases o with
  | runtime typeName reason =>
      simp only [text]
      split <;> simp [mark]
  | _ => simp [text, mark]

/-- Only runtime obstacles can be mistaken for each other. -/
theorem runtime_of_text_eq {a b : Obstacle} (same : a.text = b.text) (differ : a ≠ b) :
    (∃ typeName reason, a = .runtime typeName reason) ∧
      ∃ typeName reason, b = .runtime typeName reason := by
  have marks : a.mark = b.mark := by
    rw [← Option.some_inj, ← text_getElem_mark, ← text_getElem_mark, same]
  cases a with
  | runtime typeName reason =>
      cases b with
      | runtime typeName' reason' => exact ⟨⟨_, _, rfl⟩, _, _, rfl⟩
      | _ => simp [mark] at marks
  | unstable reason =>
      cases b with
      | unstable reason' => exact absurd (by simpa [text] using same) differ
      | _ => simp [mark] at marks
  | unknown declaration =>
      cases b with
      | unknown declaration' => exact absurd (by simpa [text] using same) differ
      | _ => simp [mark] at marks
  | parametric parameter =>
      cases b with
      | parametric parameter' => exact absurd (by simpa [text] using same) differ
      | _ => simp [mark] at marks

/-- A text gives the explanation away, except where one obstacle spells the other. -/
theorem explain_eq_of_text_eq {a b : Obstacle} (same : a.text = b.text) :
    a.explain = b.explain ∨ Spells a b ∨ Spells b a := by
  by_cases equal : a = b
  · exact .inl (by rw [equal])
  obtain ⟨⟨name, reason, rfl⟩, name', reason', rfl⟩ := runtime_of_text_eq same equal
  rw [text_runtime, text_runtime, String.append_left_inj, String.append_right_inj] at same
  by_cases empty : reason = "" <;> by_cases empty' : reason' = ""
  · subst empty empty'
    rw [if_pos rfl, if_pos rfl] at same
    exact absurd (by rw [same]) equal
  · subst empty
    rw [if_pos rfl, if_neg empty'] at same
    exact .inr (.inr ⟨name', reason', empty', rfl, by rw [same]⟩)
  · subst empty'
    rw [if_neg empty, if_pos rfl] at same
    exact .inr (.inl ⟨name, reason, empty, rfl, by rw [same]⟩)
  · rw [if_neg empty, if_neg empty'] at same
    exact .inl (by rw [explain_runtime, explain_runtime, if_neg empty, if_neg empty', same])

theorem Spells.explain_eq {a b : Obstacle} (spells : Spells a b) :
    b.explain = "stability of " ++ a.explain ++ " is decided at runtime" := by
  obtain ⟨typeName, reason, filled, rfl, rfl⟩ := spells
  rw [explain_runtime, explain_runtime, if_neg filled, if_pos rfl]

end Obstacle

/-! ## The first of each text -/

theorem Tidy.find_eq {parts : List Obstacle} (tidy : Tidy parts) {o : Obstacle}
    (given : o ∈ parts) : parts.find? (fun p => p.text = o.text) = some o := by
  cases found : parts.find? fun p => p.text = o.text with
  | none =>
      have other : ¬ o.text = o.text := by simpa using List.find?_eq_none.1 found o given
      exact absurd rfl other
  | some p =>
      have same : p.text = o.text := by simpa using List.find?_some found
      rw [tidy.eq_of_text_eq (List.mem_of_find?_eq_some found) given same]

namespace Verdict

theorem find_dropRepeats (parts : List Obstacle) (t : String) :
    (dropRepeats parts).find? (fun o => o.text = t) = parts.find? fun o => o.text = t := by
  fun_induction dropRepeats parts with
  | case1 => rfl
  | case2 o => rfl
  | case3 a b rest same ih =>
      rw [ih]
      simp only [List.find?_cons, same]
      cases decide (b.text = t) <;> rfl
  | case4 a b rest differ ih =>
      rw [List.find?_cons, List.find?_cons, ih]

/-- Sorting is stable: obstacles of one text stay in their order. -/
theorem filter_sortByText (parts : List Obstacle) (t : String) :
    (sortByText parts).filter (fun o => o.text = t) = parts.filter fun o => o.text = t := by
  have level : (parts.filter fun o => o.text = t).Pairwise fun a b =>
      decide (a.text ≤ b.text) = true := by
    refine List.pairwise_of_forall_mem_list fun a mem b mem' => ?_
    have text := of_decide_eq_true (List.mem_filter.1 mem).2
    have text' := of_decide_eq_true (List.mem_filter.1 mem').2
    have same : a.text = b.text := text.trans text'.symm
    exact decide_eq_true (same ▸ String.le_refl a.text)
  have kept := List.sublist_mergeSort
    (fun a b c ab bc => by simpa using String.le_trans (by simpa using ab) (by simpa using bc))
    (fun a b => by simpa using String.le_total a.text b.text) level List.filter_sublist
  have again := kept.filter fun o => decide (o.text = t)
  simp only [List.filter_filter, Bool.and_self] at again
  refine (again.eq_of_length ?_).symm
  exact ((List.mergeSort_perm _ _).filter _).length_eq.symm

/-- A combination keeps the first obstacle of each text. -/
theorem find_combine (parts : List Verdict) (t : String) :
    (combine (parts.map some)).obstacles.find? (fun o => o.text = t) =
      (parts.flatMap obstacles).find? fun o => o.text = t := by
  rw [obstacles_combine, find_dropRepeats, ← List.head?_filter, filter_sortByText,
    List.head?_filter]

/-- Every obstacle survives if its part comes first. -/
theorem exists_perm_kept {parts : List Verdict} (tidy : ∀ part ∈ parts, Tidy part.obstacles)
    {o : Obstacle} (given : o ∈ parts.flatMap obstacles) :
    ∃ others, parts.Perm others ∧ o ∈ (combine (others.map some)).obstacles := by
  obtain ⟨part, mem, own⟩ := List.mem_flatMap.1 given
  refine ⟨part :: parts.erase part, List.perm_cons_erase mem, ?_⟩
  have first : (combine ((part :: parts.erase part).map some)).obstacles.find?
      (fun p => p.text = o.text) = some o := by
    rw [find_combine, List.flatMap_cons, List.find?_append, (tidy part mem).find_eq own]
    rfl
  exact List.mem_of_find?_eq_some first

section
variable {parts others : List Verdict} {verdict other : Verdict}

theorem Combines.texts_of_perm (combines : Combines parts verdict)
    (combines' : Combines others other) (perm : parts.Perm others) :
    other.obstacles.map Obstacle.text = verdict.obstacles.map Obstacle.text :=
  combines'.texts_eq combines fun _ => ((perm.flatMap_right _).map _).mem_iff.symm

theorem Combines.value_of_perm (combines : Combines parts verdict)
    (combines' : Combines others other) (perm : parts.Perm others) :
    other.value = verdict.value := by
  rw [value_eq_worst, value_eq_worst,
    values_eq_of_texts_eq (combines.texts_of_perm combines' perm)]

/-- Where no two different obstacles share a text, neither the order of the parts nor the way they
are sorted matters. -/
theorem Combines.eq_of_apart (combines : Combines parts verdict)
    (combines' : Combines others other) (perm : parts.Perm others)
    (apart : ∀ a ∈ parts.flatMap obstacles, ∀ b ∈ parts.flatMap obstacles,
      a.text = b.text → a = b) : other = verdict := by
  have same := map_eq_of_texts_eq id (combines.texts_of_perm combines' perm)
    fun a kept b kept' text =>
      apart a ((perm.flatMap_right _).mem_iff.2 (combines'.mem kept)) b (combines.mem kept') text
  rw [List.map_id, List.map_id] at same
  rw [combines.eq_combined, combines'.eq_combined, same]

end

/-! ## Explanations of lists with the same texts -/

/-- What is said of the obstacles that decide. -/
def speak (outcome : Value) (parts : List Obstacle) : List String :=
  (parts.filter fun o => o.value == outcome).map Obstacle.explain

theorem Combines.explain_eq {parts : List Verdict} {verdict : Verdict}
    (combines : Combines parts verdict) :
    verdict.explain = "; ".intercalate (speak verdict.value verdict.obstacles) := by
  rw [combines.eq_combined]
  rfl

theorem texts_filter (outcome : Value) : ∀ {xs ys : List Obstacle},
    xs.map Obstacle.text = ys.map Obstacle.text →
    (xs.filter fun o => o.value == outcome).map Obstacle.text =
      (ys.filter fun o => o.value == outcome).map Obstacle.text
  | [], [], _ => rfl
  | x :: xs, y :: ys, same => by
      obtain ⟨head, tail⟩ := List.cons.inj same
      have rest := texts_filter outcome tail
      simp only [List.filter_cons, Obstacle.value_eq_of_text_eq head]
      split
      · rw [List.map_cons, List.map_cons, head, rest]
      · exact rest

theorem speak_eq {outcome : Value} {xs ys : List Obstacle}
    (same : xs.map Obstacle.text = ys.map Obstacle.text)
    (told : ∀ x ∈ xs, ∀ y ∈ ys, x.value = outcome → x.text = y.text → x.explain = y.explain) :
    speak outcome xs = speak outcome ys := by
  refine map_eq_of_texts_eq Obstacle.explain (texts_filter outcome same) ?_
  intro x mem y mem' text
  obtain ⟨given, deciding⟩ := List.mem_filter.1 mem
  exact told x given y (List.mem_filter.1 mem').1 (eq_of_beq deciding) text

theorem explain_eq_of_unstable {a b : Obstacle} (unstable : a.value = .unstable)
    (same : a.text = b.text) : a.explain = b.explain := by
  refine (Obstacle.explain_eq_of_text_eq same).resolve_right ?_
  rintro (⟨typeName, reason, -, rfl, -⟩ | ⟨typeName, reason, -, -, rfl⟩) <;>
    simp [Obstacle.value] at unstable

/-- A text behind which a separator stands does not go on from itself as `s` does. -/
theorem shifted_ne {s : List Char} (filled : s ≠ []) (plain : ';' ∉ s) (x e r : List Char)
    (behind : r = [] ∨ r.head? = some ';') : s ++ x ++ e ≠ x ++ r := by
  intro equal
  have longer := List.length_pos_iff.2 filled
  by_cases short : x.length < s.length
  · have here : (s ++ x ++ e)[x.length]? = r.head? := by
      rw [equal, List.getElem?_append_right (Nat.le_refl _), Nat.sub_self, List.head?_eq_getElem?]
    rw [List.append_assoc, List.getElem?_append_left short,
      List.getElem?_eq_getElem short] at here
    rcases behind with rfl | separator
    · simp at here
    · rw [separator, Option.some.injEq] at here
      exact plain (here ▸ List.getElem_mem short)
  · have own : s <+: x := by
      refine List.prefix_of_prefix_length_le ?_ (List.prefix_append x r) (Nat.le_of_not_lt short)
      rw [← equal, List.append_assoc]
      exact List.prefix_append s _
    obtain ⟨rest, joined⟩ := own
    have less : rest.length < x.length := by
      rw [← joined, List.length_append]
      omega
    refine shifted_ne filled plain rest e r behind ?_
    rw [← joined] at equal
    simpa using equal
termination_by x.length

/-- What follows the first of several explanations. -/
theorem intercalate_eq (x : String) (rest : List String) :
    ∃ behind : String, "; ".intercalate (x :: rest) = x ++ behind ∧
      (behind = "" ∨ behind.toList.head? = some ';') := by
  cases rest with
  | nil => exact ⟨"", by simp, .inl rfl⟩
  | cons y rest =>
      refine ⟨"; " ++ "; ".intercalate (y :: rest), ?_, .inr (by simp)⟩
      rw [String.intercalate_cons_cons, String.append_assoc]

theorem spelled_ne {a b : Obstacle} (spells : Obstacle.Spells a b) (xs ys : List String) :
    "; ".intercalate (b.explain :: ys) ≠ "; ".intercalate (a.explain :: xs) := by
  obtain ⟨behind, long, -⟩ := intercalate_eq b.explain ys
  obtain ⟨behind', short, separated⟩ := intercalate_eq a.explain xs
  rw [long, short, spells.explain_eq]
  intro equal
  have chars := congrArg String.toList equal
  simp only [String.toList_append, List.append_assoc] at chars
  refine shifted_ne (s := "stability of ".toList) (by decide) (by decide) a.explain.toList
    (" is decided at runtime".toList ++ behind.toList) behind'.toList ?_ ?_
  · exact separated.imp_left fun empty => by rw [empty]; rfl
  · rw [← chars, List.append_assoc]

/-- Lists that agree in texts and in `f` agree in `f` wherever they agree in the text. -/
theorem eq_of_maps_eq {α : Type} {f : Obstacle → α} {xs ys : List Obstacle}
    (texts : xs.map Obstacle.text = ys.map Obstacle.text) (same : xs.map f = ys.map f)
    (tidy : Tidy ys) {a b : Obstacle} (given : a ∈ xs) (given' : b ∈ ys)
    (text : a.text = b.text) : f a = f b := by
  obtain ⟨i, here⟩ := List.mem_iff_getElem?.1 given
  have text' : ys[i]?.map Obstacle.text = some a.text := by
    rw [← List.getElem?_map, ← texts, List.getElem?_map, here]
    rfl
  have value : ys[i]?.map f = some (f a) := by
    rw [← List.getElem?_map, ← same, List.getElem?_map, here]
    rfl
  obtain ⟨c, there, own⟩ := Option.map_eq_some_iff.1 text'
  have found := tidy.eq_of_text_eq (List.mem_of_getElem? there) given' (own.trans text)
  rw [there, found] at value
  exact (Option.some.inj value).symm

theorem tail_of_intercalate_eq {x : String} : ∀ {xs ys : List String},
    xs.length = ys.length → "; ".intercalate (x :: xs) = "; ".intercalate (x :: ys) →
    "; ".intercalate xs = "; ".intercalate ys
  | [], [], _, _ => rfl
  | a :: xs, b :: ys, _, equal => by
      rw [String.intercalate_cons_cons, String.intercalate_cons_cons] at equal
      exact String.append_right_inj _ |>.1 equal

/-- Lists of obstacles with the same texts that sound the same say the same one by one. -/
theorem explain_of_intercalate_eq : ∀ {xs ys : List Obstacle},
    xs.map Obstacle.text = ys.map Obstacle.text →
    "; ".intercalate (xs.map Obstacle.explain) = "; ".intercalate (ys.map Obstacle.explain) →
    xs.map Obstacle.explain = ys.map Obstacle.explain
  | [], [], _, _ => rfl
  | x :: xs, y :: ys, same, equal => by
      obtain ⟨head, tail⟩ := List.cons.inj same
      rcases Obstacle.explain_eq_of_text_eq head with agree | spells | spells
      · rw [List.map_cons, List.map_cons, agree]
        rw [List.map_cons, List.map_cons, agree] at equal
        have rest := tail_of_intercalate_eq (by simpa using congrArg List.length tail) equal
        rw [explain_of_intercalate_eq tail rest]
      · exact absurd equal.symm (spelled_ne spells _ _)
      · exact absurd equal (spelled_ne spells _ _)

/-! ## Moving parts -/

/-- If parts can be moved freely, no two different obstacles share a text. -/
theorem apart_of_unmoved {parts : List Verdict} (tidy : ∀ part ∈ parts, Tidy part.obstacles)
    (unmoved : ∀ others, parts.Perm others → combine (others.map some) = combine (parts.map some)) :
    ∀ a ∈ parts.flatMap obstacles, ∀ b ∈ parts.flatMap obstacles, a.text = b.text → a = b := by
  intro a given b given' same
  obtain ⟨others, perm, kept⟩ := exists_perm_kept tidy given
  obtain ⟨others', perm', kept'⟩ := exists_perm_kept tidy given'
  rw [unmoved others perm] at kept
  rw [unmoved others' perm'] at kept'
  exact (combines_combine parts).tidy.eq_of_text_eq kept kept' same

/-- The outcome of a combination is that of all obstacles it was given. -/
theorem value_combine_obstacles (parts : List Verdict) :
    (combine (parts.map some)).value = worst ((parts.flatMap obstacles).map Obstacle.value) := by
  rw [value_eq_worst, obstacles_combine]
  exact worst_congr mem_values_dropRepeats fun _ => mem_values_dropRepeats

theorem value_combine_unstable_iff (parts : List Verdict) :
    (combine (parts.map some)).value = .unstable ↔
      ∃ reason, .unstable reason ∈ parts.flatMap obstacles := by
  rw [value_combine_obstacles, worst_eq_unstable_iff, List.mem_map]
  constructor
  · rintro ⟨o, given, unstable⟩
    cases o with
    | unstable reason => exact ⟨reason, given⟩
    | _ => simp [Obstacle.value] at unstable
  · rintro ⟨reason, given⟩
    exact ⟨_, given, rfl⟩

/-- Without unstable parts every obstacle is spoken of. -/
theorem Combines.explain_runtime {parts : List Verdict} {verdict : Verdict}
    (combines : Combines parts verdict) (outcome : verdict.value = .runtime) :
    verdict.explain = "; ".intercalate (verdict.obstacles.map Obstacle.explain) := by
  have all : ∀ o ∈ verdict.obstacles, (o.value == .runtime) = true := by
    intro o kept
    rw [value_eq_worst] at outcome
    obtain ⟨calm, -⟩ := worst_eq_runtime_iff.1 outcome
    refine beq_iff_eq.2 ((Obstacle.value_eq_runtime_iff o).2 fun unstable => calm ?_)
    rw [← unstable]
    exact List.mem_map_of_mem kept
  rw [combines.explain_eq, outcome, speak, List.filter_eq_self.2 all]

/-- If moving parts does not change the explanation, some part is unstable or no obstacle spells out
another. -/
theorem told_of_unmoved {parts : List Verdict} (tidy : ∀ part ∈ parts, Tidy part.obstacles)
    (unmoved : ∀ others, parts.Perm others →
      (combine (others.map some)).explain = (combine (parts.map some)).explain) :
    (∃ reason, .unstable reason ∈ parts.flatMap obstacles) ∨
      ∀ a ∈ parts.flatMap obstacles, ∀ b ∈ parts.flatMap obstacles, ¬ Obstacle.Spells a b := by
  refine Classical.or_iff_not_imp_left.2 fun calm a given b given' spells => ?_
  have runtime : .runtime ∈ (parts.flatMap obstacles).map Obstacle.value := by
    obtain ⟨typeName, reason, -, rfl, -⟩ := spells
    exact List.mem_map_of_mem given
  have outcome : (combine (parts.map some)).value = .runtime := by
    rw [← value_combine_unstable_iff, value_combine_obstacles, worst_eq_unstable_iff] at calm
    rw [value_combine_obstacles, worst_eq_runtime_iff]
    exact ⟨calm, runtime⟩
  have own := combines_combine parts
  obtain ⟨others, perm, kept⟩ := exists_perm_kept tidy given
  obtain ⟨others', perm', kept'⟩ := exists_perm_kept tidy given'
  have first := combines_combine others
  have second := combines_combine others'
  have texts := (own.texts_of_perm first perm).trans (own.texts_of_perm second perm').symm
  have spoken := (unmoved others perm).trans (unmoved others' perm').symm
  rw [first.explain_runtime ((own.value_of_perm first perm).trans outcome),
    second.explain_runtime ((own.value_of_perm second perm').trans outcome)] at spoken
  have agree := eq_of_maps_eq texts (explain_of_intercalate_eq texts spoken) second.tidy kept kept'
    spells.text_eq
  rw [spells.explain_eq] at agree
  have lengths := congrArg String.length agree
  simp only [String.length_append] at lengths
  have filled : 0 < "stability of ".length := by decide
  omega

/-- Neither the order of the parts nor the way they are sorted changes the explanation if some part
is unstable or no obstacle spells out another. -/
theorem Combines.explain_eq_of_told {parts others : List Verdict} {verdict other : Verdict}
    (combines : Combines parts verdict) (combines' : Combines others other)
    (perm : parts.Perm others)
    (told : (∃ reason, .unstable reason ∈ parts.flatMap obstacles) ∨
      ∀ a ∈ parts.flatMap obstacles, ∀ b ∈ parts.flatMap obstacles, ¬ Obstacle.Spells a b) :
    other.explain = verdict.explain := by
  have outcome := combines.value_of_perm combines' perm
  rw [combines.explain_eq, combines'.explain_eq, outcome]
  congr 1
  refine speak_eq (combines.texts_of_perm combines' perm) fun a kept b kept' deciding text => ?_
  have given := (perm.flatMap_right _).mem_iff.2 (combines'.mem kept)
  have given' := combines.mem kept'
  rcases told with unstable | apart
  · rw [combines.value_eq, ← value_combine, (value_combine_unstable_iff parts).2 unstable]
      at deciding
    exact explain_eq_of_unstable deciding text
  · refine (Obstacle.explain_eq_of_text_eq text).resolve_right ?_
    exact not_or.2 ⟨apart a given b given', apart b given' a given⟩

/-- Parts that were put together as `combine` does can be moved freely just if no two
different obstacles share a text.  What a combination says of them shows their order just
if nothing is unstable and one runtime obstacle spells out another.  Where the order does not
show, neither does the way in which obstacles are sorted by text. -/
theorem combine_order_iff {parts : List Verdict}
    (tidy : ∀ part ∈ parts, Tidy part.obstacles) :
    [∀ others, parts.Perm others → combine (others.map some) = combine (parts.map some),
      ∀ a ∈ parts.flatMap obstacles, ∀ b ∈ parts.flatMap obstacles, a.text = b.text → a = b,
      ∀ others other, parts.Perm others → Combines others other →
        other = combine (parts.map some)].TFAE ∧
    [∀ others, parts.Perm others →
        (combine (others.map some)).explain = (combine (parts.map some)).explain,
      (∃ reason, .unstable reason ∈ parts.flatMap obstacles) ∨
        ∀ a ∈ parts.flatMap obstacles, ∀ b ∈ parts.flatMap obstacles, ¬ Obstacle.Spells a b,
      ∀ others other, parts.Perm others → Combines others other →
        other.explain = (combine (parts.map some)).explain].TFAE := by
  have own := combines_combine parts
  constructor
  · tfae_have 1 → 2 := apart_of_unmoved tidy
    tfae_have 2 → 3 := fun apart _ _ perm combines => own.eq_of_apart combines perm apart
    tfae_have 3 → 1 := fun unmoved others perm => unmoved others _ perm (combines_combine others)
    tfae_finish
  · tfae_have 1 → 2 := told_of_unmoved tidy
    tfae_have 2 → 3 := fun told _ _ perm combines => own.explain_eq_of_told combines perm told
    tfae_have 3 → 1 := fun unmoved others perm => unmoved others _ perm (combines_combine others)
    tfae_finish

/-- A tie that shows among the parts, and not in the explanation, as `x` is unstable. -/
theorem combine_order_unstable :
    (∀ part ∈ [unstable "x", runtime "A: b" "", runtime "A" "b"], Tidy part.obstacles) ∧
    (¬ ∀ others, [unstable "x", runtime "A: b" "", runtime "A" "b"].Perm others →
      combine (others.map some) =
        combine ([unstable "x", runtime "A: b" "", runtime "A" "b"].map some)) ∧
    ∀ others, [unstable "x", runtime "A: b" "", runtime "A" "b"].Perm others →
      (combine (others.map some)).explain =
        (combine ([unstable "x", runtime "A: b" "", runtime "A" "b"].map some)).explain := by
  have tidy : ∀ part ∈ [unstable "x", runtime "A: b" "", runtime "A" "b"],
      Tidy part.obstacles := by
    simp [Tidy, unstable, runtime, obstacles]
  obtain ⟨parts, spoken⟩ := combine_order_iff tidy
  refine ⟨tidy, fun unmoved => ?_, (spoken.out 0 1 rfl rfl).2 (.inl ⟨"x", by decide⟩)⟩
  have same := (parts.out 0 1 rfl rfl).1 unmoved (.runtime "A: b" "") (by decide) (.runtime "A" "b")
    (by decide) (by decide)
  exact absurd same (by decide)

/-- Two obstacles of one text leave the one that comes first. -/
theorem combine_tie {a b : Obstacle} (same : a.text = b.text) :
    combine ([.obstacle a, .obstacle b].map some) = .combined [a] := by
  have sorted : sortByText [a, b] = [a, b] := by
    refine List.mergeSort_of_pairwise ?_
    simp [same]
  rw [combine_some]
  simp only [List.flatMap_cons, List.flatMap_nil, obstacles, List.append_nil,
    List.singleton_append, sorted, dropRepeats, if_pos same]

/-- The same two parts in two orders: other parts remain, and another text explains them. -/
theorem combine_order_shows :
    [runtime "A: b" "", runtime "A" "b"].Perm [runtime "A" "b", runtime "A: b" ""] ∧
    combine ([runtime "A: b" "", runtime "A" "b"].map some) =
      .combined [.runtime "A: b" ""] ∧
    combine ([runtime "A" "b", runtime "A: b" ""].map some) = .combined [.runtime "A" "b"] ∧
    (combine ([runtime "A: b" "", runtime "A" "b"].map some)).explain =
      "stability of A: b is decided at runtime" ∧
    (combine ([runtime "A" "b", runtime "A: b" ""].map some)).explain = "A: b" := by
  have first : combine ([runtime "A: b" "", runtime "A" "b"].map some) =
      .combined [.runtime "A: b" ""] := combine_tie (by decide)
  have second : combine ([runtime "A" "b", runtime "A: b" ""].map some) =
      .combined [.runtime "A" "b"] := combine_tie (by decide)
  refine ⟨.swap _ _ _, first, second, ?_, ?_⟩
  · rw [first]
    rfl
  · rw [second]
    rfl

end Verdict

end ComposeStability.Stability
