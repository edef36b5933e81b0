/-
# Proofs.Text.Separated -- cutting text where it was joined

A separator is found where it was put if its first character does not occur
before it (`cut_append`), or, searching from the end, if the separator does not
occur after it (`cutLast_append`).  Lines come back from a text in which each
ends in the separating character (`splitChar_join`).
-/
import ComposeStability.Text.Blank
import ComposeStability.Text.Cut
import Mathlib.Data.List.Infix

namespace ComposeStability.Text

set_option autoImplicit false

/-! ## Separators -/

@[simp] theorem afterStart?_append (start after : List Char) :
    afterStart? start (start ++ after) = some after :=
  afterStart?_eq_some_iff.2 rfl

theorem afterStart?_ne {a c : Char} (differ : a ≠ c) (start rest : List Char) :
    afterStart? (a :: start) (c :: rest) = none := by
  simp [afterStart?, differ]

/-- The first occurrence of a separator is where its first character first occurs. -/
theorem cut_append {a : Char} {before : List Char} (absent : a ∉ before)
    (sep after : List Char) :
    cut (a :: sep) (before ++ (a :: sep ++ after)) = some (before, after) := by
  induction before with
  | nil =>
      have found := afterStart?_append (a :: sep) after
      simp only [List.cons_append] at found
      simp only [List.nil_append, List.cons_append, cut, found]
  | cons c rest ih =>
      have differ : a ≠ c := fun same => absent (same ▸ List.mem_cons_self)
      have elsewhere : a ∉ rest := fun member => absent (List.mem_cons_of_mem c member)
      rw [List.cons_append, cut, afterStart?_ne differ, ih elsewhere]
      rfl

theorem cut_absent {a : Char} {text : List Char} (absent : a ∉ text) (sep : List Char) :
    cut (a :: sep) text = none := by
  cases found : cut (a :: sep) text with
  | none => rfl
  | some parts =>
      have joined := cut_eq_append found
      exact absurd (by simp [joined]) absent

theorem cutLast_absent {sep text : List Char} (absent : ¬ sep <:+: text) :
    cutLast sep text = none := by
  cases found : cutLast sep text with
  | none => rfl
  | some parts =>
      have joined := cutLast_eq_append found
      exact absurd ⟨parts.1, parts.2, joined.symm⟩ absent

theorem cutLast_skip {a : Char} {sep skipped after : List Char} (absent : a ∉ skipped)
    (none_after : cutLast (a :: sep) after = none) :
    cutLast (a :: sep) (skipped ++ after) = none := by
  induction skipped with
  | nil => exact none_after
  | cons c rest ih =>
      have differ : a ≠ c := fun same => absent (same ▸ List.mem_cons_self)
      have elsewhere : a ∉ rest := fun member => absent (List.mem_cons_of_mem c member)
      simp only [List.cons_append, cutLast, ih elsewhere, afterStart?_ne differ, Option.map_none]

/-- A separator that does not overlap itself is found where it last occurs. -/
theorem cutLast_append {a : Char} {sep after : List Char} (once : a ∉ sep)
    (absent : ¬ (a :: sep) <:+: after) (before : List Char) :
    cutLast (a :: sep) (before ++ (a :: sep ++ after)) = some (before, after) := by
  induction before with
  | nil =>
      have none_later := cutLast_skip once (cutLast_absent absent)
      have found := afterStart?_append (a :: sep) after
      simp only [List.cons_append] at found
      simp only [List.nil_append, List.cons_append, cutLast, none_later, found, Option.map_some]
  | cons c rest ih => simp only [List.cons_append, cutLast] at ih ⊢; rw [ih]

/-- A string without its end is what stands before it. -/
theorem stripEnd?_eq_some_iff {tail s front : String} :
    stripEnd? tail s = some front ↔ s = front ++ tail := by
  rw [stripEnd?, Option.map_eq_some_iff, ← String.toList_inj, String.toList_append]
  constructor
  · rintro ⟨letters, found, rfl⟩
    rw [String.toList_ofList]
    exact (List.isSuffixOf?_eq_some_iff_append_eq.1 found).symm
  · intro joined
    exact ⟨front.toList, List.isSuffixOf?_eq_some_iff_append_eq.2 joined.symm, String.ofList_toList⟩

/-! ## Lines -/

theorem splitChar_line {sep : Char} {line : List Char} (absent : sep ∉ line)
    (rest : List Char) :
    splitChar sep (line ++ sep :: rest) = line :: splitChar sep rest := by
  induction line with
  | nil => simp [splitChar]
  | cons c line ih =>
      have differ : c ≠ sep := fun same => absent (same ▸ List.mem_cons_self)
      have elsewhere : sep ∉ line := fun member => absent (List.mem_cons_of_mem c member)
      simp [splitChar, differ, ih elsewhere]

/-- Lines that each end in the separator are followed by one empty piece. -/
theorem splitChar_join {sep : Char} {lines : List (List Char)}
    (absent : ∀ line ∈ lines, sep ∉ line) :
    splitChar sep (lines.flatMap (· ++ [sep])) = lines ++ [[]] := by
  induction lines with
  | nil => rfl
  | cons line rest ih =>
      have here := absent line List.mem_cons_self
      have later := ih fun other member => absent other (List.mem_cons_of_mem line member)
      rw [List.flatMap_cons, List.append_assoc, List.singleton_append, splitChar_line here, later]
      rfl

/-! ## Pieces -/

theorem sep_not_mem_piece {sep : Char} {s piece : List Char}
    (member : piece ∈ splitChar sep s) : sep ∉ piece := by
  induction s generalizing piece with
  | nil =>
      obtain rfl : piece = [] := by simpa [splitChar] using member
      simp
  | cons c rest ih =>
      rw [splitChar] at member
      split at member
      · rcases List.mem_cons.1 member with rfl | later
        · simp
        · exact ih later
      · next differ =>
        have other : sep ≠ c := fun same => differ (by simp [same])
        split at member
        · next empty => exact absurd empty (splitChar_ne_nil sep rest)
        · next first others pieces =>
          rcases List.mem_cons.1 member with rfl | later
          · have absent := ih (pieces ▸ List.mem_cons_self)
            simp [other, absent]
          · exact ih (pieces ▸ List.mem_cons_of_mem first later)

theorem mem_of_mem_piece {sep c : Char} {s piece : List Char} (member : piece ∈ splitChar sep s)
    (inside : c ∈ piece) : c ∈ s := by
  induction s generalizing piece with
  | nil =>
      obtain rfl : piece = [] := by simpa [splitChar] using member
      exact inside
  | cons d rest ih =>
      rw [splitChar] at member
      split at member
      · rcases List.mem_cons.1 member with rfl | later
        · cases inside
        · exact List.mem_cons_of_mem d (ih later inside)
      · split at member
        · next empty => exact absurd empty (splitChar_ne_nil sep rest)
        · next first others pieces =>
          rcases List.mem_cons.1 member with rfl | later
          · rcases List.mem_cons.1 inside with rfl | inside
            · exact List.mem_cons_self
            · exact List.mem_cons_of_mem d (ih (pieces ▸ List.mem_cons_self) inside)
          · exact List.mem_cons_of_mem d (ih (pieces ▸ List.mem_cons_of_mem first later) inside)

/-- Dividing loses nothing but the separator. -/
theorem mem_piece {sep c : Char} (differ : c ≠ sep) {s : List Char} (inside : c ∈ s) :
    ∃ piece ∈ splitChar sep s, c ∈ piece := by
  induction s with
  | nil => cases inside
  | cons d rest ih =>
      rw [splitChar]
      split
      · next here =>
        have other : c ≠ d := fun same => differ (by simpa [same] using here)
        obtain ⟨piece, member, found⟩ := ih ((List.mem_cons.1 inside).resolve_left other)
        exact ⟨piece, List.mem_cons_of_mem _ member, found⟩
      · split
        · next empty => exact absurd empty (splitChar_ne_nil sep rest)
        · next first others pieces =>
          rcases List.mem_cons.1 inside with rfl | later
          · exact ⟨_, List.mem_cons_self, List.mem_cons_self⟩
          · obtain ⟨piece, member, found⟩ := ih later
            rw [pieces] at member
            rcases List.mem_cons.1 member with rfl | among
            · exact ⟨_, List.mem_cons_self, List.mem_cons_of_mem d found⟩
            · exact ⟨piece, List.mem_cons_of_mem _ among, found⟩

/-! ## Blanks -/

/-- A text does not begin or end in white space. -/
structure Trimmed (cs : List Char) : Prop where
  first : ∀ c ∈ cs.head?, isBlank c = false
  last : ∀ c ∈ cs.getLast?, isBlank c = false

instance (cs : List Char) : Decidable (Trimmed cs) :=
  decidable_of_iff (cs.head?.all (!isBlank ·) ∧ cs.getLast?.all (!isBlank ·))
    ⟨fun ⟨first, last⟩ =>
        ⟨by simpa [Option.all_eq_true] using first, by simpa [Option.all_eq_true] using last⟩,
      fun trimmed => ⟨by simpa [Option.all_eq_true] using trimmed.first,
        by simpa [Option.all_eq_true] using trimmed.last⟩⟩

theorem trimRight_of_last {drop : Char → Bool} {cs : List Char}
    (last : ∀ c ∈ cs.getLast?, drop c = false) : trimRight drop cs = cs := by
  induction cs with
  | nil => rfl
  | cons c rest ih =>
      cases rest with
      | nil => simp [trimRight, last c (by simp)]
      | cons d rest =>
          have kept := ih fun e ends => last e (by simpa [List.getLast?_cons] using ends)
          rw [trimRight, kept]

theorem dropWhile_of_first {drop : Char → Bool} {cs : List Char}
    (first : ∀ c ∈ cs.head?, drop c = false) : cs.dropWhile drop = cs := by
  cases cs with
  | nil => rfl
  | cons c rest => simp [first c (by simp)]

theorem Trimmed.trimBlanks_eq {cs : List Char} (trimmed : Trimmed cs) : trimBlanks cs = cs := by
  rw [trimBlanks, dropWhile_of_first trimmed.first, trimRight_of_last trimmed.last]

theorem trimBlanks_lead {lead : List Char} (blank : ∀ c ∈ lead, isBlank c = true)
    (cs : List Char) : trimBlanks (lead ++ cs) = trimBlanks cs := by
  rw [trimBlanks, List.dropWhile_append_of_pos blank, trimBlanks]

theorem trimRight_prefix (drop : Char → Bool) (cs : List Char) :
    ∃ tail, cs = trimRight drop cs ++ tail ∧ ∀ c ∈ tail, drop c = true := by
  induction cs with
  | nil => exact ⟨[], rfl, by simp⟩
  | cons c rest ih =>
      obtain ⟨tail, whole, dropped⟩ := ih
      rw [trimRight]
      split
      · next emptied =>
        obtain rfl : rest = tail := by simpa [emptied] using whole
        split
        · next here => exact ⟨c :: rest, rfl, by simpa [here] using dropped⟩
        · exact ⟨rest, rfl, dropped⟩
      · exact ⟨tail, congrArg (c :: ·) whole, dropped⟩

/-- Trimming takes white space from both ends. -/
theorem trimBlanks_parts (cs : List Char) :
    ∃ lead tail, cs = lead ++ trimBlanks cs ++ tail ∧ (∀ c ∈ lead, isBlank c = true) ∧
      ∀ c ∈ tail, isBlank c = true := by
  obtain ⟨tail, rest, blank⟩ := trimRight_prefix isBlank (cs.dropWhile isBlank)
  refine ⟨cs.takeWhile isBlank, tail, ?_, fun c member => ?_, blank⟩
  · rw [List.append_assoc, trimBlanks, ← rest, List.takeWhile_append_dropWhile]
  · exact List.all_eq_true.1 List.all_takeWhile c member

theorem trimRight_last (drop : Char → Bool) (cs : List Char) :
    ∀ c ∈ (trimRight drop cs).getLast?, drop c = false := by
  induction cs with
  | nil => simp [trimRight]
  | cons d rest ih =>
      rw [trimRight]
      split
      · split
        · simp
        · next kept => simpa using kept
      · next some_kept =>
        obtain ⟨first, kept, shape⟩ := List.exists_cons_of_ne_nil some_kept
        rw [shape] at ih ⊢
        rwa [List.getLast?_cons_cons]

/-- What is left after trimming is trimmed. -/
theorem trimmed_trimBlanks (cs : List Char) : Trimmed (trimBlanks cs) := by
  refine ⟨fun c first => ?_, trimRight_last isBlank _⟩
  obtain ⟨tail, rest, -⟩ := trimRight_prefix isBlank (cs.dropWhile isBlank)
  have starts : (trimRight isBlank (cs.dropWhile isBlank)).head? = some c := first
  have visible := List.head?_dropWhile_not isBlank cs
  rw [rest, List.head?_append, starts] at visible
  simpa using visible

theorem mem_dropWhile {drop : Char → Bool} {cs : List Char} {c : Char} (member : c ∈ cs)
    (kept : drop c = false) : c ∈ cs.dropWhile drop := by
  induction cs with
  | nil => exact member
  | cons d rest ih =>
      rw [List.dropWhile_cons]
      split
      · next dropped =>
        have differ : c ≠ d := fun same => by simp [same, dropped] at kept
        exact ih ((List.mem_cons.1 member).resolve_left differ)
      · exact member

theorem trimRight_ne_nil {drop : Char → Bool} {cs : List Char} {c : Char} (member : c ∈ cs)
    (kept : drop c = false) : trimRight drop cs ≠ [] := by
  induction cs with
  | nil => simp at member
  | cons d rest ih =>
      rw [trimRight]
      split
      · next emptied =>
        have here : c = d := (List.mem_cons.1 member).resolve_right fun later => ih later emptied
        simp [← here, kept]
      · simp

/-- Trimming leaves every character that is not dropped. -/
theorem count_trimRight {drop : Char → Bool} {c : Char} (kept : drop c = false) (cs : List Char) :
    (trimRight drop cs).count c = cs.count c := by
  induction cs with
  | nil => rfl
  | cons d rest ih =>
      rw [trimRight, List.count_cons, ← ih]
      split
      · next emptied =>
        rw [emptied]
        by_cases same : d = c
        · simp [same, kept]
        · split <;> simp [same]
      · rw [List.count_cons]

theorem count_dropWhile {drop : Char → Bool} {c : Char} (kept : drop c = false) (cs : List Char) :
    (cs.dropWhile drop).count c = cs.count c := by
  induction cs with
  | nil => rfl
  | cons d rest ih =>
      rw [List.dropWhile_cons]
      split
      · next dropped =>
        have other : d ≠ c := fun same => by simp [same, kept] at dropped
        rw [ih, List.count_cons_of_ne other]
      · rfl

theorem count_trimBlanks {c : Char} (visible : isBlank c = false) (cs : List Char) :
    (trimBlanks cs).count c = cs.count c := by
  rw [trimBlanks, count_trimRight visible, count_dropWhile visible]

/-- A text with a character that is not white space is not trimmed away. -/
theorem trimBlanks_ne_nil {cs : List Char} {c : Char} (member : c ∈ cs)
    (visible : isBlank c = false) : trimBlanks cs ≠ [] :=
  trimRight_ne_nil (mem_dropWhile member visible) visible

end ComposeStability.Text
