/-
# Proofs.Text.Words -- words divided by white space

A word is found where it ends in a blank or in the end of the text
(`fields_cons`, `fields_word`), and trimming takes no word away (`fields_trim`).
The space is the only blank that stands for itself in quoted text, so the literal
of a text without spaces is part of one word (`escapeChar_visible`).
-/
import ComposeStability.Proofs.Text.Literal
import ComposeStability.Proofs.Text.Separated

namespace ComposeStability.Text

set_option autoImplicit false

/-- A text without white space. -/
def Visible (cs : List Char) : Prop := ∀ c ∈ cs, isBlank c = false

instance (cs : List Char) : Decidable (Visible cs) :=
  List.decidableBAll (fun c => isBlank c = false) cs

theorem visible_append {cs ds : List Char} : Visible (cs ++ ds) ↔ Visible cs ∧ Visible ds :=
  List.forall_mem_append

/-! ## Words -/

/-- A text without white space adds to the word that is being collected. -/
theorem fieldsFrom_visible {word : List Char} (visible : Visible word)
    (current rest : List Char) :
    fieldsFrom current (word ++ rest) = fieldsFrom (word.reverse ++ current) rest := by
  induction word generalizing current with
  | nil => rfl
  | cons c word ih =>
      obtain ⟨here, later⟩ := List.forall_mem_cons.1 visible
      rw [List.cons_append, fieldsFrom, here, if_neg Bool.false_ne_true, ih later,
        List.reverse_cons, List.append_assoc]
      rfl

theorem fieldsFrom_blanks {lead : List Char} (blank : ∀ c ∈ lead, isBlank c = true)
    (rest : List Char) : fieldsFrom [] (lead ++ rest) = fieldsFrom [] rest := by
  induction lead with
  | nil => rfl
  | cons c lead ih =>
      obtain ⟨here, later⟩ := List.forall_mem_cons.1 blank
      rw [List.cons_append, fieldsFrom, here]
      exact ih later

/-- White space at the end adds no word. -/
theorem fieldsFrom_append_blanks {tail : List Char} (blank : ∀ c ∈ tail, isBlank c = true)
    (current cs : List Char) : fieldsFrom current (cs ++ tail) = fieldsFrom current cs := by
  have nothing := fieldsFrom_blanks blank []
  rw [List.append_nil] at nothing
  induction cs generalizing current with
  | nil =>
      cases tail with
      | nil => rfl
      | cons c tail =>
          obtain ⟨here, later⟩ := List.forall_mem_cons.1 blank
          have none_later := fieldsFrom_blanks later []
          rw [List.append_nil] at none_later
          cases current with
          | nil => exact nothing
          | cons d current => simp [fieldsFrom, here, none_later]
  | cons c cs ih => simp only [List.cons_append, fieldsFrom, ih]

/-- Trimming takes no word away. -/
theorem fields_trim (s : String) : fields (trim s) = fields s := by
  obtain ⟨lead, tail, whole, before, after⟩ := trimBlanks_parts s.toList
  have same : fieldsFrom [] s.toList = fieldsFrom [] (trimBlanks s.toList) :=
    calc fieldsFrom [] s.toList
        = fieldsFrom [] (lead ++ trimBlanks s.toList ++ tail) := congrArg _ whole
      _ = fieldsFrom [] (lead ++ trimBlanks s.toList) := fieldsFrom_append_blanks after _ _
      _ = fieldsFrom [] (trimBlanks s.toList) := fieldsFrom_blanks before _
  rw [fields, fields, trim, String.toList_ofList, same]

/-- A word ends at the next blank. -/
theorem fields_cons {word : List Char} (visible : Visible word) (filled : word ≠ []) {c : Char}
    (blank : isBlank c = true) (rest : List Char) :
    fields (String.ofList (word ++ c :: rest)) =
      String.ofList word :: fields (String.ofList rest) := by
  simp [fields, fieldsFrom_visible visible, fieldsFrom, blank, filled]

/-- A word ends at the end of the text. -/
theorem fields_word {word : List Char} (visible : Visible word) (filled : word ≠ []) :
    fields (String.ofList word) = [String.ofList word] := by
  have read := fieldsFrom_visible visible [] []
  simp only [List.append_nil] at read
  simp [fields, read, fieldsFrom, filled]

/-! ## Quoted text -/

/-- The code points of the blanks beyond ASCII. -/
def wideBlanks : List Nat :=
  [0x85, 0xa0, 0x1680, 0x2000, 0x2001, 0x2002, 0x2003, 0x2004, 0x2005, 0x2006, 0x2007, 0x2008,
   0x2009, 0x200a, 0x2028, 0x2029, 0x202f, 0x205f, 0x3000]

theorem wideBlanks_unprintable : ∀ n ∈ wideBlanks, inRanges printableRanges n = false := by
  decide +kernel

/-- The space is the only blank that stands for itself in quoted text. -/
theorem eq_space_of_printable {c : Char} (printable : isPrintable c = true)
    (blank : isBlank c = true) : c = ' ' := by
  simp only [isBlank, Bool.or_eq_true, Bool.and_eq_true, decide_eq_true_eq, beq_iff_eq] at blank
  unfold isPrintable at printable
  split at printable
  · have least : 0x20 ≤ c.toNat := of_decide_eq_true printable
    exact Char.toNat_inj.1 (show c.toNat = 0x20 by omega)
  · have listed : c.toNat ∈ wideBlanks := by
      simp only [wideBlanks, List.mem_cons, List.not_mem_nil, or_false]
      omega
    rw [wideBlanks_unprintable _ listed] at printable
    cases printable

theorem isBlank_digitChar {value : Nat} (small : value < 16) :
    isBlank value.digitChar = false := by
  have digits : ∀ v : Fin 16, isBlank (Nat.digitChar v.val) = false := by decide
  exact digits ⟨value, small⟩

theorem visible_toDigits {base : Nat} (large : 1 < base) (small : base ≤ 16) (n : Nat) :
    Visible (Nat.toDigits base n) := by
  induction n using Nat.strongRecOn with
  | ind n ih =>
      rw [Nat.toDigits_eq_if large]
      split
      · next below => simpa [Visible] using isBlank_digitChar (Nat.lt_of_lt_of_le below small)
      · next above =>
          have last := Nat.mod_lt n (show 0 < base by omega)
          rw [visible_append]
          refine ⟨ih (n / base) (Nat.div_lt_self (by omega) large), ?_⟩
          simpa [Visible] using isBlank_digitChar (Nat.lt_of_lt_of_le last small)

theorem visible_padded (width n : Nat) : Visible (padded 16 width n).toList := by
  rw [padded, String.toList_ofList, visible_append]
  refine ⟨fun c zero => ?_, visible_toDigits (by decide) (by decide) n⟩
  rw [List.eq_of_mem_replicate zero]
  decide

/-- The written form of a character other than the space holds no white space. -/
theorem escapeChar_visible {c : Char} (other : c ≠ ' ') : Visible (escapeChar c) := by
  have letters : ∀ pair ∈ namedEscapes, isBlank pair.1 = false := by decide
  have hex (letter : Char) (seen : isBlank letter = false) (width : Nat) :
      Visible ('\\' :: letter :: (padded 16 width c.toNat).toList) :=
    List.forall_mem_cons.2 ⟨by decide, List.forall_mem_cons.2 ⟨seen, visible_padded width _⟩⟩
  unfold escapeChar
  split
  · next mark =>
    simp only [Bool.or_eq_true, beq_iff_eq] at mark
    rcases mark with rfl | rfl <;> decide
  split
  · next printable =>
    have seen : isBlank c = false :=
      Bool.eq_false_iff.2 fun blank => other (eq_space_of_printable printable blank)
    simpa [Visible] using seen
  split
  · next letter found =>
    obtain ⟨pair, first, rfl⟩ := Option.map_eq_some_iff.1 found
    have seen := letters pair (List.mem_of_find?_eq_some first)
    exact List.forall_mem_cons.2 ⟨by decide, by simpa [Visible] using seen⟩
  split
  · exact hex 'x' (by decide) 2
  split
  · exact hex 'u' (by decide) 4
  · exact hex 'U' (by decide) 8

/-- The written form of a text without spaces holds no white space. -/
theorem escaped_visible {cs : List Char} (spaceless : ' ' ∉ cs) :
    Visible (cs.flatMap escapeChar) := by
  intro d member
  obtain ⟨c, inside, written⟩ := List.mem_flatMap.1 member
  exact escapeChar_visible (fun same => spaceless (same ▸ inside)) d written

end ComposeStability.Text
