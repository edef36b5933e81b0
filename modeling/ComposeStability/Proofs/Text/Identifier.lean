/-
# Proofs.Text.Identifier -- what identifiers and quoted texts are made of

The characters of an identifier are visible (`nameChar_visible`), and none of
them divides the lines of a report (`mark_not_nameChar`).  A quoted text stands
on one line, between quotation marks (`quote_toList`, `quote_unbroken`).
-/
import ComposeStability.Text.Blank
import ComposeStability.Text.Letter
import ComposeStability.Text.Quoted

namespace ComposeStability.Text

set_option autoImplicit false

/-! ## Names -/

/-- A character that names are made of. -/
def isNameChar (c : Char) : Bool := c == '_' || isLetter c || isDecimalDigit c

/-- The characters that divide the lines of a report. -/
def marks : List Char := [':', ',', '(', ')', '[', ']', '\x7b', '\x7d', '\n']

/-- A text that divides nothing. -/
def Unmarked (s : String) : Prop := ∀ c ∈ s.toList, c ∉ marks

-- Decided character by character: the search for an instance may try all characters there are.
instance : DecidablePred Unmarked :=
  fun s => List.decidableBAll (fun c => c ∉ marks) s.toList

theorem mark_not_nameChar : ∀ c ∈ marks, isNameChar c = false := by
  have none : (marks.any isNameChar) = false := by decide
  exact fun c member => Bool.eq_false_iff.2 (List.any_eq_false.1 none c member)

/-- The white space beyond ASCII. -/
def foreignBlanks : List Nat :=
  [0x85, 0xa0, 0x1680, 0x2028, 0x2029, 0x202f, 0x205f, 0x3000] ++ List.range' 0x2000 11

theorem foreignBlanks_not_letter :
    ∀ n ∈ foreignBlanks, inRanges letterRanges n = false := by
  decide +kernel

theorem foreignBlanks_not_digit :
    ∀ n ∈ foreignBlanks, inRanges digitRanges n = false := by
  decide +kernel

/-- A blank is an ASCII one, or listed. -/
theorem blank_cases {c : Char} (blank : isBlank c = true) :
    (c.toNat ≤ 0x20) ∨ (0x80 ≤ c.toNat ∧ c.toNat ∈ foreignBlanks) := by
  simp only [isBlank, Bool.or_eq_true, Bool.and_eq_true, decide_eq_true_eq, beq_iff_eq] at blank
  by_cases ascii : c.toNat ≤ 0x20
  · exact .inl ascii
  · refine .inr ⟨by omega, ?_⟩
    simp only [foreignBlanks, List.mem_append, List.mem_cons, List.mem_range'_1]
    omega

theorem letter_not_blank {c : Char} (letter : isLetter c = true) : isBlank c = false := by
  rw [Bool.eq_false_iff]
  intro blank
  unfold isLetter at letter
  rcases blank_cases blank with ascii | ⟨high, foreign⟩
  · rw [if_pos (by omega)] at letter
    change (decide ('A'.val ≤ c.val ∧ c.val ≤ 'Z'.val) ||
      (decide ('a'.val ≤ c.val) && decide (c.val ≤ 'z'.val))) = true at letter
    simp only [Bool.or_eq_true, Bool.and_eq_true, decide_eq_true_eq, UInt32.le_iff_toNat_le]
      at letter
    change (65 ≤ c.toNat ∧ c.toNat ≤ 90) ∨ (97 ≤ c.toNat ∧ c.toNat ≤ 122) at letter
    omega
  · rw [if_neg (by omega), foreignBlanks_not_letter _ foreign] at letter
    exact Bool.false_ne_true letter

theorem digit_not_blank {c : Char} (digit : isDecimalDigit c = true) : isBlank c = false := by
  rw [Bool.eq_false_iff]
  intro blank
  unfold isDecimalDigit at digit
  rcases blank_cases blank with ascii | ⟨high, foreign⟩
  · rw [if_pos (by omega)] at digit
    simp only [Char.isDigit, Bool.and_eq_true, decide_eq_true_eq, ge_iff_le,
      UInt32.le_iff_toNat_le] at digit
    change 48 ≤ c.toNat ∧ c.toNat ≤ 57 at digit
    omega
  · rw [if_neg (by omega), foreignBlanks_not_digit _ foreign] at digit
    exact Bool.false_ne_true digit

theorem nameChar_visible {c : Char} (name : isNameChar c = true) : isBlank c = false := by
  simp only [isNameChar, Bool.or_eq_true, beq_iff_eq] at name
  rcases name with (rfl | letter) | digit
  · decide
  · exact letter_not_blank letter
  · exact digit_not_blank digit

/-- An identifier has a first character, and is made of characters of names. -/
theorem identifier_chars {name : String} (identifier : isIdentifier name = true) :
    name.toList ≠ [] ∧ ∀ c ∈ name.toList, isNameChar c = true := by
  simp only [isIdentifier, hasIdentifierShape, Bool.and_eq_true] at identifier
  split at identifier
  · simp at identifier
  · next c rest shape =>
    have letters := identifier.1
    simp only [Bool.and_eq_true, List.all_eq_true] at letters
    rw [shape]
    refine ⟨List.cons_ne_nil c rest, fun d member => ?_⟩
    rcases List.mem_cons.1 member with rfl | later
    · simp only [isNameChar, letters.1, Bool.true_or]
    · exact letters.2 d later

theorem not_mem_identifier {name : String} (identifier : isIdentifier name = true) {c : Char}
    (other : isNameChar c = false) : c ∉ name.toList := by
  intro member
  exact absurd ((identifier_chars identifier).2 c member) (by simp [other])

/-! ## Quoted texts -/

/-- What stands between the quotation marks. -/
def escaped (s : String) : List Char := s.toList.flatMap escapeChar

theorem quote_toList (s : String) : (quote s).toList = '"' :: (escaped s ++ ['"']) := by
  simp [quote, escaped]

theorem mem_padded {base width n : Nat} {c : Char} (member : c ∈ (padded base width n).toList) :
    c = '0' ∨ c ∈ Nat.toDigits base n := by
  simp only [padded, String.toList_ofList, List.mem_append, List.mem_replicate] at member
  exact member.imp_left And.right

theorem mem_hex {n : Nat} {c : Char} (member : c ∈ Nat.toDigits 16 n) :
    ∃ d < 16, c = Nat.digitChar d := by
  induction n using Nat.strongRecOn with
  | ind n ih =>
      rw [Nat.toDigits_eq_if (by decide)] at member
      split at member
      · next small => exact ⟨n, small, List.mem_singleton.1 member⟩
      · rcases List.mem_append.1 member with higher | lowest
        · exact ih (n / 16) (by omega) higher
        · exact ⟨n % 16, by omega, List.mem_singleton.1 lowest⟩

theorem newline_not_mem_hex (width n : Nat) : '\n' ∉ (padded 16 width n).toList := by
  have others : ∀ d < 16, '\n' ≠ Nat.digitChar d := by decide
  intro member
  rcases mem_padded member with zero | digit
  · exact absurd zero (by decide)
  · obtain ⟨d, small, same⟩ := mem_hex digit
    exact others d small same

theorem newline_not_mem_escapeChar (c : Char) : '\n' ∉ escapeChar c := by
  unfold escapeChar
  split
  · next special =>
    simp only [Bool.or_eq_true, beq_iff_eq] at special
    rcases special with rfl | rfl <;> decide
  · split
    · next printable =>
      have unprintable : isPrintable '\n' = false := by decide
      intro member
      rw [← List.mem_singleton.1 member, unprintable] at printable
      exact Bool.false_ne_true printable
    · split
      · next letter found =>
        obtain ⟨pair, listed, rfl⟩ := Option.map_eq_some_iff.1 found
        have letters : ∀ pair ∈ namedEscapes, '\n' ∉ ['\\', pair.1] := by decide
        exact letters pair (List.mem_of_find?_eq_some listed)
      · split
        · simpa using newline_not_mem_hex 2 c.toNat
        · split
          · simpa using newline_not_mem_hex 4 c.toNat
          · simpa using newline_not_mem_hex 8 c.toNat

theorem quote_unbroken (s : String) : '\n' ∉ (quote s).toList := by
  rw [quote_toList]
  have inside : '\n' ∉ escaped s := by
    intro member
    obtain ⟨c, -, here⟩ := List.mem_flatMap.1 member
    exact newline_not_mem_escapeChar c here
  simp [inside]

end ComposeStability.Text
