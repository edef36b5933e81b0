/-
# Proofs.Text.Literal -- a quoted text can be told from what follows it

Each character between the quotation marks has a code, and no code begins
another: after a backslash, a letter tells how many hexadecimal digits follow
(`Code.append_inj`).  So a quoted text ends where its closing mark is, and
determines the text (`quote_append_inj`).
-/
import ComposeStability.Proofs.Text.Identifier
import Mathlib.Algebra.Group.Nat.Defs

namespace ComposeStability.Text

set_option autoImplicit false

/-! ## Digits -/

theorem digitsValue?_snoc (base : Nat) (digits : List Char) (c : Char) :
    digitsValue? base (digits ++ [c]) = (digitsValue? base digits).bind fun value =>
      (digitValue? base c).bind fun d => some (value * base + d) := by
  simp only [digitsValue?, List.foldl_append, List.foldl_cons, List.foldl_nil]
  rfl

theorem digitValue?_digitChar {base value : Nat} (small : base ≤ 16) (bound : value < base) :
    digitValue? base value.digitChar = some value := by
  have all : ∀ b : Fin 17, ∀ v : Fin 16, v.val < b.val →
      digitValue? b.val (Nat.digitChar v.val) = some v.val := by decide
  exact all ⟨base, by omega⟩ ⟨value, by omega⟩ bound

/-- The digits of a number read back. -/
theorem digitsValue?_toDigits {base : Nat} (large : 1 < base) (small : base ≤ 16) (n : Nat) :
    digitsValue? base (Nat.toDigits base n) = some n := by
  induction n using Nat.strongRecOn with
  | ind n ih =>
      rw [Nat.toDigits_eq_if large]
      split
      · next below =>
          rw [← List.nil_append [n.digitChar], digitsValue?_snoc, digitValue?_digitChar small below]
          simp [digitsValue?]
      · next above =>
          rw [digitsValue?_snoc, ih (n / base) (Nat.div_lt_self (by omega) large),
            digitValue?_digitChar small (Nat.mod_lt _ (by omega))]
          simp only [Option.bind_some, Option.some_inj]
          exact Nat.div_add_mod' n base

theorem digitsValue?_zeros_append (k : Nat) (digits : List Char) :
    digitsValue? 16 (List.replicate k '0' ++ digits) = digitsValue? 16 digits := by
  have zeros : digitsValue? 16 (List.replicate k '0') = some 0 := by
    induction k with
    | zero => rfl
    | succ k ih =>
        rw [List.replicate_succ', digitsValue?_snoc, ih]
        rfl
  rw [digitsValue?, List.foldl_append]
  exact congrArg (digits.foldl _ ·) zeros

theorem digitsValue?_padded (width n : Nat) :
    digitsValue? 16 (padded 16 width n).toList = some n := by
  rw [padded, String.toList_ofList, digitsValue?_zeros_append,
    digitsValue?_toDigits (by decide) (by decide)]

theorem padded_length {width n : Nat} (positive : 0 < width) (bound : n < 16 ^ width) :
    (padded 16 width n).toList.length = width := by
  have short := (Nat.length_toDigits_le_iff (b := 16) (by decide) positive).2 bound
  rw [padded, String.toList_ofList, List.length_append, List.length_replicate]
  omega

/-! ## Codes of characters -/

/-- The character that a letter after a backslash stands for. -/
def letterValue? (letter : Char) : Option Char :=
  if letter == '"' || letter == '\\' then some letter
  else (namedEscapes.find? fun pair => pair.1 == letter).map (·.2)

/-- The letters that say how many hexadecimal digits follow. -/
def widths : List (Char × Nat) := [('x', 2), ('u', 4), ('U', 8)]

/-- The ways in which a character is written. -/
inductive Code (c : Char) : List Char → Prop where
  | plain (inside : c ≠ '"') (ordinary : c ≠ '\\') : Code c [c]
  | letter {letter : Char} (value : letterValue? letter = some c) : Code c ['\\', letter]
  | hex {letter : Char} {width : Nat} (listed : (letter, width) ∈ widths)
      (bound : c.toNat < 16 ^ width) :
      Code c ('\\' :: letter :: (padded 16 width c.toNat).toList)

theorem escapeChar_code (c : Char) : Code c (escapeChar c) := by
  unfold escapeChar
  split
  · next special => exact .letter (by rw [letterValue?, if_pos special])
  · next ordinary =>
      simp only [Bool.or_eq_true, beq_iff_eq, not_or] at ordinary
      split
      · exact .plain ordinary.1 ordinary.2
      · split
        · next letter found =>
            obtain ⟨pair, first, rfl⟩ := Option.map_eq_some_iff.1 found
            have listed := List.mem_of_find?_eq_some first
            have same : pair.2 = c := by simpa using List.find?_some first
            have named : ∀ pair ∈ namedEscapes, letterValue? pair.1 = some pair.2 := by decide
            exact .letter (by rw [named pair listed, same])
        · split
          · next small => exact .hex (by decide) (by omega)
          · split
            · next small => exact .hex (by decide) (by omega)
            · have bound : c.toNat < 2 ^ 32 := c.val.toNat_lt
              exact .hex (by decide) (by omega)

/-- No code of a character begins the code of another. -/
theorem Code.append_inj {c d : Char} {code code' rest rest' : List Char} (first : Code c code)
    (second : Code d code') (same : code ++ rest = code' ++ rest') : c = d ∧ rest = rest' := by
  have unlisted : ∀ pair ∈ widths, letterValue? pair.1 = none := by decide
  have distinct : ∀ pair ∈ widths, ∀ pair' ∈ widths, pair.1 = pair'.1 → pair = pair' := by decide
  have positive : ∀ pair ∈ widths, 0 < pair.2 := by decide
  cases first with
  | plain inside ordinary =>
      cases second with
      | plain => simpa using same
      | letter => exact absurd (List.cons.inj same).1 ordinary
      | hex => exact absurd (List.cons.inj same).1 ordinary
  | @letter letter value =>
      cases second with
      | plain inside ordinary => exact absurd (List.cons.inj same).1.symm ordinary
      | letter value' =>
          simp only [List.cons_append, List.nil_append, List.cons.injEq, true_and] at same
          obtain ⟨rfl, rest⟩ := same
          exact ⟨Option.some.inj (value.symm.trans value'), rest⟩
      | hex listed bound =>
          simp only [List.cons_append, List.nil_append, List.cons.injEq, true_and] at same
          simp [same.1, unlisted _ listed] at value
  | @hex letter width listed bound =>
      cases second with
      | plain inside ordinary => exact absurd (List.cons.inj same).1.symm ordinary
      | letter value =>
          simp only [List.cons_append, List.nil_append, List.cons.injEq, true_and] at same
          simp [← same.1, unlisted _ listed] at value
      | hex listed' bound' =>
          simp only [List.cons_append, List.cons.injEq, true_and] at same
          obtain ⟨rfl, digits⟩ := same
          obtain rfl := (Prod.mk.inj (distinct _ listed _ listed' rfl)).2
          have lengths := (padded_length (positive _ listed) bound).trans
            (padded_length (positive _ listed) bound').symm
          obtain ⟨digits, rest⟩ := List.append_inj digits lengths
          have value := digitsValue?_padded width c.toNat
          rw [digits, digitsValue?_padded] at value
          exact ⟨(Char.toNat_inj.1 (Option.some.inj value)).symm, rest⟩

theorem Code.filled {c : Char} {code : List Char} (written : Code c code) :
    ∃ first more, code = first :: more ∧ first ≠ '"' := by
  cases written with
  | plain inside => exact ⟨c, [], rfl, inside⟩
  | letter => exact ⟨'\\', _, rfl, by decide⟩
  | hex => exact ⟨'\\', _, rfl, by decide⟩

/-! ## Literals -/

/-- The closing mark ends the codes of the characters inside. -/
theorem escaped_append_inj {cs cs' rest rest' : List Char}
    (same : cs.flatMap escapeChar ++ '"' :: rest = cs'.flatMap escapeChar ++ '"' :: rest') :
    cs = cs' ∧ rest = rest' := by
  induction cs generalizing cs' with
  | nil =>
      cases cs' with
      | nil => simpa using same
      | cons d cs' =>
          obtain ⟨first, more, code, inside⟩ := (escapeChar_code d).filled
          simp only [List.flatMap_nil, List.nil_append, List.flatMap_cons, code,
            List.cons_append, List.cons.injEq] at same
          exact absurd same.1.symm inside
  | cons c cs ih =>
      cases cs' with
      | nil =>
          obtain ⟨first, more, code, inside⟩ := (escapeChar_code c).filled
          simp only [List.flatMap_nil, List.nil_append, List.flatMap_cons, code,
            List.cons_append, List.cons.injEq] at same
          exact absurd same.1 inside
      | cons d cs' =>
          rw [List.flatMap_cons, List.flatMap_cons, List.append_assoc, List.append_assoc] at same
          obtain ⟨rfl, later⟩ := (escapeChar_code c).append_inj (escapeChar_code d) same
          obtain ⟨rfl, rest⟩ := ih later
          exact ⟨rfl, rest⟩

/-- A quoted text determines the text, and what follows it. -/
theorem quote_append_inj {s s' : String} {rest rest' : List Char}
    (same : (quote s).toList ++ rest = (quote s').toList ++ rest') : s = s' ∧ rest = rest' := by
  simp only [quote_toList, escaped, List.cons_append, List.append_assoc, List.nil_append,
    List.cons.injEq, true_and] at same
  obtain ⟨chars, rest⟩ := escaped_append_inj same
  exact ⟨String.toList_inj.1 chars, rest⟩

end ComposeStability.Text
