/-
# Text.Cut -- splitting text at a separator

Text is cut on its list of characters.  `cut` divides at the first occurrence
of a separator and `cutLast` at the last one; both return `none` when the
separator does not occur, and putting the separator back between the two parts
gives the text again (`cut_eq_append`, `cutLast_eq_append`).
-/

namespace ComposeStability.Text

set_option autoImplicit false

/-! ## Lists of characters -/

/-- What follows `start` in a text that begins with it. -/
def afterStart? : List Char → List Char → Option (List Char)
  | [], s => some s
  | _ :: _, [] => none
  | a :: start, c :: s => if a = c then afterStart? start s else none

/-- The parts before and after the first occurrence of `sep`. -/
def cut (sep : List Char) : List Char → Option (List Char × List Char)
  | [] => if sep.isEmpty then some ([], []) else none
  | c :: rest =>
      match afterStart? sep (c :: rest) with
      | some after => some ([], after)
      | none => (cut sep rest).map fun parts => (c :: parts.1, parts.2)

/-- The parts before and after the last occurrence of `sep`. -/
def cutLast (sep : List Char) : List Char → Option (List Char × List Char)
  | [] => if sep.isEmpty then some ([], []) else none
  | c :: rest =>
      match cutLast sep rest with
      | some parts => some (c :: parts.1, parts.2)
      | none => (afterStart? sep (c :: rest)).map fun after => ([], after)

/-- The pieces between the occurrences of one separating character. -/
def splitChar (sep : Char) : List Char → List (List Char)
  | [] => [[]]
  | c :: rest =>
      if c == sep then [] :: splitChar sep rest
      else match splitChar sep rest with
        | [] => [[c]]
        | piece :: pieces => (c :: piece) :: pieces

/-- A text begins with `start` exactly if it is `start` with something after it. -/
theorem afterStart?_eq_some_iff {start s after : List Char} :
    afterStart? start s = some after ↔ s = start ++ after := by
  fun_induction afterStart? start s <;> simp_all [eq_comm]

/-- Cutting loses nothing but the separator. -/
theorem cut_eq_append {sep s before after : List Char} (h : cut sep s = some (before, after)) :
    s = before ++ sep ++ after := by
  induction s generalizing before with
  | nil => cases sep <;> simp_all [cut]
  | cons c rest ih =>
    simp only [cut] at h
    split at h
    · next stripped =>
      simp only [Option.some.injEq, Prod.mk.injEq] at h
      obtain ⟨rfl, rfl⟩ := h
      simpa using afterStart?_eq_some_iff.1 stripped
    · obtain ⟨parts, found, same⟩ := Option.map_eq_some_iff.1 h
      simp only [Prod.mk.injEq] at same
      obtain ⟨rfl, rfl⟩ := same
      simpa using ih found

/-- Cutting at the last occurrence loses nothing but the separator. -/
theorem cutLast_eq_append {sep s before after : List Char}
    (h : cutLast sep s = some (before, after)) : s = before ++ sep ++ after := by
  induction s generalizing before with
  | nil => cases sep <;> simp_all [cutLast]
  | cons c rest ih =>
    simp only [cutLast] at h
    split at h
    · next parts found =>
      simp only [Option.some.injEq, Prod.mk.injEq] at h
      obtain ⟨rfl, rfl⟩ := h
      simpa using ih found
    · obtain ⟨rest', stripped, same⟩ := Option.map_eq_some_iff.1 h
      simp only [Prod.mk.injEq] at same
      obtain ⟨rfl, rfl⟩ := same
      simpa using afterStart?_eq_some_iff.1 stripped

theorem splitChar_ne_nil (sep : Char) (s : List Char) : splitChar sep s ≠ [] := by
  cases s with
  | nil => simp [splitChar]
  | cons c rest =>
      rw [splitChar]
      split
      · simp
      · split <;> simp

/-- The pieces of a text with a separator in it are those before and those after it. -/
theorem splitChar_append (sep : Char) (before after : List Char) :
    splitChar sep (before ++ sep :: after) =
      splitChar sep before ++ splitChar sep after := by
  induction before with
  | nil => simp [splitChar]
  | cons c before ih =>
      simp only [List.cons_append, splitChar, ih]
      split
      · rfl
      · cases pieces : splitChar sep before with
        | nil => exact absurd pieces (splitChar_ne_nil sep before)
        | cons piece pieces => rfl

/-! ## Strings -/

/-- The parts of a string before and after the first occurrence of `sep`. -/
def cutString (s sep : String) : Option (String × String) :=
  (cut sep.toList s.toList).map fun parts => (String.ofList parts.1, String.ofList parts.2)

/-- The parts of a string before and after the last occurrence of `sep`. -/
def cutLastString (s sep : String) : Option (String × String) :=
  (cutLast sep.toList s.toList).map fun parts => (String.ofList parts.1, String.ofList parts.2)

/-- The rest of a string after `start`, if it starts so. -/
def stripStart? (start s : String) : Option String :=
  (afterStart? start.toList s.toList).map String.ofList

/-- The string without the final `tail`, if it ends so. -/
def stripEnd? (tail s : String) : Option String :=
  (tail.toList.isSuffixOf? s.toList).map String.ofList

/-- Whether a string begins with `start`. -/
def startsWith (start s : String) : Bool :=
  start.toList.isPrefixOf s.toList

/-- Whether a string ends with `tail`. -/
def endsWith (tail s : String) : Bool :=
  tail.toList.isSuffixOf s.toList

/-- The pieces of a string between the occurrences of a character. -/
def split (sep : Char) (s : String) : List String :=
  (splitChar sep s.toList).map String.ofList

end ComposeStability.Text
