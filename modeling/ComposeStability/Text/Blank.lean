/-
# Text.Blank -- white space, trimming and fields

A blank is a character with the White_Space property: the ASCII controls from
tab to carriage return, the space, and the blanks beyond ASCII listed below.
-/

namespace ComposeStability.Text

set_option autoImplicit false

/-- Whether a character is white space. -/
def isBlank (c : Char) : Bool :=
  let n := c.toNat
  (0x9 ≤ n && n ≤ 0xd) || n == 0x20 || n == 0x85 || n == 0xa0 || n == 0x1680 ||
    (0x2000 ≤ n && n ≤ 0x200a) || n == 0x2028 || n == 0x2029 || n == 0x202f || n == 0x205f ||
    n == 0x3000

/-- A text without the characters at its end that satisfy `drop`. -/
def trimRight (drop : Char → Bool) : List Char → List Char
  | [] => []
  | c :: rest =>
      match trimRight drop rest with
      | [] => if drop c then [] else [c]
      | kept => c :: kept

/-- A text without white space at either end. -/
def trimBlanks (cs : List Char) : List Char :=
  trimRight isBlank (cs.dropWhile isBlank)

/-- A string without white space at either end. -/
def trim (s : String) : String :=
  String.ofList (trimBlanks s.toList)

/-- The maximal runs of characters that are not blank; `current` is the run
being collected, in reverse. -/
def fieldsFrom (current : List Char) : List Char → List (List Char)
  | [] => if current.isEmpty then [] else [current.reverse]
  | c :: rest =>
      if isBlank c then
        if current.isEmpty then fieldsFrom [] rest else current.reverse :: fieldsFrom [] rest
      else fieldsFrom (c :: current) rest

/-- The words of a string, divided by white space. -/
def fields (s : String) : List String :=
  (fieldsFrom [] s.toList).map String.ofList

end ComposeStability.Text
