/-
# Text.Fold -- comparison of names in any case

Two texts match when their characters do, one by one, case aside.  Besides the
two cases of a letter, the long `ſ` counts as an `s` and the Kelvin sign as a
`k`; no other character beyond ASCII matches one within it, so the comparison
is right whenever one of the texts is plain ASCII.
-/

namespace ComposeStability.Text

set_option autoImplicit false

/-- A character with its case forgotten. -/
def foldChar (c : Char) : Char :=
  if c.toNat = 0x17f then 's' else if c.toNat = 0x212a then 'k' else c.toLower

/-- A text with its case forgotten. -/
def folded (s : String) : List Char := s.toList.map foldChar

/-- Whether two texts are the same, case aside. -/
def sameFolded (a b : String) : Bool := folded a == folded b

end ComposeStability.Text
