/-
# Text.Fresh -- names that are not taken

The candidates for a name are the name itself, then the name followed by 1, by
2, and so on.  `freshName` gives the first that is not taken.
-/

namespace ComposeStability.Text

set_option autoImplicit false

/-- The candidates for a name, by number. -/
def candidate (base : String) : Nat → String
  | 0 => base
  | n + 1 => base ++ toString (n + 1)

/-- The first candidate that is not taken.  One more candidate than there are
taken names is enough. -/
def freshName (base : String) (taken : List String) : String :=
  (((List.range (taken.length + 1)).map (candidate base)).find?
    fun name => !taken.contains name).getD base

end ComposeStability.Text
