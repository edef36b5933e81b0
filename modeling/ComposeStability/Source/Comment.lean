/-
# Source.Comment -- comments and their positions

A position counts bytes over all files of a program, from one on; zero is the
position of nothing.  A comment that starts with `//nolint:` and names this
tool, or all tools, silences what stands beside it.
-/
import ComposeStability.Text.Cut
import ComposeStability.Text.LowerCase
import ComposeStability.Text.Blank

namespace ComposeStability.Source

set_option autoImplicit false

/-- A place in the source; zero is none. -/
abbrev Pos := Nat

/-- A comment with its markers, and where it starts. -/
structure Comment where
  pos : Pos
  text : String
deriving DecidableEq, Repr

namespace Comment

/-- The blanks allowed between the slashes and `nolint`. -/
def isSeparator (c : Char) : Bool :=
  c == ' ' || c == '\t' || c == '\n' || c == '\x0c' || c == '\x0d'

/-- The characters of a list of linter names. -/
def isListChar (c : Char) : Bool :=
  c.isAlphanum || c == ',' || c == '_' || c == '-'

/-- The names in a comment that silences linters. -/
def silencedLinters (text : String) : List String :=
  match Text.afterStart? ['/', '/'] text.toList with
  | none => []
  | some rest =>
      match Text.afterStart? "nolint:".toList (rest.dropWhile isSeparator) with
      | none => []
      | some names => (Text.splitChar ',' (names.takeWhile isListChar)).map String.ofList

/-- The name under which the tool is silenced. -/
def linterName : String := "stableguard"

/-- Whether a comment silences this tool. -/
def silences (text : String) : Bool :=
  (silencedLinters text).any fun name => Text.lower name == linterName || Text.lower name == "all"

end Comment

end ComposeStability.Source
