/-
# Text.Colour -- coloured terminal output

Coloured text is preceded by the codes of its style and followed by the code
that ends it.  A style that only changes the weight of the letters can end with
a code of its own, which leaves the colour alone.
-/

namespace ComposeStability.Text

set_option autoImplicit false

/-- The looks of a text. -/
inductive Style where
  | plain
  | green
  | red
  | yellow
  | bold
  | faint
  | cyanBold
  | redBold
deriving DecidableEq, Repr

namespace Style

def codes : Style → String
  | .plain => ""
  | .green => "32"
  | .red => "31"
  | .yellow => "33"
  | .bold => "1"
  | .faint => "2"
  | .cyanBold => "36;1"
  | .redBold => "31;1"

/-- The code that ends a style when the text stands alone. -/
def ending : Style → String
  | .bold | .faint => "22"
  | _ => "0"

end Style

/-- The character that starts a code. -/
def escapeStart : String := "\x1b["

/-- A text in a style, if colours are on. -/
def paint (colour : Bool) (style : Style) (text : String) : String :=
  if colour && style != .plain then
    escapeStart ++ style.codes ++ "m" ++ text ++ escapeStart ++ style.ending ++ "m"
  else text

/-- A text in a style that is ended by the code that resets everything. -/
def paintReset (colour : Bool) (style : Style) (text : String) : String :=
  if colour && style != .plain then
    escapeStart ++ style.codes ++ "m" ++ text ++ escapeStart ++ "0m"
  else text

end ComposeStability.Text
