/-
# Toml.Scalar -- numbers, dates and strings

The scalar values of a TOML document.  Every reader takes characters from the
front of its input and returns the rest with what it has read; `none` means that
the input is not well formed.

An underscore in a number stands between digits, and a number has no needless
zero in front.  Dates and times have to exist; the seconds of a time may be left
out.  In a string of several lines the line break after the opening quotes is
dropped, and a backslash at the end of a line drops the blanks up to the next
text.
-/
import ComposeStability.Text.Binary64
import ComposeStability.Text.Cut
import ComposeStability.Text.Blank

namespace ComposeStability.Toml

set_option autoImplicit false

/-- Reads something from the front of the input. -/
abbrev Reader (α : Type) := List Char → Option (α × List Char)

def isBlank (c : Char) : Bool := c == ' ' || c == '\t'

def isLineEnd (c : Char) : Bool := c == '\n' || c == '\x0d'

def isHexDigit (c : Char) : Bool := (Text.digitValue? 16 c).isSome

/-! ## Numbers -/

/-- Whether every underscore has a digit on both sides. -/
def underscoresFit (digits : List Char) : Bool :=
  let pairs := digits.zip digits.tail
  (digits.getLast?.any isHexDigit) && (digits.head? != some '_') &&
    pairs.all fun (a, b) => if b == '_' then isHexDigit a else true

/-- Whether a number starts with a zero that another digit follows. -/
def hasLeadingZero (token : List Char) : Bool :=
  match token with
  | '0' :: c :: _ => !(['b', 'o', 'x'].contains c)
  | '-' :: '0' :: _ :: _ | '+' :: '0' :: _ :: _ => true
  | _ => false

/-- The value of a whole number. -/
def integer? (token : List Char) : Option Int :=
  if !underscoresFit token || hasLeadingZero token then none
  else
    let (negative, digits) := Text.sign (token.filter (· != '_'))
    let size := match digits with
      | '0' :: 'b' :: digits => Text.digitsValue? 2 digits
      | '0' :: 'o' :: digits => Text.digitsValue? 8 digits
      | '0' :: 'x' :: digits => Text.digitsValue? 16 digits
      | digits => Text.digitsValue? 10 digits
    size.bind (Text.word? negative)

/-- Whether a token is a number with a fraction or an exponent. -/
def isFloat (token : List Char) : Bool :=
  let divided := token.map fun c => if c == '.' || c == 'E' then 'e' else c
  let parts := (Text.splitChar 'e' divided).filter (!·.isEmpty)
  let afterPoints := (token.zip token.tail).all fun (a, b) => a != '.' || b.isDigit
  parts.all underscoresFit && !(parts.head?.any hasLeadingZero) && afterPoints &&
    token.getLast? != some '.' &&
    match Text.Binary64.ofText? (String.ofList (token.filter (· != '_'))) with
    | some (.finite _ _ _) => true
    | _ => false

/-! ## Dates and times -/

/-- A number of exactly so many digits. -/
def digits (width : Nat) : Reader Nat := fun cs =>
  let found := cs.take width
  if found.length = width ∧ found.all Char.isDigit then
    (Text.natural? found).map (·, cs.drop width)
  else none

/-- A given character. -/
def mark (c : Char) : Reader Unit
  | d :: cs => if c = d then some ((), cs) else none
  | [] => none

def isLeapYear (year : Nat) : Bool := year % 4 == 0 && (year % 100 != 0 || year % 400 == 0)

def daysIn (year month : Nat) : Nat :=
  if month = 2 then (if isLeapYear year then 29 else 28)
  else if month = 4 ∨ month = 6 ∨ month = 9 ∨ month = 11 then 30 else 31

/-- A day of the calendar. -/
def date : Reader Unit := fun cs => do
  let (year, cs) ← digits 4 cs
  let (_, cs) ← mark '-' cs
  let (month, cs) ← digits 2 cs
  let (_, cs) ← mark '-' cs
  let (day, cs) ← digits 2 cs
  if 1 ≤ month ∧ month ≤ 12 ∧ 1 ≤ day ∧ day ≤ daysIn year month then some ((), cs) else none

/-- The seconds of a time, which may be missing. -/
def seconds : Reader Unit
  | ':' :: cs => do
      let (second, cs) ← digits 2 cs
      if second > 59 then none
      match cs with
      | '.' :: rest =>
          let (fraction, rest) := rest.span Char.isDigit
          if fraction.isEmpty then none else some ((), rest)
      | _ => some ((), cs)
  | cs => some ((), cs)

/-- A time of the day. -/
def clock : Reader Unit := fun cs => do
  let (hour, cs) ← digits 2 cs
  let (_, cs) ← mark ':' cs
  let (minute, cs) ← digits 2 cs
  if hour > 23 ∨ minute > 59 then none
  seconds cs

/-- A difference from universal time, which may be missing. -/
def zone : Reader Unit
  | 'Z' :: cs => some ((), cs)
  | c :: cs =>
      if c != '+' && c != '-' then none
      else do
        let (hours, cs) ← digits 2 cs
        let (_, cs) ← mark ':' cs
        let (minutes, cs) ← digits 2 cs
        if hours > 24 ∨ minutes > 60 then none else some ((), cs)
  | [] => some ((), [])

/-- Whether nothing is left after reading. -/
def readsAll {α : Type} (r : Reader α) (token : List Char) : Bool :=
  (r token).any (·.2.isEmpty)

/-- Whether a token is a date, a time, or both with or without a zone. -/
def isMoment (token : List Char) : Bool :=
  let token := (Text.trimBlanks token).map fun c =>
    if c == 'z' then 'Z' else if c == 't' || c == ' ' then 'T' else c
  let both : Reader Unit := fun cs => do
    let (_, cs) ← date cs
    let (_, cs) ← mark 'T' cs
    let (_, cs) ← clock cs
    zone cs
  readsAll date token || readsAll clock token || readsAll both token

/-! ## Strings -/

/-- A number of exactly so many hexadecimal digits as a character. -/
def codePoint (width : Nat) : Reader Char := fun cs => do
  let found := cs.take width
  if found.length ≠ width then none
  let code ← Text.digitsValue? 16 found
  if code.isValidChar then some (Char.ofNat code, cs.drop width) else none

/-- What follows a backslash. -/
def escape : Reader Char
  | 'b' :: cs => some ('\x08', cs)
  | 't' :: cs => some ('\t', cs)
  | 'n' :: cs => some ('\n', cs)
  | 'f' :: cs => some ('\x0c', cs)
  | 'r' :: cs => some ('\x0d', cs)
  | 'e' :: cs => some ('\x1b', cs)
  | '"' :: cs => some ('"', cs)
  | '\\' :: cs => some ('\\', cs)
  | 'x' :: cs => codePoint 2 cs
  | 'u' :: cs => codePoint 4 cs
  | 'U' :: cs => codePoint 8 cs
  | _ => none

/-- Whether a backslash before these characters drops a line break. -/
def endsLine (cs : List Char) : Bool :=
  (cs.takeWhile fun c => isBlank c || isLineEnd c).contains '\n'

/-- The characters of a string in quotes on one line, after the opening quote. -/
def quotedLine (fuel : Nat) : Reader (List Char) := fun cs =>
  match fuel, cs with
  | 0, _ | _, [] => none
  | fuel + 1, c :: cs =>
      if c == '"' then some ([], cs)
      else if isLineEnd c then none
      else if c == '\\' then do
        let (c, cs) ← escape cs
        let (rest, cs) ← quotedLine fuel cs
        some (c :: rest, cs)
      else do
        let (rest, cs) ← quotedLine fuel cs
        some (c :: rest, cs)

/-- The characters of a string over several lines, after the opening quotes.  Up to two quotes may
stand before the three that close it, and one more directly after an escaped backslash: `run` quotes
in a row are allowed here. -/
def quotedLines (quote : Char) (escapes : Bool) (fuel run : Nat) : Reader (List Char) := fun cs =>
  match fuel, cs with
  | 0, _ | _, [] => none
  | fuel + 1, c :: cs =>
      if c == quote then
        let quotes := c :: cs.takeWhile (· == quote)
        let cs := cs.dropWhile (· == quote)
        if quotes.length > run then none
        else if quotes.length ≥ 3 then some (quotes.drop 3, cs)
        else (quotedLines quote escapes fuel 5 cs).map fun (rest, cs) => (quotes ++ rest, cs)
      else if escapes && c == '\\' then
        if endsLine cs then
          quotedLines quote escapes fuel 5 (cs.dropWhile fun c => isBlank c || isLineEnd c)
        else do
          let (found, rest) ← escape cs
          let (more, rest) ← quotedLines quote escapes fuel (if cs.head? == some '\\' then 6 else 5) rest
          some (found :: more, rest)
      else (quotedLines quote escapes fuel 5 cs).map fun (rest, cs) => (c :: rest, cs)

/-- Drops a line break at the start. -/
def dropLineEnd : List Char → List Char
  | '\n' :: cs | '\x0d' :: '\n' :: cs => cs
  | cs => cs

/-- The characters of a string without escapes, after the opening quote. -/
def literalLine : Reader (List Char) := fun cs =>
  let (found, rest) := cs.span fun c => c != '\x27' && !isLineEnd c
  match rest with
  | '\x27' :: rest => some (found, rest)
  | _ => none

/-- A string on one line, in either kind of quotes. -/
def shortString : Reader String := fun cs =>
  let found := match cs with
    | '"' :: cs => quotedLine (cs.length + 1) cs
    | '\x27' :: cs => literalLine cs
    | _ => none
  found.map fun (chars, rest) => (String.ofList chars, rest)

/-- A string, on one line or several. -/
def string : Reader String := fun cs =>
  let long (escapes : Bool) (quote : Char) (cs : List Char) : Option (String × List Char) :=
    (quotedLines quote escapes (cs.length + 1) 5 (dropLineEnd cs)).map fun (chars, rest) =>
      (String.ofList chars, rest)
  match cs with
  | '"' :: '"' :: '"' :: cs => long true '"' cs
  | '\x27' :: '\x27' :: '\x27' :: cs => long false '\x27' cs
  | cs => shortString cs

end ComposeStability.Toml
