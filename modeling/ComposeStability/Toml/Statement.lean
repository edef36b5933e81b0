/-
# Toml.Statement -- the lines of a document

A TOML document is a list of statements: a header names the table that the
following pairs belong to, and a pair gives a value to a key.  Keys have one or
more parts.  This module reads the statements; what they mean together is
defined in `Toml.Document`.
-/
import ComposeStability.Toml.Scalar

namespace ComposeStability.Toml

set_option autoImplicit false

/-- The parts of a key. -/
abbrev Key := List String

/-- A value as it is written. -/
inductive Value where
  | text (s : String)
  | int (n : Int)
  | bool (b : Bool)
  /-- A number with a fraction or an exponent. -/
  | float
  /-- A date, a time, or both. -/
  | moment
  | list (items : List Value)
  | table (pairs : List (Key × Value))

inductive Statement where
  /-- Starts a table, or the next table of a list. -/
  | header (listed : Bool) (key : Key)
  | pair (key : Key) (value : Value)

/-! ## Blanks -/

def skipBlanks (cs : List Char) : List Char := cs.dropWhile isBlank

/-- Skips blanks, line breaks and comments. -/
def skipLinesFrom : Nat → List Char → List Char
  | 0, cs => cs
  | fuel + 1, cs =>
      match cs.dropWhile fun c => isBlank c || isLineEnd c with
      | '#' :: rest => skipLinesFrom fuel (rest.dropWhile (!isLineEnd ·))
      | rest => rest

@[inherit_doc skipLinesFrom]
def skipLines (cs : List Char) : List Char := skipLinesFrom (cs.length + 1) cs

/-! ## Keys -/

/-- A character of a key without quotes. -/
def isBare (c : Char) : Bool := c.isAlphanum || c == '_' || c == '-'

/-- A part of a key. -/
def keyPart : Reader String := fun cs =>
  match cs with
  | '"' :: _ | '\x27' :: _ => shortString cs
  | _ =>
      let (found, rest) := cs.span isBare
      if found.isEmpty then none else some (String.ofList found, rest)

/-- The parts of a key up to a character that ends it. -/
def keyUntil (stop : Char) : Nat → Reader Key
  | 0, _ => none
  | fuel + 1, cs => do
      let (part, cs) ← keyPart (skipBlanks cs)
      match skipBlanks cs with
      | c :: cs =>
          if c == stop then some ([part], cs)
          else if c == '.' then
            let (parts, cs) ← keyUntil stop fuel cs
            some (part :: parts, cs)
          else none
      | [] => none

/-- A key and the character that ends it. -/
def key (stop : Char) : Reader Key := fun cs => keyUntil stop (cs.length + 1) cs

/-! ## Values -/

def isDigitOrLine (c : Char) : Bool := c.isDigit || c == '_'

/-- A number, given its sign, which may be followed by a fraction or an exponent. -/
def decimal (sign : List Char) : Reader Value := fun cs =>
  let (whole, rest) := cs.span isDigitOrLine
  if rest.head?.any fun c => c == '.' || c == 'e' || c == 'E' then
    let (more, rest) := rest.span fun c => isDigitOrLine c || ['.', '-', '+', 'e', 'E'].contains c
    if isFloat (sign ++ whole ++ more) then some (.float, rest) else none
  else (integer? (sign ++ whole)).map fun n => (.int n, rest)

/-- A whole number in another base, after its mark. -/
def based (base : Nat) (lead : List Char) : Reader Value := fun cs =>
  let isDigit (c : Char) : Bool := (Text.digitValue? base c).isSome
  let (found, rest) := cs.span fun c => isDigit c || c == '_'
  if found.head?.any isDigit then (integer? (lead ++ found)).map fun n => (.int n, rest) else none

/-- A number or a date, which starts with a digit. -/
def numberOrMoment : Reader Value := fun cs =>
  let rest := cs.dropWhile Char.isDigit
  if rest.head?.any fun c => c == '-' || c == ':' then
    let (found, rest) := cs.span fun c =>
      c.isDigit || ['-', ':', 'T', 't', ' ', '.', 'Z', 'z', '+'].contains c
    if isMoment found then some (.moment, rest) else none
  else decimal [] cs

/-- The rest after a word, if the input starts with it. -/
def word? (word : String) (cs : List Char) : Option (List Char) :=
  if word.toList.isPrefixOf cs then some (cs.drop word.length) else none

/-- A truth value or the name of a number that is not finite, after a sign if there is one. -/
def named (signed : Bool) : Reader Value := fun cs =>
  match word? "inf" cs, word? "nan" cs with
  | some rest, _ | _, some rest => some (.float, rest)
  | none, none =>
      if signed then none
      else match word? "true" cs, word? "false" cs with
        | some rest, _ => some (.bool true, rest)
        | _, some rest => some (.bool false, rest)
        | none, none => none

/-- A value that holds no others. -/
def scalar : Reader Value := fun cs =>
  match cs with
  | '"' :: _ | '\x27' :: _ => (string cs).map fun (s, rest) => (.text s, rest)
  | '0' :: 'x' :: rest => based 16 ['0', 'x'] rest
  | '0' :: 'o' :: rest => based 8 ['0', 'o'] rest
  | '0' :: 'b' :: rest => based 2 ['0', 'b'] rest
  | c :: rest =>
      if c.isDigit then numberOrMoment cs
      else if c == '+' || c == '-' then
        if rest.head?.any Char.isDigit then decimal [c] rest else named true rest
      else named false cs
  | [] => none

mutual

/-- A value. -/
def value : Nat → Reader Value
  | 0, _ => none
  | fuel + 1, cs =>
      match skipBlanks cs with
      | '[' :: rest => (items fuel rest).map fun (found, rest) => (.list found, rest)
      | '\x7b' :: rest => (pairs fuel rest).map fun (found, rest) => (.table found, rest)
      | rest => scalar rest

/-- The items of a list, after the opening bracket or a comma. -/
def items : Nat → Reader (List Value)
  | 0, _ => none
  | fuel + 1, cs =>
      match skipLines cs with
      | ']' :: rest => some ([], rest)
      | cs => do
          let (item, cs) ← value fuel cs
          match skipLines cs with
          | ',' :: cs =>
              let (more, cs) ← items fuel cs
              some (item :: more, cs)
          | ']' :: cs => some ([item], cs)
          | _ => none

/-- The pairs of a table in braces, after the opening brace or a comma. -/
def pairs : Nat → Reader (List (Key × Value))
  | 0, _ => none
  | fuel + 1, cs =>
      match skipLines cs with
      | '\x7d' :: rest => some ([], rest)
      | cs => do
          let (name, cs) ← key '=' cs
          let (item, cs) ← value fuel cs
          match skipLines cs with
          | ',' :: cs =>
              let (more, cs) ← pairs fuel cs
              some ((name, item) :: more, cs)
          | '\x7d' :: cs => some ([(name, item)], cs)
          | _ => none

end

/-! ## Statements -/

/-- A statement without what ends its line. -/
def statement : Reader Statement := fun cs =>
  match cs with
  | '[' :: '[' :: rest => do
      let (name, rest) ← key ']' rest
      let (_, rest) ← mark ']' rest
      some (.header true name, rest)
  | '[' :: rest => (key ']' rest).map fun (name, rest) => (.header false name, rest)
  | _ => do
      let (name, rest) ← key '=' cs
      let (found, rest) ← value (rest.length + 1) rest
      some (.pair name found, rest)

/-- Whether a statement may end here. -/
def atLineEnd (cs : List Char) : Bool :=
  match skipBlanks cs with
  | [] => true
  | c :: _ => isLineEnd c || c == '#'

/-- All statements. -/
def statementsFrom : Nat → List Char → Option (List Statement)
  | 0, _ => none
  | fuel + 1, cs =>
      match skipLines cs with
      | [] => some []
      | cs => do
          let (first, cs) ← statement cs
          if atLineEnd cs then
            let more ← statementsFrom fuel cs
            some (first :: more)
          else none

/-- Whether a document holds no control characters but tabs and whole line breaks. -/
def isClean : List Char → Bool
  | [] => true
  | '\x0d' :: '\n' :: cs => isClean cs
  | c :: cs =>
      if c == '\t' || c == '\n' then isClean cs
      else c.toNat ≥ 0x20 && c.toNat != 0x7f && isClean cs

/-- The statements of a document, which may start with a byte order mark. -/
def statements (text : String) : Option (List Statement) :=
  let cs := match text.toList with
    | '\ufeff' :: cs => cs
    | cs => cs
  if isClean cs then statementsFrom (cs.length + 1) cs else none

end ComposeStability.Toml
