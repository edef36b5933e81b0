/-
# Text.Number -- integers and truth values in words

Integers are an optional sign followed by decimal digits, and have to fit a
signed word of 64 bits.  Truth values have six spellings each.
-/

namespace ComposeStability.Text

set_option autoImplicit false

/-! ## Integers -/

/-- The least and greatest values of a signed 64-bit word. -/
def minWord : Int := -0x8000000000000000

@[inherit_doc minWord]
def maxWord : Int := 0x7fffffffffffffff

/-- The value of a digit, in either case, if it is below the base. -/
def digitValue? (base : Nat) (c : Char) : Option Nat :=
  let value :=
    if c.isDigit then some (c.toNat - '0'.toNat)
    else if 'a' ≤ c ∧ c ≤ 'z' then some (c.toNat - 'a'.toNat + 10)
    else if 'A' ≤ c ∧ c ≤ 'Z' then some (c.toNat - 'A'.toNat + 10)
    else none
  value.filter (· < base)

/-- The value of a list of digits; `none` when a character is not a digit. -/
def digitsValue? (base : Nat) (digits : List Char) : Option Nat :=
  digits.foldl (fun acc c => do return (← acc) * base + (← digitValue? base c)) (some 0)

/-- The value of one or more decimal digits. -/
def natural? (digits : List Char) : Option Nat :=
  if digits.isEmpty then none else digitsValue? 10 digits

/-- An optional sign: whether it is negative, and the rest. -/
def sign : List Char → Bool × List Char
  | '-' :: rest => (true, rest)
  | '+' :: rest => (false, rest)
  | rest => (false, rest)

/-- The integer with this sign and size, if it fits a signed 64-bit word. -/
def word? (negative : Bool) (size : Nat) : Option Int :=
  let value : Int := if negative then -(size : Int) else size
  if minWord ≤ value ∧ value ≤ maxWord then some value else none

/-- The integer a text denotes, if it is decimal and fits a signed 64-bit word. -/
def integer? (s : String) : Option Int :=
  let (negative, digits) := sign s.toList
  (natural? digits).bind (word? negative)

/-- Whether every underscore stands between two digits; `afterDigit` tells whether one stands in front
of the text. -/
def underscoresFit (isDigit : Char → Bool) : Bool → List Char → Bool
  | _, [] => true
  | _, ['_'] => false
  | afterDigit, '_' :: c :: rest => afterDigit && isDigit c && underscoresFit isDigit true rest
  | _, c :: rest => underscoresFit isDigit (isDigit c) rest

/-! ## Truth values -/

/-- The truth value a text denotes. -/
def truth? (s : String) : Option Bool :=
  if ["1", "t", "T", "TRUE", "true", "True"].contains s then some true
  else if ["0", "f", "F", "FALSE", "false", "False"].contains s then some false
  else none

/-- The spelling of a truth value in output. -/
def truthText (b : Bool) : String :=
  if b then "true" else "false"

/-! ## Fixed width -/

/-- A number in base `base` with at least `width` digits. -/
def padded (base width n : Nat) : String :=
  let digits := Nat.toDigits base n
  String.ofList (List.replicate (width - digits.length) '0' ++ digits)

/-! ## Base 36 -/

/-- The digit of a value below 36. -/
def digit36 (value : Nat) : Char :=
  Char.ofNat (if value < 10 then '0'.toNat + value else 'a'.toNat + (value - 10))

/-- A number in base 36. -/
def base36 (n : Nat) : List Char :=
  if n < 36 then [digit36 n] else base36 (n / 36) ++ [digit36 (n % 36)]

end ComposeStability.Text
