/-
# Text.Binary64 -- floating-point numbers and their shortest text

A number is `m · 2 ^ q`, negated or not, with `m` below `2 ^ 53`.  A decimal or
hexadecimal number is read as the nearest such number, a tie going to the even
one.  A number is
written with the fewest digits that read back as the number; of several such
digits, those nearest to it.  Large and small numbers have an exponent.

All of it is exact arithmetic on natural numbers.
-/
import ComposeStability.Text.Number

namespace ComposeStability.Text

set_option autoImplicit false

/-! ## Numbers -/

/-- A binary number of 64 bits. -/
inductive Binary64 where
  | nan
  | infinite (negative : Bool)
  /-- The number `m · 2 ^ q`, where `m` is as large as the format allows. -/
  | finite (negative : Bool) (m : Nat) (q : Int)
deriving DecidableEq, Repr

namespace Binary64

/-- The smallest exponent. -/
def minExponent : Int := -1074

/-- The largest exponent. -/
def maxExponent : Int := 971

/-- The bound of `m`. -/
def bound : Nat := 0x20000000000000

/-- Numerical equality: zeros are equal, and a number that is none equals nothing. -/
def equals : Binary64 → Binary64 → Bool
  | .infinite a, .infinite b => a == b
  | .finite a m q, .finite b n r => (m == n && m == 0) || (a == b && m == n && q == r)
  | _, _ => false

/-- The fraction `n / d` times `base ^ e`. -/
def scaled (base : Nat) (n d : Nat) (e : Int) : Nat × Nat :=
  match e with
  | .ofNat e => (n * base.pow e, d)
  | .negSucc e => (n, d * base.pow (e + 1))

/-- A fraction rounded to the nearest number, a tie to the even one. -/
def roundHalfEven (n d : Nat) : Nat :=
  let (whole, rest) := (n / d, n % d)
  if 2 * rest < d || (2 * rest == d && whole % 2 == 0) then whole else whole + 1

/-- The number nearest to a positive fraction. -/
def ofFraction (negative : Bool) (n d : Nat) : Binary64 :=
  let guess : Int := max ((n.log2 : Int) - d.log2 - 53) minExponent
  let (a, b) := scaled 2 n d (-guess)
  let q := if a / b < bound then guess else guess + 1
  let (a, b) := scaled 2 n d (-q)
  let m := roundHalfEven a b
  let (m, q) := if m < bound then (m, q) else (m / 2, q + 1)
  if q > maxExponent then .infinite negative else .finite negative m q

/-- The number nearest to `n · 10 ^ e`; decimals far out of range are not computed. -/
def ofDecimal (negative : Bool) (n : Nat) (e : Int) : Binary64 :=
  let size : Int := e + (toString n).length
  if n = 0 || size < -400 then .finite negative 0 minExponent
  else if size > 400 then .infinite negative
  else let (a, b) := scaled 10 n 1 e; ofFraction negative a b

/-- The number nearest to `n · 2 ^ e`; numbers far out of range are not computed. -/
def ofBinary (negative : Bool) (n : Nat) (e : Int) : Binary64 :=
  let size : Int := e + n.log2
  if n = 0 || size < -1100 then .finite negative 0 minExponent
  else if size > 1100 then .infinite negative
  else let (a, b) := scaled 2 n 1 e; ofFraction negative a b

/-! ## Reading -/

/-- The value of an exponent after its mark. -/
def exponentAfter? (mark : Char) : List Char → Option Int
  | [] => none
  | c :: cs =>
      if c.toLower != mark then none
      else let (negative, digits) := sign cs
        (natural? digits).map fun n => if negative then -(n : Int) else n

/-- The digits of a number in a base with its point taken out, the number of digits after the point,
and the rest. -/
def mantissa (base : Nat) (cs : List Char) : List Char × Nat × List Char :=
  let isDigit (c : Char) : Bool := (digitValue? base c).isSome
  let (whole, rest) := cs.span isDigit
  let (fraction, rest) := match rest with
    | '.' :: rest => rest.span isDigit
    | _ => ([], rest)
  (whole ++ fraction, fraction.length, rest)

/-- A decimal without sign, whose exponent may be missing. -/
def decimal? (negative : Bool) (cs : List Char) : Option Binary64 := do
  let (digits, places, rest) := mantissa 10 cs
  let n ← natural? digits
  let e ← if rest.isEmpty then some 0 else exponentAfter? 'e' rest
  return ofDecimal negative n (e - places)

/-- A hexadecimal number without sign and mark, which needs an exponent of two. -/
def hexadecimal? (negative : Bool) (cs : List Char) : Option Binary64 := do
  let (digits, places, rest) := mantissa 16 cs
  if digits.isEmpty then none
  let n ← digitsValue? 16 digits
  let e ← exponentAfter? 'p' rest
  return ofBinary negative n (e - 4 * places)

/-- A number without sign.  Underscores may stand between its digits. -/
def magnitude? (negative : Bool) (cs : List Char) : Option Binary64 :=
  let plain (cs : List Char) : List Char := cs.filter (· != '_')
  match cs with
  | '0' :: c :: rest =>
      if c.toLower == 'x' then
        if underscoresFit (fun c => (digitValue? 16 c).isSome) true rest then
          hexadecimal? negative (plain rest)
        else none
      else if underscoresFit Char.isDigit false cs then decimal? negative (plain cs) else none
  | _ => if underscoresFit Char.isDigit false cs then decimal? negative (plain cs) else none

/-- Reads a number: a decimal or hexadecimal one, or the name of one that is not finite. -/
def ofText? (s : String) : Option Binary64 :=
  let (negative, rest) := sign s.toList
  match (String.ofList rest).toLower with
  | "nan" => if rest.length = s.length then some .nan else none
  | "inf" | "infinity" => some (.infinite negative)
  | _ => magnitude? negative rest

/-- Reads a number; a text that is none counts as zero. -/
def ofText (s : String) : Binary64 := (ofText? s).getD (.finite false 0 minExponent)

/-! ## Writing -/

/-- The interval of fractions that read as `m · 2 ^ q`, in quarters of `2 ^ q`, and whether its ends
belong to it. -/
def interval (m : Nat) (q : Int) : Nat × Nat × Bool :=
  (if m == bound / 2 && q > minExponent then 4 * m - 1 else 4 * m - 2, 4 * m + 2, m % 2 == 0)

/-- Whether `digits · 10 ^ e` reads as `m · 2 ^ q`. -/
def readsAs (m : Nat) (q : Int) (digits : Nat) (e : Int) : Bool :=
  let (low, high, closed) := interval m q
  let (a, b) := scaled 10 digits 1 e
  let (a, b) := scaled 2 a b (2 - q)
  if closed then low * b ≤ a && a ≤ high * b else low * b < a && a < high * b

/-- The largest `k` for which `10 ^ k` is at most the fraction, between `k - fuel` and `k`. -/
def decimalExponent (n d : Nat) : Nat → Int → Int
  | 0, k => k
  | fuel + 1, k =>
      let (a, b) := scaled 10 n d (-k)
      if b ≤ a then k else decimalExponent n d fuel (k - 1)

/-- The digits on a grid of `10 ^ e` that read back, nearest first. -/
def digitsOnGrid? (m : Nat) (q : Int) (e : Int) : Option Nat :=
  let (n, d) := scaled 2 m 1 q
  let (a, b) := scaled 10 n d (-e)
  let below := a / b
  let nearer := roundHalfEven a b
  [nearer, below, below + 1].find? fun digits => readsAs m q digits e

/-- The digits of the shortest text and the exponent of the last one. -/
def shortest (m : Nat) (q : Int) : Nat × Int :=
  let (n, d) := scaled 2 m 1 q
  let top := decimalExponent n d 700 310
  let found := (List.range 17).findSome? fun (k : Nat) =>
    (digitsOnGrid? m q (top - k)).map fun digits => (digits, top - k)
  found.getD (0, 0)

/-- The digits without the zeros at the end, and the exponent of the first one. -/
def significant (m : Nat) (q : Int) : List Char × Int :=
  let (digits, e) := shortest m q
  let all := (toString digits).toList
  let kept := (all.reverse.dropWhile (· == '0')).reverse
  (kept, e + all.length - 1)

/-- From this exponent on, and below `-4`, the exponent is written. -/
def exponentFrom : Int := 6

/-- Digits with the exponent of the first one. -/
def decimalText (digits : List Char) (e : Int) : String :=
  if e < -4 || e ≥ exponentFrom then
    let tail := if digits.length ≤ 1 then "" else "." ++ String.ofList digits.tail
    String.ofList (digits.take 1) ++ tail ++ "e" ++ (if e < 0 then "-" else "+") ++
      padded 10 2 e.natAbs
  else if e < 0 then
    "0." ++ String.ofList (List.replicate (e.natAbs - 1) '0' ++ digits)
  else
    let whole := e.toNat + 1
    let padding := List.replicate (whole - digits.length) '0'
    let rest := digits.drop whole
    String.ofList (digits.take whole ++ padding) ++
      (if rest.isEmpty then "" else "." ++ String.ofList rest)

/-- The shortest text of a number. -/
def text : Binary64 → String
  | .nan => "NaN"
  | .infinite negative => if negative then "-Inf" else "+Inf"
  | .finite negative m q =>
      let sign := if negative then "-" else ""
      if m = 0 then sign ++ "0"
      else let (digits, e) := significant m q; sign ++ decimalText digits e

end Binary64

end ComposeStability.Text
