/-
# Text.Bytes -- UTF-8 that need not be well formed

Bytes are read as text one character at a time; a byte that starts no well
formed character becomes one replacement character, and reading goes on with
the next byte.
-/
import ComposeStability.Text.Number

namespace ComposeStability.Text

set_option autoImplicit false

/-- The character that stands for a byte outside well-formed text. -/
def replacementChar : Char := Char.ofNat 0xfffd

/-- The low six bits of a continuation byte. -/
def continuation? (b : UInt8) : Option Nat :=
  if 0x80 ≤ b.toNat ∧ b.toNat < 0xc0 then some (b.toNat - 0x80) else none

/-- A character code within bounds that is not a surrogate. -/
def codePoint? (least code : Nat) : Option Char :=
  if least ≤ code ∧ code ≤ 0x10ffff ∧ ¬ (0xd800 ≤ code ∧ code ≤ 0xdfff) then some (Char.ofNat code)
  else none

/-- The character that well-formed bytes start with, and its length. -/
def firstChar? : List UInt8 → Option (Char × Nat)
  | [] => none
  | b :: rest =>
      let n := b.toNat
      if n < 0x80 then some (Char.ofNat n, 1)
      else if 0xc2 ≤ n ∧ n < 0xe0 then
        match rest with
        | c :: _ => do
            let low ← continuation? c
            return (← codePoint? 0x80 ((n - 0xc0) * 64 + low), 2)
        | _ => none
      else if 0xe0 ≤ n ∧ n < 0xf0 then
        match rest with
        | c :: d :: _ => do
            let mid ← continuation? c
            let low ← continuation? d
            return (← codePoint? 0x800 (((n - 0xe0) * 64 + mid) * 64 + low), 3)
        | _ => none
      else if 0xf0 ≤ n ∧ n < 0xf5 then
        match rest with
        | c :: d :: e :: _ => do
            let high ← continuation? c
            let mid ← continuation? d
            let low ← continuation? e
            return (← codePoint? 0x10000 ((((n - 0xf0) * 64 + high) * 64 + mid) * 64 + low), 4)
        | _ => none
      else none

/-- The characters of bytes; `skip` bytes belong to a character already read. -/
def charsFrom (skip : Nat) : List UInt8 → List Char
  | [] => []
  | b :: rest =>
      match skip with
      | k + 1 => charsFrom k rest
      | 0 =>
          match firstChar? (b :: rest) with
          | some (c, width) => c :: charsFrom (width - 1) rest
          | none => replacementChar :: charsFrom 0 rest

/-- The text of bytes, with a replacement character for each stray byte. -/
def ofBytes (bytes : List UInt8) : String :=
  String.ofList (charsFrom 0 bytes)

/-- The bytes of a text. -/
def toBytes (s : String) : List UInt8 :=
  s.toUTF8.toList

/-- Two lower-case hexadecimal digits for each byte. -/
def hexOfBytes (bytes : List UInt8) : String :=
  String.ofList (bytes.flatMap fun b => [Nat.digitChar (b.toNat / 16), Nat.digitChar (b.toNat % 16)])

/-- The bytes that pairs of hexadecimal digits stand for. -/
def bytesOfHex : List Char → List UInt8
  | high :: low :: rest => ((digitsValue? 16 [high, low]).getD 0).toUInt8 :: bytesOfHex rest
  | _ => []

end ComposeStability.Text
