/-
# Text.Quoted -- string literals

`quote` writes a text as a double-quoted literal: quotes and backslashes are
escaped, printable characters stand for themselves, the seven named controls
have their letters, and the remaining characters are written in hexadecimal by
two, four or eight digits.  `unquote?` reads a literal in any of the three
quoting forms: interpreted text, raw text, and a single character.
-/
import ComposeStability.Text.Printable
import ComposeStability.Text.Number
import ComposeStability.Text.Bytes

namespace ComposeStability.Text

set_option autoImplicit false

/-! ## Writing -/

/-- The controls that have a letter of their own after the backslash. -/
def namedEscapes : List (Char × Char) :=
  [('a', '\x07'), ('b', '\x08'), ('f', '\x0c'), ('n', '\n'), ('r', '\x0d'), ('t', '\t'),
   ('v', '\x0b')]

/-- The letter of a named control. -/
def escapeLetter? (c : Char) : Option Char :=
  (namedEscapes.find? fun pair => pair.2 == c).map (·.1)

/-- The written form of one character inside double quotes. -/
def escapeChar (c : Char) : List Char :=
  if c == '"' || c == '\\' then ['\\', c]
  else if isPrintable c then [c]
  else match escapeLetter? c with
    | some letter => ['\\', letter]
    | none =>
        if c.toNat < 0x80 then '\\' :: 'x' :: (padded 16 2 c.toNat).toList
        else if c.toNat < 0x10000 then '\\' :: 'u' :: (padded 16 4 c.toNat).toList
        else '\\' :: 'U' :: (padded 16 8 c.toNat).toList

/-- A text as a double-quoted literal. -/
def quote (s : String) : String :=
  String.ofList ('"' :: s.toList.flatMap escapeChar ++ ['"'])

/-! ## Reading -/

/-- What one element of a literal denotes: a character, or a single byte that
need not be one. -/
inductive Piece where
  | char (c : Char)
  | byte (b : UInt8)
deriving DecidableEq, Repr

namespace Piece

/-- The bytes of a piece. -/
def bytes : Piece → List UInt8
  | .char c => toBytes (String.singleton c)
  | .byte b => [b]

/-- The character of a piece, if it is one. -/
def char? : Piece → Option Char
  | .char c => some c
  | .byte _ => none

/-- The text of a list of pieces.  Stray bytes are joined with their neighbours
before they are read as text. -/
def text (pieces : List Piece) : String :=
  match pieces.mapM char? with
  | some chars => String.ofList chars
  | none => ofBytes (pieces.flatMap bytes)

end Piece

/-- The piece with a given code: below 128 a character, else a byte. -/
def pieceOfByte (code : Nat) : Piece :=
  if code < 0x80 then .char (Char.ofNat code) else .byte code.toUInt8

/-- A character given by `width` hexadecimal digits. -/
def hexChar? (width : Nat) (cs : List Char) : Option (Piece × List Char) :=
  let digits := cs.take width
  if digits.length < width then none
  else do
    let code ← digitsValue? 16 digits
    let c ← codePoint? 0 code
    return (.char c, cs.drop width)

/-- The piece that an escape sequence after its backslash denotes, and the rest.
Of the two quotes only the one around the literal may be escaped. -/
def escape? (around : Char) : List Char → Option (Piece × List Char)
  | 'x' :: cs =>
      let digits := cs.take 2
      if digits.length < 2 then none
      else (digitsValue? 16 digits).map fun code => (pieceOfByte code, cs.drop 2)
  | 'u' :: cs => hexChar? 4 cs
  | 'U' :: cs => hexChar? 8 cs
  | '\\' :: cs => some (.char '\\', cs)
  | c :: cs =>
      if c == '"' || c == '\x27' then
        if c == around then some (.char c, cs) else none
      else if (digitValue? 8 c).isSome then
        let digits := (c :: cs).take 3
        if digits.length < 3 then none
        else do
          let code ← digitsValue? 8 digits
          if code < 256 then return (pieceOfByte code, cs.drop 2) else none
      else (namedEscapes.find? fun pair => pair.1 == c).map fun pair => (.char pair.2, cs)
  | [] => none

/-- The pieces of an interpreted literal after its opening quote, up to and
including the closing quote, which has to end the text. -/
def piecesWithin (around : Char) (fuel : Nat) (cs : List Char) : Option (List Piece) :=
  match fuel with
  | 0 => none
  | fuel + 1 =>
      match cs with
      | [] => none
      | '\n' :: _ => none
      | '\\' :: rest =>
          if around == '\\' then none
          else do
            let (piece, after) ← escape? around rest
            return piece :: (← piecesWithin around fuel after)
      | c :: rest =>
          if c == around then (if rest.isEmpty then some [] else none)
          else do return .char c :: (← piecesWithin around fuel rest)

/-- The pieces that a literal denotes. -/
def unquotePieces? (s : String) : Option (List Piece) :=
  match s.toList with
  | '"' :: body => piecesWithin '"' (body.length + 1) body
  | '\x27' :: body => do
      let pieces ← piecesWithin '\x27' (body.length + 1) body
      if pieces.length ≤ 1 then return pieces else none
  | '\x60' :: body =>
      match body.reverse with
      | '\x60' :: inner =>
          if inner.contains '\x60' then none
          else some ((inner.reverse.filter (· != '\x0d')).map .char)
      | _ => none
  | _ => none

/-- The text that a literal denotes. -/
def unquote? (s : String) : Option String := (unquotePieces? s).map Piece.text

/-- The bytes that a literal denotes, which need not be a text. -/
def unquoteBytes? (s : String) : Option (List UInt8) :=
  (unquotePieces? s).map fun pieces => pieces.flatMap Piece.bytes

/-! ## Bytes -/

/-- The pieces of bytes; `skip` bytes belong to a character already read. -/
def piecesFrom (skip : Nat) : List UInt8 → List Piece
  | [] => []
  | b :: rest =>
      match skip with
      | k + 1 => piecesFrom k rest
      | 0 =>
          match firstChar? (b :: rest) with
          | some (c, width) => .char c :: piecesFrom (width - 1) rest
          | none => .byte b :: piecesFrom 0 rest

/-- The written form of a piece inside double quotes. -/
def Piece.escaped : Piece → List Char
  | .char c => escapeChar c
  | .byte b => '\\' :: 'x' :: (padded 16 2 b.toNat).toList

/-- Bytes as a double-quoted literal; those that belong to no character are written in hexadecimal. -/
def quoteBytes (bytes : List UInt8) : String :=
  String.ofList ('"' :: (piecesFrom 0 bytes).flatMap Piece.escaped ++ ['"'])

end ComposeStability.Text
