/-
# Cache.MessagePack -- a binary form of values

Writing uses the shortest header for texts, lists and maps, and a fixed width
for numbers.  Reading takes any width for a number, binary data for text, and
the nil byte for an empty value of any kind; numbers are reduced to the width
of what they are read for.
-/
import ComposeStability.Cache.Sha256
import ComposeStability.Text.Bytes

namespace ComposeStability.MessagePack

set_option autoImplicit false

open Sha256 (bigEndian)

/-! ## Writing -/

/-- The byte for an absent value. -/
def nilByte : UInt8 := 0xc0

def writeBool (b : Bool) : List UInt8 := [if b then 0xc3 else 0xc2]

/-- An eight-bit number. -/
def writeByte (n : UInt8) : List UInt8 := [0xcc, n]

/-- A sixteen-bit number. -/
def writeWord (n : Nat) : List UInt8 := 0xcd :: bigEndian 2 n

def writeTextHeader (length : Nat) : List UInt8 :=
  if length < 32 then [(0xa0 + length).toUInt8]
  else if length < 256 then 0xd9 :: bigEndian 1 length
  else if length < 65536 then 0xda :: bigEndian 2 length
  else 0xdb :: bigEndian 4 length

def writeText (s : String) : List UInt8 :=
  let bytes := Text.toBytes s
  writeTextHeader bytes.length ++ bytes

def writeListHeader (length : Nat) : List UInt8 :=
  if length < 16 then [(0x90 + length).toUInt8]
  else if length < 65536 then 0xdc :: bigEndian 2 length
  else 0xdd :: bigEndian 4 length

def writeList {α : Type} (write : α → List UInt8) (xs : List α) : List UInt8 :=
  writeListHeader xs.length ++ xs.flatMap write

/-- A list that may be absent. -/
def writeOptional {α : Type} (write : α → List UInt8) : Option (List α) → List UInt8
  | none => [nilByte]
  | some xs => writeList write xs

/-- A map of at most fifteen fields, each with its written value. -/
def writeFields (fields : List (String × List UInt8)) : List UInt8 :=
  (0x80 + fields.length).toUInt8 :: fields.flatMap fun (name, value) => writeText name ++ value

/-! ## Reading -/

/-- Reads a value from the front of bytes. -/
abbrev Reader (α : Type) := List UInt8 → Option (α × List UInt8)

/-- Takes a number of bytes. -/
def take (n : Nat) : Reader (List UInt8) := fun bytes =>
  let taken := bytes.take n
  if taken.length < n then none else some (taken, bytes.drop n)

/-- A number of `width` bytes, the highest first. -/
def readNat (width : Nat) : Reader Nat := fun bytes =>
  (take width bytes).map fun (taken, rest) =>
    (taken.foldl (fun n b => n * 256 + b.toNat) 0, rest)

/-- The number a two's complement of `width` bytes stands for, modulo 2^64. -/
def signed (width n : Nat) : Nat :=
  if n < 1 <<< (8 * width - 1) then n else 0x10000000000000000 - (1 <<< (8 * width)) + n

/-- A number in any encoding, modulo 2^64. -/
def readNumber : Reader Nat
  | [] => none
  | c :: rest =>
      let code := c.toNat
      if code == 0xc0 then some (0, rest)
      else if code ≤ 0x7f then some (code, rest)
      else if 0xe0 ≤ code then some (signed 1 code, rest)
      else if 0xcc ≤ code && code ≤ 0xcf then readNat (1 <<< (code - 0xcc)) rest
      else if 0xd0 ≤ code && code ≤ 0xd3 then
        let width := 1 <<< (code - 0xd0)
        (readNat width rest).map fun (n, rest) => (signed width n, rest)
      else none

def readBool : Reader Bool
  | [] => none
  | c :: rest =>
      if c == 0xc3 then some (true, rest)
      else if c == 0xc2 || c == nilByte then some (false, rest)
      else none

/-- The length of a text or of binary data. -/
def readTextHeader : Reader Nat
  | [] => none
  | c :: rest =>
      let code := c.toNat
      if code == 0xc0 then some (0, rest)
      else if 0xa0 ≤ code && code ≤ 0xbf then some (code - 0xa0, rest)
      else if code == 0xd9 || code == 0xc4 then readNat 1 rest
      else if code == 0xda || code == 0xc5 then readNat 2 rest
      else if code == 0xdb || code == 0xc6 then readNat 4 rest
      else none

def readText : Reader String := fun bytes => do
  let (length, rest) ← readTextHeader bytes
  let (taken, rest) ← take length rest
  return (Text.ofBytes taken, rest)

/-- The length of a list; `none` inside for an absent list. -/
def readListHeader : Reader (Option Nat)
  | [] => none
  | c :: rest =>
      let code := c.toNat
      if code == 0xc0 then some (none, rest)
      else if 0x90 ≤ code && code ≤ 0x9f then some (some (code - 0x90), rest)
      else if code == 0xdc then (readNat 2 rest).map fun (n, rest) => (some n, rest)
      else if code == 0xdd then (readNat 4 rest).map fun (n, rest) => (some n, rest)
      else none

/-- The length of a map; `none` inside for an absent map. -/
def readMapHeader : Reader (Option Nat)
  | [] => none
  | c :: rest =>
      let code := c.toNat
      if code == 0xc0 then some (none, rest)
      else if 0x80 ≤ code && code ≤ 0x8f then some (some (code - 0x80), rest)
      else if code == 0xde then (readNat 2 rest).map fun (n, rest) => (some n, rest)
      else if code == 0xdf then (readNat 4 rest).map fun (n, rest) => (some n, rest)
      else none

/-- Reads `n` elements; each is read over the value at its place in `old`. -/
def readElements {α : Type} (read : α → Reader α) (default : α) : Nat → List α → Reader (List α)
  | 0, _, bytes => some ([], bytes)
  | n + 1, old, bytes => do
      let (x, rest) ← read (old.head?.getD default) bytes
      let (xs, rest) ← readElements read default n old.tail rest
      return (x :: xs, rest)

/-- A list that is read into: its items, unless it is absent, and behind them places that an
earlier, longer list has filled. -/
structure Slots (α : Type) where
  items : Option (List α) := none
  spare : List α := []

/-- Reads a list over an earlier one; an absent list clears all places. -/
def readSlots {α : Type} (read : α → Reader α) (default : α) (old : Slots α) : Reader (Slots α) :=
  fun bytes => do
    match ← readListHeader bytes with
    | (none, rest) => return ({}, rest)
    | (some n, rest) =>
        let places := old.items.getD [] ++ old.spare
        (readElements read default n places rest).map fun (items, rest) =>
          ({ items := some items, spare := places.drop n }, rest)

mutual

/-- Passes over one value; `fuel` bounds the nesting. -/
def skip : Nat → List UInt8 → Option (List UInt8)
  | 0, _ => none
  | _ + 1, [] => none
  | fuel + 1, c :: rest =>
      let code := c.toNat
      let drop (n : Nat) (bytes : List UInt8) : Option (List UInt8) := (take n bytes).map (·.2)
      if code ≤ 0x7f || 0xe0 ≤ code || code == 0xc0 || code == 0xc2 || code == 0xc3 then some rest
      else if 0x80 ≤ code && code ≤ 0x8f || code == 0xde || code == 0xdf then
        match readMapHeader (c :: rest) with
        | some (some n, rest) => skipAll fuel (2 * n) rest
        | _ => none
      else if 0x90 ≤ code && code ≤ 0x9f || code == 0xdc || code == 0xdd then
        match readListHeader (c :: rest) with
        | some (some n, rest) => skipAll fuel n rest
        | _ => none
      else if 0xa0 ≤ code && code ≤ 0xbf || 0xc4 ≤ code && code ≤ 0xc6 ||
          0xd9 ≤ code && code ≤ 0xdb then
        match readTextHeader (c :: rest) with
        | some (n, rest) => drop n rest
        | none => none
      else if 0xcc ≤ code && code ≤ 0xcf then drop (1 <<< (code - 0xcc)) rest
      else if 0xd0 ≤ code && code ≤ 0xd3 then drop (1 <<< (code - 0xd0)) rest
      else if code == 0xca then drop 4 rest
      else if code == 0xcb then drop 8 rest
      else if 0xd4 ≤ code && code ≤ 0xd8 then drop ((1 <<< (code - 0xd4)) + 1) rest
      else if 0xc7 ≤ code && code ≤ 0xc9 then
        match readNat (1 <<< (code - 0xc7)) rest with
        | some (n, rest) => drop (n + 1) rest
        | none => none
      else none
termination_by fuel _ => (fuel, 0)

/-- Passes over `n` values. -/
def skipAll (fuel n : Nat) (bytes : List UInt8) : Option (List UInt8) :=
  match n with
  | 0 => some bytes
  | n + 1 => do skipAll fuel n (← skip fuel bytes)
termination_by (fuel, n + 1)

end

/-! ## Structures -/

/-- The fields of a structure, each read over the structure so far. -/
abbrev FieldReaders (σ : Type) := List (String × (σ → Reader σ))

/-- Reads `n` named fields; unknown ones are passed over. -/
def readNamed {σ : Type} (fields : FieldReaders σ) : Nat → σ → Reader σ
  | 0, s, bytes => some (s, bytes)
  | n + 1, s, bytes => do
      let (name, rest) ← readText bytes
      match fields.find? fun f => f.1 == name with
      | some (_, read) =>
          let (s, rest) ← read s rest
          readNamed fields n s rest
      | none => readNamed fields n s (← skip (rest.length + 1) rest)

/-- Reads all fields in order. -/
def readInOrder {σ : Type} : FieldReaders σ → σ → Reader σ
  | [], s, bytes => some (s, bytes)
  | (_, read) :: fields, s, bytes => do
      let (s, rest) ← read s bytes
      readInOrder fields s rest

/-- Reads a structure: a map of fields, or a list of all fields.  An absent
structure and an empty list are the default. -/
def readStructure {σ : Type} (fields : FieldReaders σ) (default old : σ) : Reader σ := fun bytes =>
  match readMapHeader bytes with
  | some (none, rest) => some (default, rest)
  | some (some n, rest) => readNamed fields n old rest
  | none => do
      match ← readListHeader bytes with
      | (some n, rest) =>
          if n = 0 then return (default, rest)
          else if n = fields.length then readInOrder fields old rest
          else none
      | (none, _) => none

end ComposeStability.MessagePack
