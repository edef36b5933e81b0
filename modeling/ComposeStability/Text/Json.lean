/-
# Text.Json -- strings inside JSON

Two ways to escape a string for JSON.  Structured logs write the three common
controls by letter and every other control in hexadecimal; documents also have
letters for backspace and form feed, and may keep angle brackets and ampersands
out of the text.
-/
import ComposeStability.Text.Number

namespace ComposeStability.Text

set_option autoImplicit false

/-- Which characters have a short escape, and which safe ones are escaped too. -/
structure JsonEscapes where
  /-- Controls written by a letter. -/
  letters : List (Char × Char)
  /-- Further characters that are written in hexadecimal. -/
  unsafeChars : List Char

/-- The escapes of structured logs. -/
def JsonEscapes.log : JsonEscapes where
  letters := [('\n', 'n'), ('\x0d', 'r'), ('\t', 't')]
  unsafeChars := []

/-- The escapes of lists inside structured logs. -/
def JsonEscapes.plain : JsonEscapes where
  letters := [('\n', 'n'), ('\x0d', 'r'), ('\t', 't'), ('\x08', 'b'), ('\x0c', 'f')]
  unsafeChars := []

/-- The escapes of documents, which also keep markup out. -/
def JsonEscapes.document : JsonEscapes where
  letters := JsonEscapes.plain.letters
  unsafeChars := ['<', '>', '&']

/-- A character inside a JSON string. -/
def jsonChar (escapes : JsonEscapes) (c : Char) : List Char :=
  if c == '"' || c == '\\' then ['\\', c]
  else match escapes.letters.find? fun pair => pair.1 == c with
    | some (_, letter) => ['\\', letter]
    | none =>
        if c.toNat < 0x20 || c.toNat == 0x2028 || c.toNat == 0x2029 || escapes.unsafeChars.contains c
        then '\\' :: 'u' :: (padded 16 4 c.toNat).toList
        else [c]

/-- A JSON string. -/
def jsonString (escapes : JsonEscapes) (s : String) : String :=
  String.ofList ('"' :: s.toList.flatMap (jsonChar escapes) ++ ['"'])

end ComposeStability.Text
