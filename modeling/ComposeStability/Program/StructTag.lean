/-
# Program.StructTag -- values in the tags of fields

A tag is a list of pairs `key:"value"` divided by spaces.  Reading stops at the
first part that has another form.
-/
import ComposeStability.Text.Quoted

namespace ComposeStability.Program

set_option autoImplicit false

/-- Whether a character can be part of a key. -/
def isTagKeyChar (c : Char) : Bool :=
  ' ' < c && c != ':' && c != '"' && c.toNat != 0x7f

/-- The characters up to the closing quote, which is included, and the rest. -/
def untilQuote : List Char → Option (List Char × List Char)
  | [] => none
  | '"' :: rest => some (['"'], rest)
  | ['\\'] => none
  | '\\' :: c :: rest => (untilQuote rest).map fun parts => ('\\' :: c :: parts.1, parts.2)
  | c :: rest => (untilQuote rest).map fun parts => (c :: parts.1, parts.2)

/-- The value of a key, looked for among at most `fuel` pairs. -/
def tagValueFrom (key : String) (fuel : Nat) (tag : List Char) : Option String :=
  match fuel with
  | 0 => none
  | fuel + 1 =>
      let tag := tag.dropWhile (· == ' ')
      let name := tag.takeWhile isTagKeyChar
      match name, tag.dropWhile isTagKeyChar with
      | _ :: _, ':' :: '"' :: body =>
          match untilQuote body with
          | none => none
          | some (value, rest) =>
              if String.ofList name == key then Text.unquote? (String.ofList ('"' :: value))
              else tagValueFrom key fuel rest
      | _, _ => none

/-- The value of a key in a tag. -/
def tagValue (key tag : String) : Option String :=
  tagValueFrom key (tag.length + 1) tag.toList

end ComposeStability.Program
