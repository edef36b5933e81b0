/-
# Log.Record -- structured log records

A record has a level, a message and named values; values may be grouped.  It is
shown either as `key=value` pairs, in which the keys of a group carry its name
in front, or as a JSON object.  A group without a name merges into what is
around it, and a group without values is not shown.
-/
import ComposeStability.Text.Quoted
import ComposeStability.Text.Blank
import ComposeStability.Text.Json

namespace ComposeStability.Log

set_option autoImplicit false

/-! ## Records -/

inductive Value where
  | text (s : String)
  | int (n : Int)
  | bool (b : Bool)
  /-- A list of texts, which may be absent. -/
  | texts (list : Option (List String))
  | group (attributes : List (String × Value))

/-- How important a record is. -/
abbrev Level := Int

namespace Level

def debug : Level := -4

def info : Level := 0

def warn : Level := 4

def error : Level := 8

/-- A name with the distance from the level it belongs to. -/
def named (name : String) (distance : Int) : String :=
  if distance = 0 then name
  else if distance < 0 then name ++ toString distance
  else name ++ "+" ++ toString distance

/-- The name of a level, relative to the last named one below it. -/
def name (level : Level) : String :=
  if level < info then named "DEBUG" (level - debug)
  else if level < warn then named "INFO" (level - info)
  else if level < error then named "WARN" (level - warn)
  else named "ERROR" (level - error)

end Level

structure Record where
  level : Level
  message : String
  attributes : List (String × Value) := []

/-! ## Pairs -/

/-- Whether a character makes quotes necessary. -/
def isAwkward (c : Char) : Bool :=
  if c.toNat < 0x80 then c.toNat ≤ 0x20 || c == '=' || c == '"'
  else c == Text.replacementChar || Text.isBlank c || !Text.isPrintable c

/-- A key or value, quoted if it is empty or holds an awkward character. -/
def quoteIfNeeded (s : String) : String :=
  if s.isEmpty || s.toList.any isAwkward then Text.quote s else s

/-- A list of texts as one text. -/
def listText (list : Option (List String)) : String :=
  "[" ++ " ".intercalate (list.getD []) ++ "]"

mutual

/-- The pairs of a value whose key has `lead` in front. -/
def Value.pairs (lead key : String) : Value → List (String × String)
  | .text s => [(lead ++ key, s)]
  | .int n => [(lead ++ key, toString n)]
  | .bool b => [(lead ++ key, Text.truthText b)]
  | .texts list => [(lead ++ key, listText list)]
  | .group attributes =>
      attributePairs (if key.isEmpty then lead else lead ++ key ++ ".") attributes

def attributePairs (lead : String) : List (String × Value) → List (String × String)
  | [] => []
  | (key, value) :: rest => value.pairs lead key ++ attributePairs lead rest

end

/-- A record as one line of pairs. -/
def Record.line (r : Record) : String :=
  let pairs := [("level", r.level.name), ("msg", r.message)] ++ attributePairs "" r.attributes
  " ".intercalate (pairs.map fun (key, value) => quoteIfNeeded key ++ "=" ++ quoteIfNeeded value) ++
    "\n"

/-! ## JSON -/

mutual

/-- The members that a value contributes to a JSON object. -/
def Value.members (key : String) : Value → List String
  | .text s => [Text.jsonString .log key ++ ":" ++ Text.jsonString .log s]
  | .int n => [Text.jsonString .log key ++ ":" ++ toString n]
  | .bool b => [Text.jsonString .log key ++ ":" ++ Text.truthText b]
  | .texts none => [Text.jsonString .log key ++ ":null"]
  | .texts (some list) =>
      [Text.jsonString .log key ++ ":[" ++ ",".intercalate (list.map (Text.jsonString .plain)) ++ "]"]
  | .group attributes =>
      let members := attributeMembers attributes
      if key.isEmpty || members.isEmpty then members
      else [Text.jsonString .log key ++ ":\x7b" ++ ",".intercalate members ++ "\x7d"]

def attributeMembers : List (String × Value) → List String
  | [] => []
  | (key, value) :: rest => value.members key ++ attributeMembers rest

end

/-- A record as one line of JSON. -/
def Record.json (r : Record) : String :=
  let members := attributeMembers ([("level", .text r.level.name), ("msg", .text r.message)] ++ r.attributes)
  "\x7b" ++ ",".intercalate members ++ "\x7d\n"

end ComposeStability.Log
