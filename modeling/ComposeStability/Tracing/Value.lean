/-
# Tracing.Value -- values seen at run time

The arguments of a traced call are values of any type.  Two of them are compared
directly if their type allows it; values of other types -- a list, a table, a
function, or what has one of these for a part -- are compared by their contents.
A place for values of any type allows it, but may hold a value that does not: then
the contents decide as well.

The text of a value is what a person reads in a trace.  A value may describe
itself, and its description may fail; then its type and its identity stand in
for it.  Addresses and hashes differ from run to run and are shown as such.
-/
import ComposeStability.Text.Binary64
import ComposeStability.Text.Quoted

namespace ComposeStability.Tracing

set_option autoImplicit false

/-! ## Values -/

/-- The integer types. -/
inductive IntType where
  | int
  | int8
  | int64
  | uint64
deriving DecidableEq, Repr

namespace IntType

def name : IntType → String
  | .int => "int"
  | .int8 => "int8"
  | .int64 => "int64"
  | .uint64 => "uint64"

/-- The type with a name. -/
def ofName? (s : String) : Option IntType := [.int, .int8, .int64, .uint64].find? (·.name == s)

/-- The number of the type that has the same lowest bits. -/
def wrap : IntType → Int → Int
  | .int, n | .int64, n => n.bmod 0x10000000000000000
  | .int8, n => n.bmod 0x100
  | .uint64, n => n % 0x10000000000000000

end IntType

/-- How a value describes itself. -/
inductive Voice where
  /-- By a text of its own. -/
  | speaks (text : String)
  /-- It fails, for a cause. -/
  | fails (cause : String)
deriving DecidableEq, Repr

/-- A value with its type. -/
inductive Value where
  /-- No value, and no type. -/
  | nothing
  | bool (b : Bool)
  | int (type : IntType) (n : Int)
  | float (x : Text.Binary64)
  | text (s : String)
  /-- A list with the address of its items; it may be missing. -/
  | list (type : String) (address : Option String) (items : List Value)
  /-- A table of counts sorted by key with its address; it may be missing. -/
  | table (type : String) (address : Option String) (entries : List (String × Int))
  /-- A fixed number of items. -/
  | tuple (type : String) (items : List Value)
  | record (type : String) (fields : List Value)
  /-- An address, which may be missing, and what is found there. -/
  | reference (type : String) (address : Option String) (content : Value)
  /-- A function, which may be missing. -/
  | function (type : String) (present : Bool)
  /-- A value in a place for values of any type. -/
  | held (value : Value)
  /-- A value that describes itself. -/
  | speaking (voice : Voice) (value : Value)
deriving Repr, Inhabited

namespace Value

/-- What stands for a previous value where there is none. -/
def absent : Value := .speaking (.speaks "<absent>") (.record "absent" [])

/-- The name of the type. -/
def type : Value → String
  | .nothing => "nothing"
  | .bool _ => "bool"
  | .int type _ => type.name
  | .float _ => "float64"
  | .text _ => "string"
  | .list type _ _ | .table type _ _ | .tuple type _ | .record type _ | .reference type _ _
  | .function type _ => type
  | .held _ => "any"
  | .speaking _ value => value.type

/-! ## Equality -/

mutual

/-- Whether the type of a value allows direct equality. -/
def comparable : Value → Bool
  | .list _ _ _ | .table _ _ _ | .function _ _ => false
  | .tuple _ items => allComparable items
  | .record _ fields => allComparable fields
  | .speaking _ value => value.comparable
  | _ => true

def allComparable : List Value → Bool
  | [] => true
  | v :: rest => v.comparable && allComparable rest

end

mutual

/-- Direct equality; `none` if it meets a value held in a place of any type that has none. -/
def same? : Value → Value → Option Bool
  | .nothing, .nothing => some true
  | .bool a, .bool b => some (a == b)
  | .int s a, .int t b => some (s == t && a == b)
  | .float a, .float b => some (a.equals b)
  | .text a, .text b => some (a == b)
  | .tuple s as, .tuple t bs => if s == t then allSame? as bs else some false
  | .record s as, .record t bs => if s == t then allSame? as bs else some false
  | .reference s a _, .reference t b _ => some (s == t && a == b)
  | .held a, .held b => if a.type == b.type && !a.comparable then none else a.same? b
  | .speaking _ a, .speaking _ b => a.same? b
  | _, _ => some false

/-- Direct equality of items in order, up to the first difference. -/
def allSame? : List Value → List Value → Option Bool
  | [], [] => some true
  | a :: as, b :: bs => match a.same? b with
      | some true => allSame? as bs
      | decided => decided
  | _, _ => some false

end

mutual

/-- Equality of contents.  A missing list differs from an empty one, functions are equal only if
both are missing, and what is at one address is equal, whatever it holds. -/
def alike : Value → Value → Bool
  | .nothing, .nothing => true
  | .bool a, .bool b => a == b
  | .int s a, .int t b => s == t && a == b
  | .float a, .float b => a.equals b
  | .text a, .text b => a == b
  | .list s p as, .list t q bs =>
      s == t && p.isSome == q.isSome && as.length == bs.length && (p == q || allAlike as bs)
  | .table s p as, .table t q bs => s == t && p.isSome == q.isSome && (p == q || as == bs)
  | .function s p, .function t q => s == t && !p && !q
  | .tuple s as, .tuple t bs => s == t && allAlike as bs
  | .record s as, .record t bs => s == t && allAlike as bs
  | .reference s a x, .reference t b y => s == t && (a == b || (a.isSome && b.isSome && x.alike y))
  | .held a, .held b => a.alike b
  | .speaking _ a, .speaking _ b => a.alike b
  | _, _ => false

def allAlike : List Value → List Value → Bool
  | [], [] => true
  | a :: as, b :: bs => a.alike b && allAlike as bs
  | _, _ => false

end

/-- Whether two values are equal: directly if their type allows it, as far as that goes, and otherwise
by their contents. -/
def equal (a b : Value) : Bool :=
  if a.type != b.type then false
  else if a.comparable then (a.same? b).getD (a.alike b)
  else a.alike b

/-! ## Text -/

/-- How an address is shown. -/
def addressText : String := "<addr>"

/-- How a missing value is shown inside another. -/
def missingText : String := "<nil>"

/-- Whether a value is a reference without an address. -/
def isNowhere : Value → Bool
  | .reference _ none _ => true
  | _ => false

mutual

/-- The text of a value inside another one. -/
def plain : Value → String
  | .nothing => missingText
  | .bool b => Text.truthText b
  | .int _ n => toString n
  | .float x => x.text
  | .text s => s
  | .list _ _ items => "[" ++ " ".intercalate (plains items) ++ "]"
  | .table _ _ entries =>
      "map[" ++ " ".intercalate (entries.map fun (key, n) => key ++ ":" ++ toString n) ++ "]"
  | .tuple _ items => "[" ++ " ".intercalate (plains items) ++ "]"
  | .record _ fields => "\x7b" ++ " ".intercalate (plains fields) ++ "\x7d"
  | .reference _ address _ => if address.isSome then addressText else missingText
  | .function _ present => if present then addressText else missingText
  | .held value => value.plain
  | .speaking (.speaks words) _ => words
  | .speaking (.fails cause) value =>
      if value.isNowhere then missingText else "%!v(PANIC=String method: " ++ cause ++ ")"

def plains : List Value → List String
  | [] => []
  | v :: vs => v.plain :: plains vs

end

/-- What tells a value of a type from others: its address or a hash of its contents. -/
def identity : Value → String
  | .reference _ none _ => "0"
  | .reference _ (some _) _ => addressText
  | _ => "<hash>"

/-- The text of a value in a trace. -/
def describe : Value → String
  | .nothing => "nil"
  | .text s => Text.quote s
  | .speaking (.fails _) value => value.type ++ "@" ++ value.identity
  | value => value.plain

end Value

end ComposeStability.Tracing
