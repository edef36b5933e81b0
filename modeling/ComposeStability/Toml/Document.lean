/-
# Toml.Document -- what the statements mean

A document is a table.  A header or a dotted key makes the tables on the way to
it; such a table is only implied and may still be given a header of its own,
once.  A key is given a value at most once, unless it was given a list: then
anything may take the place of the list.  The keys are remembered in the order
in which they are written.
-/
import ComposeStability.Text.Bytes
import ComposeStability.Toml.Statement

namespace ComposeStability.Toml

set_option autoImplicit false

/-- What a key stands for. -/
inductive Node where
  | value (v : Value)
  | table (entries : List (String × Node))
  /-- A list of tables, each started by a header. -/
  | tables (elements : List (List (String × Node)))

abbrev Table := List (String × Node)

namespace Table

/-- Gives an entry to a key in place of the one it has. -/
def set (t : Table) (name : String) (node : Node) : Table :=
  if (List.lookup name t).isSome then t.map fun e => if e.1 == name then (name, node) else e
  else t ++ [(name, node)]

/-- The table that a key leads to.  A list of tables leads to its last one. -/
def at? : Key → Table → Option Table
  | [], t => some t
  | name :: rest, t =>
      match List.lookup name t with
      | some (.table entries) => at? rest entries
      | some (.tables elements) => elements.getLast?.bind (at? rest)
      | _ => none

/-- Gives an entry to a key of the table that another key leads to. -/
def setAt (name : String) (node : Node) : Key → Table → Table
  | [], t => t.set name node
  | first :: rest, t =>
      match List.lookup first t with
      | some (.table entries) => t.set first (.table (setAt name node rest entries))
      | some (.tables elements) =>
          t.set first (.tables (elements.dropLast ++ [setAt name node rest (elements.getLastD [])]))
      | _ => t

/-- Gives an entry to a key and makes the tables on the way to it; `none` if something else is in the
way. -/
def put (node : Node) : Key → Table → Option Table
  | [], t => some t
  | [name], t => some (t.set name node)
  | name :: rest, t =>
      match List.lookup name t with
      | none => (put node rest []).map fun entries => t.set name (.table entries)
      | some (.table old) => (put node rest old).map fun entries => t.set name (.table entries)
      | some _ => none

end Table

mutual

/-- What a value stands for by itself; `none` if a table in braces gives a key a value and then uses
it as a table. -/
def Value.node? : Value → Option Node
  | .table pairs => (tableOf [] pairs).map .table
  | .list items => if allStand items then some (.value (.list items)) else none
  | v => some (.value v)

/-- Whether all values stand for something. -/
def allStand : List Value → Bool
  | [] => true
  | v :: rest => v.node?.isSome && allStand rest

/-- A table with pairs added one after the other. -/
def tableOf (t : Table) : List (Key × Value) → Option Table
  | [] => some t
  | (key, v) :: rest => do tableOf (← t.put (← v.node?) key) rest

end

structure Document where
  root : Table := []
  /-- Tables that exist only on the way to others. -/
  implied : List Key := []
  /-- The keys that were last given a list. -/
  lists : List Key := []
  /-- The keys in the order of the document. -/
  keys : List Key := []

namespace Document

def imply (d : Document) (key : Key) : Document := { d with implied := key :: d.implied }

/-- The entry of a key, if there is one; `none` if its table is missing. -/
def entry? (d : Document) (context : Key) (name : String) : Option (Option Node) :=
  (d.root.at? context).map (List.lookup name)

def setAt (d : Document) (context : Key) (name : String) (node : Node) : Document :=
  { d with root := d.root.setAt name node context }

/-- Notes whether a key is given a list.  An empty name stands for the table it is in, if that is not
the document. -/
def note (d : Document) (full : Key) (listed : Bool) : Document :=
  let key := if full.getLast? == some "" && 1 < full.length then full.dropLast else full
  let others := d.lists.filter (· != key)
  { d with lists := if listed then key :: others else others }

/-- Gives an entry to a key of a table.  A list gives way to it.  A table that was implied is kept,
and counts as given from now on. -/
def give (d : Document) (context : Key) (name : String) (node : Node) : Option Document := do
  let full := context ++ [name]
  let given := { d with implied := d.implied.filter (· != full) }
  match ← d.entry? context name with
  | none => some (d.setAt context name node)
  | some _ =>
      if d.lists.contains full then some (given.setAt context name node)
      else if d.implied.contains full then some given
      else none

/-- Makes sure that the tables on the way to a key exist. -/
def reach (d : Document) (context : Key) : Key → Option Document
  | [] => some d
  | name :: rest => do
      let full := context ++ [name]
      match ← d.entry? context name with
      | none => reach ((d.imply full).setAt context name (.table [])) full rest
      | some (.value _) => none
      | some _ => reach d full rest

/-- Starts a table. -/
def startTable (d : Document) (key : Key) : Option Document := do
  let d ← d.reach [] key.dropLast
  d.give key.dropLast (key.getLastD "") (.table [])

/-- Starts the next table of a list. -/
def startListed (d : Document) (key : Key) : Option Document := do
  let d ← d.reach [] key.dropLast
  let name := key.getLastD ""
  match ← d.entry? key.dropLast name with
  | none => some (d.setAt key.dropLast name (.tables [[]]))
  | some (.tables elements) => some (d.setAt key.dropLast name (.tables (elements ++ [[]])))
  | some _ => none

/-- Starts the tables that the first parts of a dotted key name. -/
def startImplied (d : Document) (context : Key) : Key → Option Document
  | [] => some d
  | name :: rest => do
      let full := context ++ [name]
      let d ← (d.imply full).startTable full
      startImplied d full rest

/-- Begins a pair in the table at `context`: its key is written, its value not yet given. -/
def beginPair (d : Document) (context key : Key) : Option Document := do
  let d ← d.startImplied context key.dropLast
  some { d with keys := d.keys ++ [context ++ key] }

/-- Gives a key its value. -/
def endPair (d : Document) (full : Key) (v : Value) : Option Document := do
  let d ← d.give full.dropLast (full.getLastD "") (← v.node?)
  some (d.note full (v matches .list _))

mutual

/-- Adds the tables inside a value. -/
def addContents (d : Document) (full : Key) (listed : Bool) : Value → Option Document
  | .list items => addItems (d.note full true) full items
  | .table pairs => do
      let d := d.imply full
      let d ← if listed then d.startListed full else d.startTable full
      addPairs d full pairs
  | _ => some d

def addItems (d : Document) (full : Key) : List Value → Option Document
  | [] => some d
  | v :: rest => do
      let d ← addContents d full true v
      addItems d full rest

def addPairs (d : Document) (context : Key) : List (Key × Value) → Option Document
  | [] => some d
  | (key, v) :: rest => do
      let d ← d.beginPair context key
      let d ← addContents d (context ++ key) false v
      let d ← d.endPair (context ++ key) v
      addPairs d context rest

end

/-- Adds a statement to the table of the last header. -/
def addStatement : Document × Key → Statement → Option (Document × Key)
  | (d, _), .header listed key => do
      let d ← if listed then d.startListed key else d.startTable key
      some ({ d with keys := d.keys ++ [key], lists := d.lists.filter (· != key) }, key)
  | (d, context), .pair key v => (d.addPairs context [(key, v)]).map (·, context)

/-- The document with these statements; `none` if they contradict each other. -/
def ofStatements (statements : List Statement) : Option Document :=
  (statements.foldlM addStatement (({} : Document), [])).map (·.1)

/-- Reads a document. -/
def parse (text : String) : Option Document := (statements text).bind ofStatements

/-- Reads a document from the bytes of a file. -/
def ofBytes (bytes : List UInt8) : Option Document := parse (Text.ofBytes bytes)

end Document

/-! ## Keys as text -/

/-- The characters of a key that are written by a letter after a backslash. -/
def keyEscapes : List (Char × Char) :=
  [('"', '"'), ('\\', '\\'), ('\x08', 'b'), ('\t', 't'), ('\n', 'n'), ('\x0c', 'f'), ('\x0d', 'r')]

/-- A character of a key in quotes. -/
def keyChar (c : Char) : String :=
  match keyEscapes.lookup c with
  | some letter => String.ofList ['\\', letter]
  | none =>
      if c.toNat < 0x20 || c.toNat == 0x7f then "\\u" ++ Text.padded 16 4 c.toNat
      else String.singleton c

/-- A part of a key, in quotes if necessary. -/
def keyPartText (part : String) : String :=
  if !part.isEmpty && part.toList.all isBare then part
  else "\"" ++ String.join (part.toList.map keyChar) ++ "\""

/-- A key with dots between its parts. -/
def keyText (key : Key) : String := ".".intercalate (key.map keyPartText)

end ComposeStability.Toml
