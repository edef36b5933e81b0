/-
# Cache.Entry -- the stored result of a package

An entry holds the summaries of a package and the names to leave out of
reports, together with the version of the format.  Lists may be absent, which is
not the same as empty: `decode` undoes `encode`, except that an empty list of
receivers is left out and comes back absent.
-/
import ComposeStability.Cache.MessagePack
import ComposeStability.Cache.Key
import ComposeStability.Stability.Summary

namespace ComposeStability.Cache

set_option autoImplicit false

open Stability (Summary Parameter Receiver Value ReceiverKind)
open MessagePack

/-- A summary as it is stored: its lists may be absent. -/
structure Record where
  name : String
  qualifiedName : String
  visibility : String
  returnType : String
  restartable : Bool
  skippable : Bool
  readonly : Bool
  strongSkipping : Bool
  parameters : Option (List Parameter) := none
  receivers : Option (List Receiver) := none
deriving DecidableEq, Repr

/-- A list, absent if it is empty. -/
def unlessEmpty {α : Type} (xs : List α) : Option (List α) :=
  if xs.isEmpty then none else some xs

/-- The record of a summary; lists that are empty are absent. -/
def Record.ofSummary (s : Summary) : Record where
  name := s.name
  qualifiedName := s.qualifiedName
  visibility := s.visibility
  returnType := s.returnType
  restartable := s.restartable
  skippable := s.skippable
  readonly := s.readonly
  strongSkipping := s.strongSkipping
  parameters := unlessEmpty s.parameters
  receivers := unlessEmpty s.receivers

/-- The summary a record stands for. -/
def Record.summary (r : Record) : Summary where
  name := r.name
  qualifiedName := r.qualifiedName
  visibility := r.visibility
  returnType := r.returnType
  restartable := r.restartable
  skippable := r.skippable
  readonly := r.readonly
  strongSkipping := r.strongSkipping
  parameters := r.parameters.getD []
  receivers := r.receivers.getD []

/-- The stored result of a package. -/
structure Entry where
  schema : Nat := schemaVersion
  path : String
  functions : Option (List Record)
  /-- The functions to leave out of reports; absent when none were collected. -/
  ignored : Option (List String) := none
deriving DecidableEq, Repr

/-! ## Writing -/

/-- A field that is left out when its text is empty. -/
def optionalText (name s : String) : List (String × List UInt8) :=
  if s.isEmpty then [] else [(name, writeText s)]

def encodeParameter (p : Parameter) : List UInt8 :=
  writeFields ([("name", writeText p.name), ("type", writeText p.type),
    ("stability", writeByte p.stability.code)] ++ optionalText "reason" p.reason)

def encodeReceiver (r : Receiver) : List UInt8 :=
  writeFields ([("type", writeText r.type), ("stability", writeByte r.stability.code)] ++
    optionalText "reason" r.reason ++ [("kind", writeByte r.kind.code)])

def encodeRecord (r : Record) : List UInt8 :=
  writeFields ([("name", writeText r.name), ("qualified_name", writeText r.qualifiedName),
    ("visibility", writeText r.visibility), ("return_type", writeText r.returnType),
    ("restartable", writeBool r.restartable), ("skippable", writeBool r.skippable),
    ("readonly", writeBool r.readonly),
    ("parameters", writeOptional encodeParameter r.parameters),
    ("strong_skipping", writeBool r.strongSkipping)] ++
    if (r.receivers.getD []).isEmpty then []
    else [("receivers", writeOptional encodeReceiver r.receivers)])

/-- The bytes of an entry. -/
def Entry.encode (e : Entry) : List UInt8 :=
  writeFields [("Schema", writeWord e.schema), ("PkgPath", writeText e.path),
    ("Functions", writeOptional encodeRecord e.functions),
    ("Ignored", writeOptional writeText e.ignored)]

/-! ## Reading -/

/-- A field that is read by itself and then put into its structure. -/
def field {σ α : Type} (read : σ → Reader α) (set : σ → α → σ) : σ → Reader σ :=
  fun s bytes => (read s bytes).map fun (x, rest) => (set s x, rest)

def readCode : Reader UInt8 := fun bytes =>
  (readNumber bytes).map fun (n, rest) => (n.toUInt8, rest)

def blankParameter : Parameter := ⟨"", "", .stable, ""⟩

def parameterFields : FieldReaders Parameter :=
  [("name", field (fun _ => readText) fun p name => { p with name }),
   ("type", field (fun _ => readText) fun p type => { p with type }),
   ("stability", field (fun _ => readCode) fun p code => { p with stability := .ofCode code }),
   ("reason", field (fun _ => readText) fun p reason => { p with reason })]

def decodeParameter : Parameter → Reader Parameter :=
  readStructure parameterFields blankParameter

def blankReceiver : Receiver := ⟨"", .stable, "", .extension⟩

def receiverFields : FieldReaders Receiver :=
  [("type", field (fun _ => readText) fun r type => { r with type }),
   ("stability", field (fun _ => readCode) fun r code => { r with stability := .ofCode code }),
   ("reason", field (fun _ => readText) fun r reason => { r with reason }),
   ("kind", field (fun _ => readCode) fun r code => { r with kind := .ofCode code })]

def decodeReceiver : Receiver → Reader Receiver :=
  readStructure receiverFields blankReceiver

/-- A record that is being read. -/
structure RecordDraft where
  name : String := ""
  qualifiedName : String := ""
  visibility : String := ""
  returnType : String := ""
  restartable : Bool := false
  skippable : Bool := false
  readonly : Bool := false
  parameters : Slots Parameter := {}
  strongSkipping : Bool := false
  receivers : Slots Receiver := {}

/-- The record that has been read. -/
def RecordDraft.record (d : RecordDraft) : Record where
  name := d.name
  qualifiedName := d.qualifiedName
  visibility := d.visibility
  returnType := d.returnType
  restartable := d.restartable
  skippable := d.skippable
  readonly := d.readonly
  strongSkipping := d.strongSkipping
  parameters := d.parameters.items
  receivers := d.receivers.items

def recordFields : FieldReaders RecordDraft :=
  [("name", field (fun _ => readText) fun r name => { r with name }),
   ("qualified_name", field (fun _ => readText) fun r qualifiedName => { r with qualifiedName }),
   ("visibility", field (fun _ => readText) fun r visibility => { r with visibility }),
   ("return_type", field (fun _ => readText) fun r returnType => { r with returnType }),
   ("restartable", field (fun _ => readBool) fun r restartable => { r with restartable }),
   ("skippable", field (fun _ => readBool) fun r skippable => { r with skippable }),
   ("readonly", field (fun _ => readBool) fun r readonly => { r with readonly }),
   ("parameters", field (fun r => readSlots decodeParameter blankParameter r.parameters)
      fun r parameters => { r with parameters }),
   ("strong_skipping", field (fun _ => readBool) fun r strongSkipping => { r with strongSkipping }),
   ("receivers", field (fun r => readSlots decodeReceiver blankReceiver r.receivers)
      fun r receivers => { r with receivers })]

def decodeRecord : RecordDraft → Reader RecordDraft :=
  readStructure recordFields {}

/-- Reads a list of names; an absent one leaves the names as they were. -/
def readNames (old : Option (List String)) : Reader (Option (List String)) := fun bytes => do
  match ← readListHeader bytes with
  | (none, rest) => return (old, rest)
  | (some n, rest) =>
      (readElements (fun _ => readText) "" n [] rest).map fun (names, rest) => (some names, rest)

/-- An entry that is being read. -/
structure EntryDraft where
  schema : Nat := 0
  path : String := ""
  functions : Slots RecordDraft := {}
  ignored : Option (List String) := none

/-- The entry that has been read. -/
def EntryDraft.entry (d : EntryDraft) : Entry :=
  ⟨d.schema, d.path, d.functions.items.map (·.map (·.record)), d.ignored⟩

def entryFields : FieldReaders EntryDraft :=
  [("Schema", field (fun _ => readNumber) fun e n => { e with schema := n % 65536 }),
   ("PkgPath", field (fun _ => readText) fun e path => { e with path }),
   ("Functions", field (fun e => readSlots decodeRecord {} e.functions)
      fun e functions => { e with functions }),
   ("Ignored", field (fun e => readNames e.ignored) fun e ignored => { e with ignored })]

/-- The entry that bytes start with. -/
def Entry.decode (bytes : List UInt8) : Option Entry :=
  (readStructure entryFields {} {} bytes).map (·.1.entry)

end ComposeStability.Cache
