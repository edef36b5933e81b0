/-
# Cache.Key -- what identifies the input of an analysis

The input is a list of items: texts, and files with their names.  Every text
and every content is preceded by its length, so different lists of chunks never
look alike.  The key is the hash of the resulting bytes.
-/
import ComposeStability.Cache.Sha256
import ComposeStability.Text.Bytes
import ComposeStability.FileSystem.Path

namespace ComposeStability.Cache

set_option autoImplicit false

/-- The version of stored results. -/
def schemaVersion : Nat := 1

/-- A number as bytes, the lowest first. -/
def littleEndian (width n : Nat) : List UInt8 :=
  (List.range width).map fun i => (n >>> (8 * i)).toUInt8

/-- A part of the input of an analysis. -/
inductive Item where
  | text (s : String)
  /-- A file, of which only the last step of the path counts. -/
  | file (path : String) (content : List UInt8)

/-- Bytes preceded by their number. -/
def chunk (bytes : List UInt8) : List UInt8 :=
  littleEndian 8 bytes.length ++ bytes

/-- The chunks of an item. -/
def Item.chunks : Item → List (List UInt8)
  | .text s => [Text.toBytes s]
  | .file path content => [Text.toBytes (Path.base path), content]

/-- The bytes that are hashed for a list of items. -/
def stream (items : List Item) : List UInt8 :=
  littleEndian 2 schemaVersion ++ (items.flatMap Item.chunks).flatMap chunk

/-- Identifies the input of an analysis. -/
structure Key where
  bytes : List UInt8
deriving DecidableEq, Repr

namespace Key

/-- The key of a list of items. -/
def ofItems (items : List Item) : Key := ⟨Sha256.hash (stream items)⟩

def text (k : Key) : String := Text.hexOfBytes k.bytes

end Key

end ComposeStability.Cache
