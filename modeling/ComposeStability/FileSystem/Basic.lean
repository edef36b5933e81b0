/-
# FileSystem.Basic -- files and directories

A file system maps places, which are lists of names below the root, to files
and directories.  A path is followed step by step from the root or the working
directory; every step but the last has to arrive at a directory.  Operations
return the changed file system, or an error that leaves it as it was; those of
several steps tell how far they came (`Stopped`, `overwrite`).
-/
import ComposeStability.FileSystem.Path
import ComposeStability.Text.Bytes
import ComposeStability.Text.Number

namespace ComposeStability

set_option autoImplicit false

namespace FileSystem

/-- A place: the names on the way to it from the root. -/
abbrev Place := List String

inductive Node where
  | dir
  | file (content : List UInt8)
deriving DecidableEq, Repr

/-! ## Causes -/

/-- Why the system refuses an operation. -/
inductive Refusal where
  | noSuchFile
  | notDirectory
  | isDirectory
  | fileExists
  | nameTooLong
  | invalidArgument
  | permissionDenied
  | noSpace
  | inputOutput
deriving DecidableEq, Repr

def Refusal.message : Refusal → String
  | .noSuchFile => "no such file or directory"
  | .notDirectory => "not a directory"
  | .isDirectory => "is a directory"
  | .fileExists => "file exists"
  | .nameTooLong => "file name too long"
  | .invalidArgument => "invalid argument"
  | .permissionDenied => "permission denied"
  | .noSpace => "no space left on device"
  | .inputOutput => "input/output error"

/-- An operation that failed, with the path it was given. -/
structure Failure where
  operation : String
  path : String
  refusal : Refusal
deriving DecidableEq, Repr

def Failure.message (f : Failure) : String :=
  f.operation ++ " " ++ f.path ++ ": " ++ f.refusal.message

/-- Where the system refuses what the files that there are would allow. -/
structure Refusals where
  /-- By the path of the directory. -/
  makeDir : String → Option Refusal := fun _ => none
  /-- Telling which directory is the working directory. -/
  workingDir : Option Refusal := none
  /-- Telling what is at a path. -/
  stat : String → Option Refusal := fun _ => none
  create : Option Refusal := none
  /-- With the number of bytes that are written before. -/
  write : Option (Nat × Refusal) := none
  close : Option Refusal := none
  rename : Option Refusal := none
  /-- By the place, when directories are removed with what is in them. -/
  remove : Place → Option Refusal := fun _ => none

end FileSystem

open FileSystem in
/-- Files and directories, and the directory that relative paths start from. -/
structure FileSystem where
  entries : List (Place × Node) := []
  workingDir : Place := []

namespace FileSystem

/-- Why an operation of several steps failed, and the files as it leaves them. -/
structure Stopped (ε : Type) where
  cause : ε
  files : FileSystem

/-! ## Places -/

/-- What is at a place.  The root is always a directory. -/
def at? (fs : FileSystem) (place : Place) : Option Node :=
  if place.isEmpty then some .dir
  else (fs.entries.find? fun e => e.1 == place).map (·.2)

/-- Puts a node at a place. -/
def put (fs : FileSystem) (place : Place) (node : Node) : FileSystem :=
  { fs with entries := (place, node) :: fs.entries.filter fun e => e.1 != place }

/-- Removes a place and everything below it. -/
def erase (fs : FileSystem) (place : Place) : FileSystem :=
  { fs with entries := fs.entries.filter fun e => !place.isPrefixOf e.1 }

/-- The path to a place. -/
def pathOf (place : Place) : String := "/" ++ "/".intercalate place

/-- The working directory as a path. -/
def workingPath (fs : FileSystem) : String := pathOf fs.workingDir

/-- The greatest length of a name, in bytes. -/
def nameLimit : Nat := 255

/-- The length that a path has to stay below, in bytes. -/
def pathLimit : Nat := 4096

/-- Takes one step of a path. -/
def step (fs : FileSystem) (place : Place) (name : String) : Except Refusal Place :=
  match fs.at? place with
  | none => .error .noSuchFile
  | some (.file _) => .error .notDirectory
  | some .dir =>
      if name == "." then .ok place
      else if name == ".." then .ok place.dropLast
      else if nameLimit < name.utf8ByteSize then .error .nameTooLong
      else .ok (place ++ [name])

/-- The steps of a path.  A slash at the end is a step to the same place, which
has to be a directory. -/
def pathSteps (path : String) : List String :=
  let names := Text.split '/' path
  names.filter (· != "") ++ (if names.getLast? == some "" then ["."] else [])

/-- What is wrong with a path wherever it leads. -/
def pathFault? (path : String) : Option Refusal :=
  if path.isEmpty then some .noSuchFile
  else if path.toList.contains '\x00' then some .invalidArgument
  else if pathLimit ≤ path.utf8ByteSize then some .nameTooLong
  else none

/-- Follows the first steps of a path, as many as are given. -/
def follow (fs : FileSystem) (path : String) (steps : List String) : Except Refusal Place :=
  match pathFault? path with
  | some refusal => .error refusal
  | none => steps.foldlM fs.step (if Path.isAbsolute path then [] else fs.workingDir)

/-- The place a path leads to, which need not exist. -/
def locate (fs : FileSystem) (path : String) : Except Refusal Place :=
  fs.follow path (pathSteps path)

/-! ## Operations -/

/-- What is at the end of a path. -/
def lookup (fs : FileSystem) (path : String) : Except Refusal Node := do
  match fs.at? (← fs.locate path) with
  | some node => .ok node
  | none => .error .noSuchFile

/-- What is at the end of a path, unless the system refuses to tell. -/
def stat (fs : FileSystem) (path : String) (refusals : Refusals := {}) : Except Failure Node :=
  match refusals.stat path with
  | some refusal => .error ⟨"stat", path, refusal⟩
  | none => (fs.lookup path).mapError (⟨"stat", path, ·⟩)

/-- The content of a file. -/
def read (fs : FileSystem) (path : String) : Except Failure (List UInt8) :=
  match fs.lookup path with
  | .error refusal => .error ⟨"open", path, refusal⟩
  | .ok .dir => .error ⟨"read", path, .isDirectory⟩
  | .ok (.file content) => .ok content

/-- The content of a file as text. -/
def readText (fs : FileSystem) (path : String) : Except Failure String :=
  (fs.read path).map Text.ofBytes

/-- Writes a file, which may exist already; its directory has to exist.  A path that ends in a slash
names a directory, whatever is there. -/
def write (fs : FileSystem) (path : String) (content : List UInt8) : Except Failure FileSystem :=
  let placed : Except Refusal FileSystem := do
    if Text.endsWith "/" path then
      let _ ← fs.follow path ((pathSteps path).dropLast.dropLast ++ ["."])
      throw .isDirectory
    let place ← fs.locate path
    match fs.at? place.dropLast with
    | none => throw .noSuchFile
    | some (.file _) => throw .notDirectory
    | some .dir =>
        match fs.at? place with
        | some .dir => throw .isDirectory
        | _ => return fs.put place (.file content)
  placed.mapError (⟨"open", path, ·⟩)

/-- The bytes that are written before the system refuses more. -/
def Refusals.accepted (r : Refusals) (content : List UInt8) : List UInt8 :=
  match r.write with
  | some (written, _) => content.take written
  | none => content

/-- Why a file that is open is not written, or not for certain. -/
def Refusals.fault? (r : Refusals) (path : String) (content : List UInt8) : Option Failure :=
  let cut := r.write.bind fun (written, refusal) =>
    if written < content.length then some ⟨"write", path, refusal⟩ else none
  cut.or (r.close.map (⟨"close", path, ·⟩))

/-- Writes a file in place, and tells why if that fails.  Opening the file empties it, so it holds
the bytes that were written until then. -/
def overwrite (fs : FileSystem) (path : String) (content : List UInt8) (refusals : Refusals := {}) :
    Option Failure × FileSystem :=
  match fs.write path (refusals.accepted content), refusals.create with
  | .error cause, _ => (some cause, fs)
  | .ok _, some refusal => (some ⟨"open", path, refusal⟩, fs)
  | .ok written, none => (refusals.fault? path content, written)

/-- Makes one directory. -/
def makeDir (fs : FileSystem) (path : String) (refusals : Refusals := {}) :
    Except Failure FileSystem :=
  let made : Except Refusal FileSystem := do
    let steps := pathSteps path
    let place ← fs.follow path (if Text.endsWith "/" path then steps.dropLast else steps)
    match fs.at? place, refusals.makeDir path with
    | some _, _ => throw .fileExists
    | none, some refusal => throw refusal
    | none, none => return fs.put place .dir
  made.mapError (⟨"mkdir", path, ·⟩)

/-- Makes one directory, unless it is there when that fails. -/
def ensureDir (fs : FileSystem) (path : String) (refusals : Refusals := {}) :
    Except (Stopped Failure) FileSystem :=
  match fs.makeDir path refusals with
  | .ok fs => .ok fs
  | .error failure =>
      match fs.lookup path with
      | .ok .dir => .ok fs
      | _ => .error ⟨failure, fs⟩

/-- Makes a directory and those above it, each at most once per name in the path. -/
def makeDirsFrom (fs : FileSystem) (fuel : Nat) (path : String) (refusals : Refusals := {}) :
    Except (Stopped Failure) FileSystem :=
  match fs.lookup path with
  | .ok .dir => .ok fs
  | .ok (.file _) => .error ⟨⟨"mkdir", path, .notDirectory⟩, fs⟩
  | .error _ => do
      let trimmed := String.ofList ((path.toList.reverse.dropWhile (· == '/')).reverse)
      let parent := Path.untilLastSlash trimmed
      let fs ← match fuel with
        | 0 => pure fs
        | fuel + 1 => if parent.isEmpty then pure fs else makeDirsFrom fs fuel parent refusals
      fs.ensureDir path refusals

/-- Makes a directory and those above it that are missing. -/
def makeDirs (fs : FileSystem) (path : String) (refusals : Refusals := {}) :
    Except (Stopped Failure) FileSystem :=
  makeDirsFrom fs path.length path refusals

/-- Moves a file to a path at which there is no directory. -/
def rename (fs : FileSystem) (source target : Place) : Except Refusal FileSystem :=
  match fs.at? target, fs.at? source with
  | some .dir, _ => .error .fileExists
  | _, some node => .ok ((fs.erase source).put target node)
  | _, none => .error .noSuchFile

/-- The names in a directory, sorted. -/
def names (fs : FileSystem) (place : Place) : List String :=
  let below := fs.entries.filterMap fun e =>
    if e.1.dropLast == place && !e.1.isEmpty then e.1.getLast? else none
  (below.mergeSort fun a b => decide (a ≤ b)).eraseReps

/-- A file system with some of its places only. -/
def keep (fs : FileSystem) (stays : Place → Bool) : FileSystem :=
  { fs with entries := fs.entries.filter fun e => stays e.1 }

/-- The places at and below one that the system refuses to remove, the deepest first. -/
def refusedBelow (fs : FileSystem) (place : Place) (refusals : Refusals) :
    List (Place × Refusal) :=
  let refused := fs.entries.filterMap fun e =>
    if place.isPrefixOf e.1 then (refusals.remove e.1).map (e.1, ·) else none
  refused.mergeSort fun a b => decide (b.1.length ≤ a.1.length)

/-- Removes a place and everything below it.  What the system refuses to remove stays there, and so
do the directories that it is in. -/
def removeAll (fs : FileSystem) (path : String) (place : Place) (refusals : Refusals := {}) :
    Except Failure Unit × FileSystem :=
  let refused := fs.refusedBelow place refusals
  let left := fs.keep fun p => !place.isPrefixOf p || refused.any fun r => p.isPrefixOf r.1
  match refused.head? with
  | none => (.ok (), left)
  | some (first, refusal) =>
      (.error ⟨"unlinkat", Path.join (path :: first.drop place.length), refusal⟩, left)

/-- Removes names in a directory one after the other, until one cannot be removed. -/
def removeNames (dir : String) (place : Place) (refusals : Refusals) :
    FileSystem → List String → Except Failure Unit × FileSystem
  | fs, [] => (.ok (), fs)
  | fs, name :: names =>
      match fs.removeAll (Path.join [dir, name]) (place ++ [name]) refusals with
      | (.error cause, fs) => (.error cause, fs)
      | (.ok (), fs) => removeNames dir place refusals fs names

/-- Whether a walk through sorted directories comes to a place no later than to another. -/
def Place.notAfter : Place → Place → Bool
  | [], _ => true
  | _ :: _, [] => false
  | a :: as, b :: bs => if a = b then Place.notAfter as bs else decide (a < b)

/-- The places of all files below a directory, in the order of a walk through
sorted directories. -/
def filesBelow (fs : FileSystem) (place : Place) : List Place :=
  let files := fs.entries.filterMap fun e =>
    match e.2 with
    | .file _ => if place.isPrefixOf e.1 then some e.1 else none
    | .dir => none
  files.mergeSort Place.notAfter

/-- The paths of all files below a directory. -/
def pathsBelow (fs : FileSystem) (dir : String) : List String :=
  (fs.filesBelow (Path.steps dir)).map pathOf

/-! ## Replacing a file as a whole -/

/-- A name in a directory that no entry has, `start` followed by a number. -/
def freshName (fs : FileSystem) (dir : Place) (start : String) : String :=
  let taken := fs.names dir
  let candidates := (List.range (taken.length + 1)).map fun n => start ++ toString n
  (candidates.find? fun name => !taken.contains name).getD start

/-- A file that was created to take the place of another. -/
structure Temporary where
  place : Place
  path : String

/-- Creates an empty file in a directory. -/
def createTemporary (fs : FileSystem) (dir start : String) (refusals : Refusals) :
    Except Failure (Temporary × FileSystem) := do
  let dirPlace ← (fs.locate dir).mapError (⟨"open", dir, ·⟩)
  match fs.at? dirPlace with
  | none => throw ⟨"open", dir, .noSuchFile⟩
  | some (.file _) => throw ⟨"open", dir, .notDirectory⟩
  | some .dir =>
      let name := fs.freshName dirPlace start
      let temporary : Temporary := ⟨dirPlace ++ [name], Path.join [dir, name]⟩
      match refusals.create with
      | some refusal => throw ⟨"open", temporary.path, refusal⟩
      | none => return (temporary, fs.put temporary.place (.file []))

/-- Writes to a file that was created, all bytes or those before the system refuses more. -/
def fill (fs : FileSystem) (t : Temporary) (content : List UInt8) (refusals : Refusals) :
    Except Failure Unit × FileSystem :=
  match refusals.write with
  | some (written, refusal) =>
      if written < content.length then
        (.error ⟨"write", t.path, refusal⟩, fs.put t.place (.file (content.take written)))
      else (.ok (), fs.put t.place (.file content))
  | none => (.ok (), fs.put t.place (.file content))

/-- Closing a file that was written, which may tell that it was not written after all. -/
def close (t : Temporary) (refusals : Refusals) : Except Failure Unit :=
  match refusals.close with
  | some refusal => .error ⟨"close", t.path, refusal⟩
  | none => .ok ()

/-- Moves a file that was written to its path. -/
def moveTemporary (fs : FileSystem) (t : Temporary) (path : String) (refusals : Refusals) :
    Except Failure FileSystem :=
  let moved : Except Refusal FileSystem := do
    let target ← fs.locate path
    match refusals.rename with
    | some refusal => throw refusal
    | none => fs.rename t.place target
  moved.mapError (⟨"rename", t.path ++ " " ++ path, ·⟩)

/-- Why a file could not be replaced. -/
inductive ReplaceFault where
  | create (cause : Failure)
  /-- The file that was created could not be written, and perhaps not closed either. -/
  | write (cause : Failure) (closing : Except Failure Unit)
  | close (cause : Failure)
  | rename (cause : Failure)

/-- Writes and closes a file that was created, and moves it to its path. -/
def finishTemporary (fs : FileSystem) (t : Temporary) (path : String) (content : List UInt8)
    (refusals : Refusals) : Except ReplaceFault Unit × FileSystem :=
  match fs.fill t content refusals with
  | (.error cause, fs) => (.error (.write cause (close t refusals)), fs)
  | (.ok (), fs) =>
      match close t refusals with
      | .error cause => (.error (.close cause), fs)
      | .ok () =>
          match fs.moveTemporary t path refusals with
          | .error cause => (.error (.rename cause), fs)
          | .ok fs => (.ok (), fs)

/-- Writes a file beside its target and moves it there.  If that fails, the file that was created is
removed again, which the system is not taken to refuse. -/
def replaceFile (fs : FileSystem) (path start : String) (content : List UInt8)
    (refusals : Refusals := {}) : Except (Stopped ReplaceFault) FileSystem := do
  let (temporary, fs) ← (fs.createTemporary (Path.dir path) start refusals).mapError
    fun cause => ⟨.create cause, fs⟩
  match fs.finishTemporary temporary path content refusals with
  | (.error fault, fs) => throw ⟨fault, fs.erase temporary.place⟩
  | (.ok (), fs) => return fs

/-- A file system with directories made for a file, and the file in it. -/
def withFile (fs : FileSystem) (place : Place) (content : List UInt8) : FileSystem :=
  let parents := (List.range place.length).map fun n => place.take n
  let made := parents.foldl (fun fs parent =>
    if (fs.at? parent).isSome then fs else fs.put parent .dir) fs
  made.put place (.file content)

/-- A file system with directories made for a file, and a text in it. -/
def withText (fs : FileSystem) (path content : String) : FileSystem :=
  fs.withFile (Path.steps path) (Text.toBytes content)

/-- A file system with a directory and those above it. -/
def withDir (fs : FileSystem) (place : Place) : FileSystem :=
  let all := (List.range (place.length + 1)).map fun n => place.take n
  all.foldl (fun fs dir => if (fs.at? dir).isSome then fs else fs.put dir .dir) fs

end FileSystem

end ComposeStability
