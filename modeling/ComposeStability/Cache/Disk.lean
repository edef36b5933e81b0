/-
# Cache.Disk -- stored results in a directory

Each entry is a file named by its key, in a directory named by the first two
digits of it.  Entries are written beside their place and then moved there, so
that a reader sees the old entry or the new one.  Entries of another version
count as missing.
-/
import ComposeStability.Cache.Entry
import ComposeStability.FileSystem.Basic

namespace ComposeStability.Cache

set_option autoImplicit false

/-! ## Opening -/

/-- The variables that tell where the user's files are. -/
structure Environment where
  home : Option String := none
  cacheHome : Option String := none

/-- Why there is no cache. -/
inductive OpenError where
  | noCacheHome
  | relativeCacheHome
  | directory (stopped : FileSystem.Stopped FileSystem.Failure)

def OpenError.message : OpenError → String
  | .noCacheHome => "no cache directory: neither $XDG_CACHE_HOME nor $HOME are defined"
  | .relativeCacheHome => "no cache directory: path in $XDG_CACHE_HOME is relative"
  | .directory stopped => "creating cache directory: " ++ stopped.cause.message

/-- The files as opening leaves them when it fails. -/
def OpenError.files (e : OpenError) (before : FileSystem) : FileSystem :=
  match e with
  | .directory stopped => stopped.files
  | _ => before

/-- The directory for the cached files of the user. -/
def Environment.cacheDir (env : Environment) : Except OpenError String :=
  match env.cacheHome with
  | some dir => if Path.isAbsolute dir then .ok dir else .error .relativeCacheHome
  | none =>
      match env.home with
      | some home => .ok (home ++ "/.cache")
      | none => .error .noCacheHome

/-- A directory of stored results. -/
structure Disk where
  dir : String

/-- Opens a directory of stored results, by default one among the user's files. -/
def Disk.open (env : Environment) (fs : FileSystem) (dir : String) :
    Except OpenError (Disk × FileSystem) := do
  let dir ← if dir.isEmpty then (env.cacheDir.map fun base => Path.join [base, "stableguard"])
    else pure dir
  let fs ← (fs.makeDirs dir).mapError .directory
  return (⟨dir⟩, fs)

/-! ## Entries -/

/-- What can go wrong with stored results. -/
inductive DiskError where
  | put (cause : FileSystem.Failure)
  | encode (cause : FileSystem.Failure)
  | get (cause : FileSystem.Failure)
  | decode
  | clear (cause : FileSystem.Failure)

def DiskError.message : DiskError → String
  | .put cause => "cache put: " ++ cause.message
  | .encode cause => "cache encode: " ++ cause.message
  | .get cause => "cache get: " ++ cause.message
  | .decode => "cache decode: malformed entry"
  | .clear cause => "cache clear: " ++ cause.message

namespace Disk

/-- The path of the entry of a key. -/
def entryPath (d : Disk) (key : Key) : String :=
  let name := key.text
  Path.join [d.dir, String.ofList (name.toList.take 2), name ++ ".mp"]

/-- How storing an entry fails when its file is not replaced. -/
def putError : FileSystem.ReplaceFault → DiskError
  | .write cause _ => .encode cause
  | .create cause | .close cause | .rename cause => .put cause

/-- Stores an entry, at the current version. -/
def put (d : Disk) (fs : FileSystem) (key : Key) (e : Entry)
    (refusals : FileSystem.Refusals := {}) : Except DiskError Unit × FileSystem :=
  let path := d.entryPath key
  match fs.makeDirs (Path.dir path) refusals with
  | .error stopped => (.error (.put stopped.cause), stopped.files)
  | .ok fs =>
      match fs.replaceFile path "tmp-" { e with schema := schemaVersion }.encode refusals with
      | .error stopped => (.error (putError stopped.cause), stopped.files)
      | .ok fs => (.ok (), fs)

/-- The entry of a key, if there is one of the current version. -/
def get (d : Disk) (fs : FileSystem) (key : Key) : Except DiskError (Option Entry) :=
  match fs.read (d.entryPath key) with
  | .error cause =>
      if cause.refusal = .noSuchFile then .ok none
      else if cause.operation == "read" then .error .decode
      else .error (.get cause)
  | .ok bytes =>
      match Entry.decode bytes with
      | none => .error .decode
      | some e => if e.schema = schemaVersion then .ok (some e) else .ok none

/-- Removes all entries, and whatever else is in the directory, in the order of the names there.
When something cannot be removed, what comes after it is not tried. -/
def clear (d : Disk) (fs : FileSystem) (refusals : FileSystem.Refusals := {}) :
    Except DiskError Unit × FileSystem :=
  match fs.lookup d.dir with
  | .error refusal => (.error (.clear ⟨"open", d.dir, refusal⟩), fs)
  | .ok (.file _) => (.error (.clear ⟨"open", d.dir, .notDirectory⟩), fs)
  | .ok .dir =>
      match fs.locate d.dir with
      | .error refusal => (.error (.clear ⟨"open", d.dir, refusal⟩), fs)
      | .ok place =>
          let (removed, fs) := FileSystem.removeNames d.dir place refusals fs (fs.names place)
          (removed.mapError .clear, fs)

end Disk

/-! ## Optional directories -/

/-- Stored results, if they are kept at all.  Without a directory nothing is stored or found. -/
abbrev Store := Option Disk

namespace Store

/-- Stores an entry.  The result is the version it was stored at, zero if it was not stored. -/
def put (s : Store) (fs : FileSystem) (key : Key) (e : Entry) : Except DiskError Nat × FileSystem :=
  match s with
  | none => (.ok 0, fs)
  | some d =>
      let (stored, fs) := d.put fs key e
      (stored.map fun _ => schemaVersion, fs)

/-- The entry of a key, if there is one of the current version. -/
def get (s : Store) (fs : FileSystem) (key : Key) : Except DiskError (Option Entry) :=
  match s with
  | none => .ok none
  | some d => d.get fs key

/-- Removes all entries. -/
def clear (s : Store) (fs : FileSystem) : Except DiskError Unit × FileSystem :=
  match s with
  | none => (.ok (), fs)
  | some d => d.clear fs

end Store

end ComposeStability.Cache
