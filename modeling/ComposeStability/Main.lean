/-
# Main -- the command line

A command works on a file system that is a value.  The files that it may read
are collected beforehand: configurations and reports below the working
directory, configurations above it, and whatever the arguments name.  What the
command changed is written back afterwards.

Packages come from a build, which is none of the command line's business: a
program that has one calls `Command.run` itself.
-/
import ComposeStability.Command.Run

namespace ComposeStability.Main

set_option autoImplicit false

/-! ## Reading -/

/-- Adds a file, if there is one to read. -/
def addFile (fs : FileSystem) (path : String) : IO FileSystem := do
  match ← (IO.FS.readBinFile path).toBaseIO with
  | .ok content => return fs.withFile (Path.steps path) content.toList
  | .error _ => return fs

/-- Whether a command may read a file without being told its name. -/
def isRead (path : String) : Bool :=
  Path.base path == Config.fileName || Text.endsWith Report.extension path

/-- Adds a directory, if there is one, with what is below it as far down as `depth` allows. -/
def addTree (depth : Nat) (fs : FileSystem) (dir : String) : IO FileSystem := do
  let listing := do (← IO.FS.realPath dir).readDir
  match depth, ← listing.toBaseIO with
  | _, .error _ => return fs
  | 0, .ok _ => return fs.withDir (Path.steps dir)
  | depth + 1, .ok entries =>
      entries.foldlM (fun fs entry => do
        let path := dir ++ "/" ++ entry.fileName
        if isRead path then addFile fs path else addTree depth fs path)
        (fs.withDir (Path.steps dir))

/-- How far down the working directory is searched. -/
def treeDepth : Nat := 32

/-- The path that an argument names, as a value of a flag or by itself. -/
def namedPath (arg : String) : String :=
  match Text.cutString arg "=" with
  | some (_, value) => value
  | none => arg

/-- Adds the file that a path leads to, and the directory it is in. -/
def addNamed (fs : FileSystem) (path : String) : IO FileSystem := do
  let fs ← addTree 0 fs path
  addTree 0 (← addFile fs path) (Path.dir path)

/-- The files that a command with the given arguments may read. -/
def collect (dir : String) (args : List String) : IO FileSystem := do
  let start : FileSystem := { workingDir := Path.steps dir }
  let fs ← addTree treeDepth start dir
  let fs ← (Config.candidates fs dir).foldlM addFile fs
  (args.map fun arg => Path.absolute dir (namedPath arg)).foldlM addNamed fs

/-! ## Writing -/

/-- Writes what differs from the files before. -/
def writeBack (before after : FileSystem) : IO Unit := do
  for (place, node) in after.entries.reverse do
    if before.at? place ≠ some node then
      match node with
      | .dir => IO.FS.createDirAll (FileSystem.pathOf place)
      | .file content => IO.FS.writeBinFile (FileSystem.pathOf place) ⟨content.toArray⟩

/-- Runs a command line in a directory and shows what it says; whether it succeeds. -/
def runIn (dir : String) (args : List String) : IO Bool := do
  let files ← collect dir args
  let environment := ⟨← IO.getEnv "HOME", ← IO.getEnv "XDG_CACHE_HOME"⟩
  let outcome := Command.run { reader := Toml.Document.ofBytes, files, environment } args
  writeBack files outcome.files
  IO.print outcome.output
  for record in outcome.log do
    IO.eprint record.line
  match outcome.error with
  | none => return true
  | some cause =>
      IO.eprintln ("Error: " ++ cause.message)
      return false

end ComposeStability.Main

def main (args : List String) : IO UInt32 := do
  let dir ← IO.currentDir
  return if ← ComposeStability.Main.runIn dir.toString args then 0 else 1
