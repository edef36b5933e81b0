/-
# FileSystem.Path -- paths as texts

Paths are divided by slashes.  `clean` gives the shortest path that leads to the
same place by going step by step: no empty steps, no `.`, and `..` only at the
start of a path that does not begin at the root.
-/
import ComposeStability.Text.Cut

namespace ComposeStability.Path

set_option autoImplicit false

def isAbsolute (path : String) : Bool := Text.startsWith "/" path

theorem isAbsolute_iff (path : String) : isAbsolute path = true ↔ path.toList.head? = some '/' := by
  rw [isAbsolute, Text.startsWith, List.isPrefixOf_iff_prefix]
  cases path.toList with
  | nil => simp
  | cons c rest => simp [eq_comm]

theorem isAbsolute_append {before : String} (filled : before ≠ "") (after : String) :
    isAbsolute (before ++ after) = isAbsolute before := by
  have some_text : before.toList ≠ [] := by simpa using filled
  obtain ⟨c, rest, shape⟩ := List.exists_cons_of_ne_nil some_text
  rw [Bool.eq_iff_iff, isAbsolute_iff, isAbsolute_iff]
  simp [shape]

/-- The steps of a path that lead somewhere. -/
def steps (path : String) : List String :=
  (Text.split '/' path).filter fun step => step != "" && step != "."

theorem split_append (before after : String) :
    Text.split '/' (before ++ "/" ++ after) = Text.split '/' before ++ Text.split '/' after := by
  have slash : (before ++ "/" ++ after).toList = before.toList ++ '/' :: after.toList := by simp
  rw [Text.split, slash, Text.splitChar_append, List.map_append]
  rfl

theorem steps_append (before after : String) :
    steps (before ++ "/" ++ after) = steps before ++ steps after := by
  rw [steps, split_append, List.filter_append]
  rfl

/-- Takes one step after those taken so far, which are kept in reverse. -/
def takeStep (rooted : Bool) (taken : List String) (step : String) : List String :=
  if step == ".." then
    match taken with
    | [] => if rooted then [] else [".."]
    | last :: earlier => if last == ".." then ".." :: taken else earlier
  else step :: taken

/-- The shortest form of a path. -/
def clean (path : String) : String :=
  let rooted := isAbsolute path
  let kept := ((steps path).foldl (takeStep rooted) []).reverse
  if rooted then "/" ++ "/".intercalate kept
  else if kept.isEmpty then "." else "/".intercalate kept

/-- Paths put after each other; empty ones at the start are left out. -/
def join (parts : List String) : String :=
  match parts.dropWhile (· == "") with
  | [] => ""
  | parts => clean ("/".intercalate parts)

/-- The part of a path up to its last slash. -/
def untilLastSlash (path : String) : String :=
  match Text.cutLastString path "/" with
  | some (before, _) => before ++ "/"
  | none => ""

/-- The directory of a path. -/
def dir (path : String) : String :=
  clean (untilLastSlash path)

/-- The last step of a path. -/
def base (path : String) : String :=
  if path.isEmpty then "."
  else
    match ((Text.split '/' path).filter (· != "")).getLast? with
    | some step => step
    | none => "/"

/-- A path as seen from the root, for a given working directory. -/
def absolute (workingDir path : String) : String :=
  if isAbsolute path then clean path else join [workingDir, path]

end ComposeStability.Path
