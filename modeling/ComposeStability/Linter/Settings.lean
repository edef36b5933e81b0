/-
# Linter.Settings -- the linter as a plugin

A host gives the settings as a value of objects, lists and texts.  Unknown names
and values of another form are refused; names are matched in any case.  The
types listed as stable have to name a package and a type, or all types of a
package.
-/
import ComposeStability.Linter.Options
import ComposeStability.Text.Fold
import ComposeStability.Text.Letter
import ComposeStability.Text.Cut

namespace ComposeStability.Linter

set_option autoImplicit false

/-- A value as the host gives it. -/
inductive Raw where
  | null
  | bool (b : Bool)
  | number
  | text (s : String)
  | list (items : List Raw)
  | object (entries : List (String × Raw))
deriving Inhabited

/-- The settings of the plugin. -/
structure Settings where
  includeTests : Option Bool := none
  strongSkipping : Option Bool := none
  stableTypes : List String := []
  /-- What an earlier, longer list of stable types has left behind the last one. -/
  spareTypes : List String := []
  report : Option ReportLevel := none

namespace Settings

/-! ## Decoding -/

/-- A truth value, or nothing. -/
def decodeBool : Raw → Option (Option Bool)
  | .null => some none
  | .bool b => some (some b)
  | _ => none

/-- A report level by name, or nothing. -/
def decodeLevel : Raw → Option (Option ReportLevel)
  | .null => some none
  | .text s => (ReportLevel.parse s).toOption.map some
  | _ => none

/-- The texts of a list; nothing in place of one leaves what stood there before. -/
def decodeTexts (old : List String) : List Raw → Option (List String)
  | [] => some []
  | .null :: rest => (decodeTexts (old.drop 1) rest).map (old.headD "" :: ·)
  | .text s :: rest => (decodeTexts (old.drop 1) rest).map (s :: ·)
  | _ :: _ => none

/-- The settings after one entry; entries with unknown names are refused. -/
def decodeEntry (s : Settings) (entry : String × Raw) : Option Settings :=
  match ["include-tests", "strong-skipping", "stable-types", "report"].find? fun name =>
      Text.sameFolded name entry.1 with
  | some "include-tests" => (decodeBool entry.2).map fun includeTests => { s with includeTests }
  | some "strong-skipping" =>
      (decodeBool entry.2).map fun strongSkipping => { s with strongSkipping }
  | some "stable-types" =>
      match entry.2 with
      | .null | .list [] => some { s with stableTypes := [], spareTypes := [] }
      | .list items =>
          let places := s.stableTypes ++ s.spareTypes
          (decodeTexts places items).map fun stableTypes =>
            { s with stableTypes, spareTypes := places.drop items.length }
      | _ => none
  | some "report" => (decodeLevel entry.2).map fun report => { s with report }
  | _ => none

/-- The settings that a value stands for.  Entries count in the order of their
names. -/
def decode : Raw → Option Settings
  | .null => some {}
  | .object entries =>
      (entries.mergeSort fun a b => decide (a.1 ≤ b.1)).foldlM decodeEntry {}
  | _ => none

/-! ## Stable types -/

/-- Why an entry of the stable types is refused. -/
inductive TypeError where
  | noPackagePath (entry : String)
  | invalidTypeName (entry name : String)

def TypeError.message : TypeError → String
  | .noPackagePath entry => "malformed stable type " ++ Text.quote entry ++ ": missing package path"
  | .invalidTypeName entry name =>
      "malformed stable type " ++ Text.quote entry ++ ": invalid type name " ++ Text.quote name

/-- Checks an entry of the stable types. -/
def checkType (entry : String) : Option TypeError :=
  match Text.cutLast ['.'] entry.toList with
  | none => some (.noPackagePath entry)
  | some (path, name) =>
      if path.isEmpty || name.contains '/' then some (.noPackagePath entry)
      else if name == ['*'] || Text.isIdentifier (String.ofList name) then none
      else some (.invalidTypeName entry (String.ofList name))

/-- What is wrong with the stable types. -/
def typeErrors (s : Settings) : List TypeError := s.stableTypes.filterMap checkType

/-- The message for refused settings. -/
def refusal (errors : List TypeError) : String :=
  "stableguard settings: " ++ "\n".intercalate (errors.map (·.message))

/-! ## Options -/

/-- The choices that settings stand for.  Generated files are left to the host,
so they are analyzed. -/
def choices (s : Settings) : List Choice :=
  (s.includeTests.map Choice.tests).toList ++ (s.strongSkipping.map Choice.strongSkipping).toList ++
    (s.report.map Choice.report).toList ++
    (if s.stableTypes.isEmpty then [] else [.stableTypes s.stableTypes]) ++ [.generated true]

end Settings

/-- The name of the linter. -/
def linterName : String := Source.Comment.linterName

/-- What the host has to load for the linter. -/
def loadMode : String := "typesinfo"

end ComposeStability.Linter
