/-
# Linter.ReportLevel -- which functions are reported

A level admits all functions, the exported ones or none.  Levels are written by
name in flags and settings; a level outside the named ones admits nothing and
has no name.
-/
import ComposeStability.Text.LowerCase
import ComposeStability.Text.Quoted

namespace ComposeStability.Linter

set_option autoImplicit false

/-- Which functions that can't be skipped are reported. -/
inductive ReportLevel where
  | all
  | exported
  | off
  /-- A level without a name. -/
  | other (code : UInt8)
deriving DecidableEq, Repr

namespace ReportLevel

def ofCode (code : UInt8) : ReportLevel :=
  if code = 0 then .all else if code = 1 then .exported else if code = 2 then .off else .other code

def code : ReportLevel → UInt8
  | .all => 0
  | .exported => 1
  | .off => 2
  | .other code => code

/-- Why a level can't be read or written. -/
inductive Unknown where
  | number (n : UInt8)
  | text (s : String)

def Unknown.message : Unknown → String
  | .number n => "unknown report level " ++ toString n.toNat
  | .text s => "unknown report level " ++ Text.quote s

/-- The name of a level. -/
def name : ReportLevel → Except Unknown String
  | .all => .ok "all"
  | .exported => .ok "exported"
  | .off => .ok "off"
  | .other code => .error (.number code)

/-- The level that a text stands for, in any case. -/
def parse (s : String) : Except Unknown ReportLevel :=
  match Text.lower s with
  | "" | "true" | "on" | "all" => .ok .all
  | "exported" => .ok .exported
  | "off" | "false" => .ok .off
  | _ => .error (.text s)

/-- Whether a function is reported, given whether it is exported. -/
def includes (level : ReportLevel) (isExported : Bool) : Bool :=
  match level with
  | .all => true
  | .exported => isExported
  | .off | .other _ => false

end ReportLevel

end ComposeStability.Linter
