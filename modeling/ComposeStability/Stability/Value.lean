/-
# Stability.Value -- the three-valued stability of reports

A value is one of three named stabilities, or a byte that names none of them;
such bytes can be read from stored results, and are shown by their number.
`ofCode` and `code` are inverse to each other (`ofCode_code`, `code_ofCode`).
-/
import ComposeStability.Text.Quoted

namespace ComposeStability.Stability

set_option autoImplicit false

/-! ## Values -/

/-- The stability shown in reports and given to instrumented code. -/
inductive Value where
  /-- Comparing two values decides whether a call can be skipped. -/
  | stable
  /-- A value may change without equality noticing. -/
  | unstable
  /-- Only the running program can decide. -/
  | runtime
  /-- The byte `excess + 3`, which names no stability. -/
  | unnamed (excess : Fin 253)
deriving DecidableEq, Repr, Inhabited

namespace Value

/-- The byte that stands for a value. -/
def code : Value → UInt8
  | .stable => 0
  | .unstable => 1
  | .runtime => 2
  | .unnamed excess => UInt8.ofNat (excess.val + 3)

/-- The value that a byte stands for. -/
def ofCode (code : UInt8) : Value :=
  if code = 0 then .stable
  else if code = 1 then .unstable
  else if code = 2 then .runtime
  else .unnamed (Fin.ofNat 253 (code.toNat - 3))

def text : Value → String
  | .stable => "STABLE"
  | .unstable => "UNSTABLE"
  | .runtime => "RUNTIME"
  | .unnamed excess => "Value(" ++ toString (excess.val + 3) ++ ")"

/-- The position of a value in the order stable, runtime, unstable. -/
def rank : Value → Nat
  | .stable => 0
  | .runtime => 1
  | .unstable => 2
  | .unnamed _ => 3

/-- The value with a given name. -/
def ofText? : String → Option Value
  | "STABLE" => some .stable
  | "UNSTABLE" => some .unstable
  | "RUNTIME" => some .runtime
  | _ => none

/-- A name that is none of the three stabilities. -/
structure Unrecognized where
  name : String
deriving DecidableEq, Repr

def Unrecognized.message (e : Unrecognized) : String :=
  "invalid stability value: " ++ Text.quote e.name

/-- Reads a name of a stability. -/
def parse (s : String) : Except Unrecognized Value :=
  match ofText? s with
  | some v => .ok v
  | none => .error ⟨s⟩

theorem code_ofCode (c : UInt8) : (ofCode c).code = c := by
  have all : ∀ n : Fin 256, (ofCode (UInt8.ofNat n)).code = UInt8.ofNat n := by decide +kernel
  simpa using all ⟨c.toNat, c.toNat_lt⟩

theorem ofCode_code (v : Value) : ofCode v.code = v := by
  cases v with
  | stable => rfl
  | unstable => rfl
  | runtime => rfl
  | unnamed excess => revert excess; decide +kernel

end Value

/-! ## Receivers -/

/-- How a receiver reaches the function body. -/
inductive ReceiverKind where
  /-- The receiver extends a type from outside its declaration. -/
  | extension
  /-- The receiver is the instance a method is invoked on. -/
  | dispatch
  /-- The receiver is an implicit value of the surrounding scope. -/
  | context
  /-- The byte `excess + 3`, which names no kind. -/
  | unnamed (excess : Fin 253)
deriving DecidableEq, Repr, Inhabited

namespace ReceiverKind

/-- The byte that stands for a kind. -/
def code : ReceiverKind → UInt8
  | .extension => 0
  | .dispatch => 1
  | .context => 2
  | .unnamed excess => UInt8.ofNat (excess.val + 3)

/-- The kind that a byte stands for. -/
def ofCode (code : UInt8) : ReceiverKind :=
  if code = 0 then .extension
  else if code = 1 then .dispatch
  else if code = 2 then .context
  else .unnamed (Fin.ofNat 253 (code.toNat - 3))

def text : ReceiverKind → String
  | .extension => "EXTENSION"
  | .dispatch => "DISPATCH"
  | .context => "CONTEXT"
  | .unnamed excess => "ReceiverKind(" ++ toString (excess.val + 3) ++ ")"

theorem code_ofCode (c : UInt8) : (ofCode c).code = c := by
  have all : ∀ n : Fin 256, (ofCode (UInt8.ofNat n)).code = UInt8.ofNat n := by decide +kernel
  simpa using all ⟨c.toNat, c.toNat_lt⟩

theorem ofCode_code (k : ReceiverKind) : ofCode k.code = k := by
  cases k with
  | extension => rfl
  | dispatch => rfl
  | context => rfl
  | unnamed excess => revert excess; decide +kernel

end ReceiverKind

end ComposeStability.Stability
