/-
# Flags -- sets of switches kept in the bits of a word

A set of flags of `width` bits.  A flag is itself a word, usually with one bit
set; a word of several bits counts as enabled when one of them is.
-/

namespace ComposeStability

set_option autoImplicit false

/-- A set of switches, one a bit. -/
structure Flags (width : Nat) where
  bits : BitVec width
deriving DecidableEq, Repr

namespace Flags

variable {width : Nat}

instance : Inhabited (Flags width) := ⟨⟨0⟩⟩

/-- No switch is on. -/
def empty : Flags width := ⟨0⟩

def enable (flags : Flags width) (flag : BitVec width) : Flags width :=
  ⟨flags.bits ||| flag⟩

def disable (flags : Flags width) (flag : BitVec width) : Flags width :=
  ⟨flags.bits &&& ~~~flag⟩

/-- Turns a switch on or off. -/
def set (flags : Flags width) (flag : BitVec width) (on : Bool) : Flags width :=
  if on then flags.enable flag else flags.disable flag

/-- Whether one of the bits of `flag` is on. -/
def enabled (flags : Flags width) (flag : BitVec width) : Bool :=
  flags.bits &&& flag != 0

/-- Whether one of several flags is on. -/
def any (flags : Flags width) (candidates : List (BitVec width)) : Bool :=
  candidates.any flags.enabled

/-- The set with the given flags on. -/
def ofList (flags : List (BitVec width)) : Flags width :=
  flags.foldl enable empty

end Flags

end ComposeStability
