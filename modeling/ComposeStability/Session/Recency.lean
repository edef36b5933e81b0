/-
# Session.Recency -- a bounded store that forgets what was not used for longest

A session keeps what it remembers in stores that may forget (`Store`).  The one
it is given by default is bounded (`Recency`): entries stand in the order of
their last use, the latest first.  A look-up that succeeds is a use, and so is
adding; when the store is full, adding drops the last entry.
-/

namespace ComposeStability.Session

set_option autoImplicit false

/-- A store of values by key, which may forget them.  Looking up may change it, as its order of
eviction may depend on use. -/
class Store (σ : Type) (κ ν : outParam Type) where
  get : σ → κ → Option ν × σ
  add : σ → κ → ν → σ

/-- At most `capacity` entries, the latest used first. -/
structure Recency (κ ν : Type) where
  capacity : Nat
  entries : List (κ × ν)

namespace Recency

variable {κ ν : Type} [BEq κ]

def empty (capacity : Nat) : Recency κ ν := ⟨capacity, []⟩

/-- The value of a key, and the store after this use of it. -/
def get (r : Recency κ ν) (key : κ) : Option ν × Recency κ ν :=
  match r.entries.find? fun e => e.1 == key with
  | none => (none, r)
  | some (_, value) =>
      (some value, { r with entries := (key, value) :: r.entries.filter fun e => !(e.1 == key) })

/-- The store with a value for a key. -/
def add (r : Recency κ ν) (key : κ) (value : ν) : Recency κ ν :=
  { r with
    entries := ((key, value) :: r.entries.filter fun e => !(e.1 == key)).take r.capacity }

instance : Store (Recency κ ν) κ ν := ⟨get, add⟩

end Recency

end ComposeStability.Session
