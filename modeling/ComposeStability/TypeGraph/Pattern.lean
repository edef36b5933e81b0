/-
# TypeGraph.Pattern -- names of types known without inspection

A pattern is a qualified type name, or a package path followed by `.*`, which
stands for every type declared in that package.
-/
import ComposeStability.Text.Cut

namespace ComposeStability.TypeGraph

set_option autoImplicit false

/-- A pattern of qualified type names. -/
structure Pattern where
  text : String
deriving DecidableEq, Repr

namespace Pattern

/-- Whether a qualified type name is covered by a pattern. -/
def covers (p : Pattern) (name : String) : Bool :=
  match Text.stripEnd? ".*" p.text with
  | some package =>
      match Text.cutLastString name "." with
      | some (path, _) => path == package
      | none => false
  | none => p.text == name

end Pattern

/-! ## Well-known types -/

/-- Types that are stable without inspection. -/
def knownStable : List String :=
  ["time.Time", "time.Duration", "time.Month", "time.Weekday", "net/netip.Addr",
   "net/netip.AddrPort", "net/netip.Prefix", "unique.Handle", "reflect.Type", "image.Point",
   "image.Rectangle", "image/color.RGBA", "image/color.NRGBA", "image/color.Gray",
   "image/color.Color", "fillmore-labs.com/stableguard/recompose.Event",
   "fillmore-labs.com/stableguard/recompose.ParameterChange"]

/-- Collections that cannot change after construction. -/
def immutableCollections : List String :=
  ["github.com/benbjohnson/immutable.List", "github.com/benbjohnson/immutable.Map",
   "github.com/benbjohnson/immutable.SortedMap", "github.com/benbjohnson/immutable.Set",
   "github.com/benbjohnson/immutable.SortedSet", "iter.Seq", "iter.Seq2"]

/-- Collections that can change in place. -/
def mutableCollections : List String :=
  ["container/list.List", "container/ring.Ring", "sync.Map", "bytes.Buffer", "strings.Builder"]

/-- Whether a qualified name is stable without inspection, by itself or by one
of the given patterns.  Types without a name never are. -/
def isKnownStable (patterns : List Pattern) (name : String) : Bool :=
  !name.isEmpty && (knownStable.contains name || patterns.any (·.covers name))

end ComposeStability.TypeGraph
