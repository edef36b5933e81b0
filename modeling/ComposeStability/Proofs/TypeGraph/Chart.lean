/-
# Proofs.TypeGraph.Chart -- finite parts of a type graph

A chart of a type graph is a finite list of types that no edge leaves, all of
whose questions have answers.  Every walk through the graph that starts in the
list stays in it, so its length bounds how deep a walk can get.  The types that
a table lists are a chart of its graph if they all answer (`Table.charted`); no
supertype leads out of them in any case (`Table.closedUpwards`).
-/
import ComposeStability.TypeGraph.Classify
import ComposeStability.TypeGraph.Table
import Mathlib.Data.List.Nodup
import Mathlib.Logic.Relation

namespace ComposeStability.TypeGraph

set_option autoImplicit false

variable {τ : Type}

/-! ## Answers -/

/-- What was answered, or `fallback` if nothing was. -/
def toldOr {α : Type} (fallback : α) : Except Failure α → α
  | .ok answer => answer
  | .error _ => fallback

section
variable (g : TypeGraph τ) (t : τ)

def kindOf : Kind := toldOr .invalid (g.kind t)
def keyOf : String := toldOr "" (g.key t)
def nameOf : String := toldOr "" (g.name t)
def textOf : String := toldOr "" (g.text t)
def elemOf : Option τ := toldOr none (g.elem t)
def markersOf : Markers := toldOr Flags.empty (g.markers t)
def membersOf : List (Member τ) := toldOr [] (g.members t)
def supertypesOf : List (Option τ) := toldOr [] (g.supertypes t)

end

/-- Types may refuse to tell their kinds and their markers, and answer every other question. -/
class Tells (g : TypeGraph τ) : Prop where
  key : ∀ t, g.key t = .ok (g.keyOf t)
  name : ∀ t, g.name t = .ok (g.nameOf t)
  text : ∀ t, g.text t = .ok (g.textOf t)
  elem : ∀ t, g.elem t = .ok (g.elemOf t)
  members : ∀ t, g.members t = .ok (g.membersOf t)
  supertypes : ∀ t, g.supertypes t = .ok (g.supertypesOf t)

/-- Where the text of the owner is told, a member is named in its verdict. -/
theorem memberVerdict_told {g : TypeGraph τ} [g.Tells] (t : τ) (member : String)
    (verdict : Stability.Verdict) :
    memberVerdict g t member verdict = .ok (inMember (g.textOf t) member verdict) := by
  unfold memberVerdict
  split
  · rw [Tells.text]
    rfl
  · next other =>
      unfold inMember
      split
      · next reason => exact absurd rfl (other reason)
      · rfl

theorem walkMembers_told {g : TypeGraph τ} [g.Tells] (patterns : List Pattern) (fuel : Nat)
    (visiting : List String) (owner : τ) (m : Member τ) (rest : List (Member τ)) :
    walkMembers g patterns fuel visiting owner (m :: rest) = do
      let verdict ← walk g patterns fuel visiting m.type
      return inMember (g.textOf owner) m.name verdict ::
        (← walkMembers g patterns fuel visiting owner rest) := by
  rw [walkMembers]
  simp only [memberVerdict_told]
  rfl

/-- The members and supertypes of a type, where its key, its text and its members are told. -/
theorem walkParts_told {g : TypeGraph τ} [g.Tells] (patterns : List Pattern) (fuel : Nat)
    (visiting : List String) (t : τ) (supertypes : List (Option τ)) :
    walkParts g patterns fuel visiting t (.ok supertypes) =
      if visiting.contains (g.keyOf t) then
        .ok (.runtime (g.textOf t) "recursive type reference")
      else match (g.membersOf t).find? (·.mutable) with
        | some m => .ok (.unstable (g.textOf t ++ "." ++ m.name ++ " is mutable"))
        | none => do
            let own ← walkMembers g patterns fuel (g.keyOf t :: visiting) t (g.membersOf t)
            let inherited ← walkAll g patterns fuel (g.keyOf t :: visiting) supertypes
            return .combine ((own ++ inherited).map some) := by
  rw [walkParts]
  simp only [Tells.key, Tells.text, Tells.members]
  rfl

/-- A type that tells its key is classified by the walk from it. -/
theorem classify_told {g : TypeGraph τ} [g.Tells] (patterns : List Pattern) (t : τ) :
    classify g patterns (some t) = walk g patterns (g.depth + 1) [] (some t) := by
  rw [classify, Tells.key]
  rfl

/-! ## Charts -/

/-- `nodes` is a chart: its types tell their kinds and markers, their neighbours are
in it too, and the graph is deep enough for all of them. -/
structure Charted (g : TypeGraph τ) (nodes : List τ) : Prop where
  kind_eq : ∀ t ∈ nodes, g.kind t = .ok (g.kindOf t)
  markers_eq : ∀ t ∈ nodes, g.markers t = .ok (g.markersOf t)
  elem_mem : ∀ t ∈ nodes, ∀ u, g.elemOf t = some u → u ∈ nodes
  member_mem : ∀ t ∈ nodes, ∀ m ∈ g.membersOf t, ∀ u, m.type = some u → u ∈ nodes
  supertype_mem : ∀ t ∈ nodes, ∀ u, some u ∈ g.supertypesOf t → u ∈ nodes
  length_le : nodes.length ≤ g.depth

/-- Different types have different keys. -/
def KeysDistinct (g : TypeGraph τ) (nodes : List τ) : Prop :=
  ∀ t ∈ nodes, ∀ u ∈ nodes, g.keyOf t = g.keyOf u → t = u

theorem keysDistinct_of_nodup {g : TypeGraph τ} {nodes : List τ}
    (nodup : (nodes.map g.keyOf).Nodup) : g.KeysDistinct nodes :=
  fun _ mem _ charted same => List.inj_on_of_nodup_map nodup mem charted same

/-- What a chart says about markers and supertypes: no supertype leads out of it.  Its types need not
tell their kinds. -/
structure ClosedUpwards (g : TypeGraph τ) (nodes : List τ) : Prop where
  markers_eq : ∀ t ∈ nodes, g.markers t = .ok (g.markersOf t)
  supertype_mem : ∀ t ∈ nodes, ∀ u, some u ∈ g.supertypesOf t → u ∈ nodes
  length_le : nodes.length ≤ g.depth

theorem Charted.closedUpwards {g : TypeGraph τ} {nodes : List τ} (chart : g.Charted nodes) :
    g.ClosedUpwards nodes :=
  ⟨chart.markers_eq, chart.supertype_mem, chart.length_le⟩

/-- Different keys of charted types are no more than the graph is deep. -/
theorem ClosedUpwards.keys_length_le {g : TypeGraph τ} {nodes : List τ}
    (chart : g.ClosedUpwards nodes) {keys : List String} (nodup : keys.Nodup)
    (known : keys ⊆ nodes.map g.keyOf) : keys.length ≤ g.depth := by
  have bound := nodup.length_le_of_subset known
  rw [List.length_map] at bound
  exact Nat.le_trans bound chart.length_le

/-! ## Tables -/

namespace Table

/-- The types that a table lists; of several with one identifier the first. -/
def nodes (table : Table) : List Node :=
  table.entries.filterMap fun entry => table.find? entry.1

theorem mem_nodes_iff {table : Table} {n : Node} :
    n ∈ table.nodes ↔ ∃ id, table.find? id = some n := by
  simp only [nodes, List.mem_filterMap]
  constructor
  · rintro ⟨entry, -, found⟩
    exact ⟨entry.1, found⟩
  · rintro ⟨id, found⟩
    obtain ⟨entry, first, -⟩ := Option.map_eq_some_iff.1 found
    have same : entry.1 = id := by simpa using List.find?_some first
    exact ⟨entry, List.mem_of_find?_eq_some first, by rw [same, found]⟩

theorem mem_nodes_of_resolve {table : Table} {id : Option String} {n : Node}
    (found : table.resolve id = some n) : n ∈ table.nodes := by
  obtain ⟨id, -, found⟩ := Option.bind_eq_some_iff.1 found
  exact mem_nodes_iff.2 ⟨id, found⟩

instance (table : Table) : table.graph.Tells where
  key _ := rfl
  name _ := rfl
  text _ := rfl
  elem _ := rfl
  members _ := rfl
  supertypes _ := rfl

theorem kindOf_graph {table : Table} {n : Node} (answers : n.refusal = none) :
    table.graph.kindOf n = n.kind := by
  simp [kindOf, toldOr, graph, answers]

/-- No supertype leads out of a table, whether its types tell their kinds or not. -/
theorem closedUpwards (table : Table) : table.graph.ClosedUpwards table.nodes where
  markers_eq n mem := rfl
  supertype_mem n mem u listed := by
    obtain ⟨id, -, found⟩ := List.mem_map.1 listed
    exact mem_nodes_of_resolve found
  length_le := List.length_filterMap_le _ _

/-- A table whose types all answer is a chart of its graph. -/
theorem charted (table : Table) (answers : ∀ n ∈ table.nodes, n.refusal = none) :
    table.graph.Charted table.nodes where
  kind_eq n mem := by
    rw [kindOf_graph (answers n mem)]
    simp [graph, answers n mem]
  markers_eq := table.closedUpwards.markers_eq
  elem_mem n mem u found := mem_nodes_of_resolve found
  member_mem n mem m owned u found := by
    obtain ⟨p, -, rfl⟩ := List.mem_map.1 owned
    exact mem_nodes_of_resolve found
  supertype_mem := table.closedUpwards.supertype_mem
  length_le := table.closedUpwards.length_le

end Table

end ComposeStability.TypeGraph
