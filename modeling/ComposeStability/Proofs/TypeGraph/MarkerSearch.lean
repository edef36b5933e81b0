/-
# Proofs.TypeGraph.MarkerSearch -- the search for markers decides reachability

The search for a declared marker goes depth first through the supertypes and
enters no key twice.  What it has entered without success is closed: no type in
it is marked, and the supertypes of its types have been entered too
(`Searched`).  So a search that finds nothing has seen every supertype at any
distance, and `declaredStable_eq` says that the search answers, and that its
answer is reachability of a marker.  For a table of types this needs no more than
that the keys are distinct (`Table.declaredStable_iff_reachable`).
-/
import ComposeStability.TypeGraph.Classify
import ComposeStability.Proofs.TypeGraph.Chart
import Mathlib.Data.List.Nodup

namespace ComposeStability.TypeGraph

set_option autoImplicit false

open Relation (ReflTransGen)

variable {τ : Type}

/-- One step from a type to a resolved supertype. -/
def SuperStep (g : TypeGraph τ) (t u : τ) : Prop := some u ∈ g.supertypesOf t

/-- The type is marked stable or immutable. -/
def Marked (g : TypeGraph τ) (t : τ) : Prop := (g.markersOf t).declareStable = true

/-- The type or a supertype at any distance is marked stable or immutable. -/
def DeclaredStable (g : TypeGraph τ) (t : τ) : Prop :=
  ∃ u, ReflTransGen g.SuperStep t u ∧ g.Marked u

theorem DeclaredStable.of_supertype {g : TypeGraph τ} {t u : τ} (step : g.SuperStep t u)
    (declared : g.DeclaredStable u) : g.DeclaredStable t := by
  obtain ⟨marked, path, isMarked⟩ := declared
  exact ⟨marked, path.head step, isMarked⟩

/-! ## Markers in the bits of a word -/

/-- The position of the bit of a marker. -/
def Marker.position : Marker → Nat
  | .stable => 0
  | .immutable => 1
  | .serializable => 2
  | .runtime => 3
  | .skip => 4

/-- A word carries a marker: the bit of the marker is set in it. -/
def Markers.Carries (ms : Markers) (m : Marker) : Prop := ms.bits.getLsbD m.position = true

theorem Marker.bit_eq (m : Marker) : m.bit = BitVec.twoPow 8 m.position := by
  cases m <;> rfl

/-- A switch of one bit is on if that bit is set. -/
theorem enabled_twoPow {width i : Nat} (inside : i < width) (flags : Flags width) :
    flags.enabled (BitVec.twoPow width i) = flags.bits.getLsbD i := by
  have bit : BitVec.twoPow width i ≠ 0 := by
    intro none
    have set := congrArg (BitVec.getLsbD · i) none
    simp [inside] at set
  rw [Flags.enabled, BitVec.and_twoPow]
  cases flags.bits.getLsbD i with
  | true => simpa using bit
  | false => simp

theorem Markers.has_iff_carries {ms : Markers} {m : Marker} :
    ms.has m = true ↔ ms.Carries m := by
  have inside : m.position < 8 := by cases m <;> decide
  rw [Markers.has, Marker.bit_eq, enabled_twoPow inside, Markers.Carries]

theorem Markers.declareStable_iff {ms : Markers} :
    ms.declareStable = true ↔ ms.Carries .stable ∨ ms.Carries .immutable := by
  have one (m : Marker) : ms.enabled m.bit = true ↔ ms.Carries m := Markers.has_iff_carries
  simp [Markers.declareStable, Flags.any, one]

/-! ## What a search leaves behind -/

/-- The keys of charted types that a search has entered, none of them twice. -/
structure Entered (g : TypeGraph τ) (nodes : List τ) (keys : List String) : Prop where
  nodup : keys.Nodup
  known : keys ⊆ nodes.map g.keyOf

/-- A search without success has entered `after`, starting from `before`. -/
structure Searched (g : TypeGraph τ) (nodes : List τ) (before after : List String) : Prop where
  entered : g.Entered nodes after
  grows : before ⊆ after
  closed : ∀ t ∈ nodes, g.keyOf t ∈ after → g.keyOf t ∉ before →
    ¬ g.Marked t ∧ ∀ u, g.SuperStep t u → g.keyOf u ∈ after

variable {g : TypeGraph τ} {nodes : List τ}

theorem Entered.cons {keys : List String} {t : τ} (entered : g.Entered nodes keys)
    (mem : t ∈ nodes) (new : g.keyOf t ∉ keys) : g.Entered nodes (g.keyOf t :: keys) where
  nodup := List.nodup_cons.2 ⟨new, entered.nodup⟩
  known := List.cons_subset.2 ⟨List.mem_map_of_mem mem, entered.known⟩

theorem Searched.refl {keys : List String} (entered : g.Entered nodes keys) :
    g.Searched nodes keys keys where
  entered
  grows := List.Subset.refl _
  closed _ _ mem new := absurd mem new

theorem Searched.trans {before middle after : List String}
    (first : g.Searched nodes before middle) (second : g.Searched nodes middle after) :
    g.Searched nodes before after where
  entered := second.entered
  grows := List.Subset.trans first.grows second.grows
  closed t mem reached new := by
    by_cases early : g.keyOf t ∈ middle
    · obtain ⟨unmarked, next⟩ := first.closed t mem early new
      exact ⟨unmarked, fun u step => second.grows (next u step)⟩
    · exact second.closed t mem reached early

/-- A type that is not marked closes over a search through all its supertypes. -/
theorem Searched.enter {before after : List String} {t : τ} (distinct : g.KeysDistinct nodes)
    (mem : t ∈ nodes) (unmarked : ¬ g.Marked t)
    (below : g.Searched nodes (g.keyOf t :: before) after)
    (all : ∀ u, g.SuperStep t u → g.keyOf u ∈ after) : g.Searched nodes before after where
  entered := below.entered
  grows := List.Subset.trans (List.subset_cons_self _ _) below.grows
  closed u charted reached new := by
    by_cases same : g.keyOf u = g.keyOf t
    · rw [distinct u charted t mem same]
      exact ⟨unmarked, all⟩
    · exact below.closed u charted reached (by simp [same, new])

/-! ## The search -/

/-- One step of a search, where keys and supertypes are told. -/
theorem searchMarked_told [g.Tells] {t : τ} {markers : Markers}
    (marked : g.markers t = .ok markers) (fuel : Nat) (seen : List String) :
    searchMarked g (fuel + 1) seen (some t) =
      if markers.declareStable then .ok (true, seen)
      else if seen.contains (g.keyOf t) then .ok (false, seen)
      else searchAnyMarked g fuel (g.keyOf t :: seen) (g.supertypesOf t) := by
  rw [searchMarked, marked, Tells.key, Tells.supertypes]
  rfl

/-- What a search from one type answers. -/
def SearchAnswers (g : TypeGraph τ) (nodes : List τ) (fuel : Nat) : Prop :=
  ∀ (before : List String) (t : τ), t ∈ nodes → g.Entered nodes before →
    g.depth < fuel + before.length →
    (∃ after, searchMarked g fuel before (some t) = .ok (true, after) ∧ g.DeclaredStable t) ∨
    (∃ after, searchMarked g fuel before (some t) = .ok (false, after) ∧
      g.Searched nodes before after ∧ g.keyOf t ∈ after)

/-- Searching several types succeeds with the first success, or has searched them all. -/
theorem searchAnyMarked_answers {fuel : Nat} (answers : g.SearchAnswers nodes fuel) :
    ∀ (types : List (Option τ)) (before : List String), g.Entered nodes before →
      g.depth < fuel + before.length → (∀ u, some u ∈ types → u ∈ nodes) →
      (∃ after, searchAnyMarked g fuel before types = .ok (true, after) ∧
        ∃ u, some u ∈ types ∧ g.DeclaredStable u) ∨
      (∃ after, searchAnyMarked g fuel before types = .ok (false, after) ∧
        g.Searched nodes before after ∧ ∀ u, some u ∈ types → g.keyOf u ∈ after)
  | [], before, entered, _, _ =>
      .inr ⟨before, by rw [searchAnyMarked], .refl entered, by simp⟩
  | none :: rest, before, entered, enough, charted => by
      have skip : searchAnyMarked g fuel before (none :: rest) =
          searchAnyMarked g fuel before rest := by
        rw [searchAnyMarked, searchMarked]
        rfl
      rw [skip]
      simpa using searchAnyMarked_answers answers rest before entered enough
        (fun u listed => charted u (List.mem_cons_of_mem _ listed))
  | some t :: rest, before, entered, enough, charted => by
      rcases answers before t (charted t (by simp)) entered enough with
        ⟨after, found, declared⟩ | ⟨middle, missed, searched, reached⟩
      · refine .inl ⟨after, ?_, t, by simp, declared⟩
        rw [searchAnyMarked, found]
        rfl
      · have next : searchAnyMarked g fuel before (some t :: rest) =
            searchAnyMarked g fuel middle rest := by
          rw [searchAnyMarked, missed]
          rfl
        have still : g.depth < fuel + middle.length := by
          have := entered.nodup.length_le_of_subset searched.grows
          omega
        rw [next]
        rcases searchAnyMarked_answers answers rest middle searched.entered still
            (fun u listed => charted u (List.mem_cons_of_mem _ listed)) with
          ⟨after, found, u, listed, declared⟩ | ⟨after, missed, searchedRest, all⟩
        · exact .inl ⟨after, found, u, List.mem_cons_of_mem _ listed, declared⟩
        · refine .inr ⟨after, missed, searched.trans searchedRest, fun u listed => ?_⟩
          rcases List.mem_cons.1 listed with same | listed
          · rw [Option.some.inj same]
            exact searchedRest.grows reached
          · exact all u listed

/-- With distinct keys a search answers as long as some charted type is not entered yet. -/
theorem searchMarked_answers [g.Tells] (chart : g.ClosedUpwards nodes)
    (distinct : g.KeysDistinct nodes) :
    ∀ fuel, g.SearchAnswers nodes fuel
  | 0, before, t, mem, entered, enough => by
      have := chart.keys_length_le entered.nodup entered.known
      omega
  | fuel + 1, before, t, mem, entered, enough => by
      rw [searchMarked_told (chart.markers_eq t mem)]
      by_cases marked : (g.markersOf t).declareStable = true
      · rw [if_pos marked]
        exact .inl ⟨before, rfl, t, .refl, marked⟩
      rw [if_neg marked]
      by_cases old : g.keyOf t ∈ before
      · rw [if_pos (by simpa using old)]
        exact .inr ⟨before, rfl, .refl entered, old⟩
      rw [if_neg (by simpa using old)]
      rcases searchAnyMarked_answers (searchMarked_answers chart distinct fuel) (g.supertypesOf t)
          (g.keyOf t :: before) (entered.cons mem old) (by simp only [List.length_cons]; omega)
          (chart.supertype_mem t mem) with
        ⟨after, found, u, step, declared⟩ | ⟨after, missed, searched, all⟩
      · exact .inl ⟨after, found, declared.of_supertype step⟩
      · exact .inr ⟨after, missed, searched.enter distinct mem marked all,
          searched.grows List.mem_cons_self⟩

/-- What a search from nothing has entered holds every supertype, and none of them is marked. -/
theorem Searched.not_declaredStable (chart : g.ClosedUpwards nodes) {t : τ} {after : List String}
    (searched : g.Searched nodes [] after) (mem : t ∈ nodes) (reached : g.keyOf t ∈ after) :
    ¬ g.DeclaredStable t := by
  have inside : ∀ u, ReflTransGen g.SuperStep t u → u ∈ nodes ∧ g.keyOf u ∈ after := by
    intro u path
    induction path with
    | refl => exact ⟨mem, reached⟩
    | tail _ step ih =>
        obtain ⟨charted, seen⟩ := ih
        exact ⟨chart.supertype_mem _ charted _ step,
          (searched.closed _ charted seen (by simp)).2 _ step⟩
  rintro ⟨u, path, marked⟩
  obtain ⟨charted, seen⟩ := inside u path
  exact (searched.closed u charted seen (by simp)).1 marked

open Classical in
/-- A search that has entered nothing yet tells whether a marker can be reached through supertypes. -/
theorem searchMarked_eq [g.Tells] (chart : g.ClosedUpwards nodes)
    (distinct : g.KeysDistinct nodes) {t : τ} (mem : t ∈ nodes) : ∃ entered, searchMarked g (g.depth + 1) [] (some t) =
      .ok (decide (g.DeclaredStable t), entered) := by
  have start : g.Entered nodes [] := ⟨List.nodup_nil, List.nil_subset _⟩
  rcases searchMarked_answers chart distinct (g.depth + 1) [] t mem start (by simp) with
    ⟨after, found, declared⟩ | ⟨after, missed, searched, reached⟩
  · exact ⟨after, by rw [found, decide_eq_true declared]⟩
  · have absent := searched.not_declaredStable chart mem reached
    exact ⟨after, by rw [missed, decide_eq_false absent]⟩

open Classical in
/-- The search answers, and its answer is whether a marker can be reached through supertypes. -/
theorem declaredStable_eq [g.Tells] (chart : g.ClosedUpwards nodes)
    (distinct : g.KeysDistinct nodes) {t : τ} (mem : t ∈ nodes) : declaredStable g t = .ok (decide (g.DeclaredStable t)) := by
  obtain ⟨entered, searched⟩ := searchMarked_eq chart distinct mem
  rw [declaredStable, searched]
  rfl

/-! ## Tables -/

namespace Table

/-- In a table with distinct keys the search from any identifier answers, and it finds a marker
exactly if the identifier is listed and a type that carries the stable or the immutable marker can
be reached through supertypes, in no or more steps.  Supertypes may lead in circles or nowhere, and
types need not tell their kinds. -/
theorem declaredStable_iff_reachable (table : Table)
    (distinct : table.graph.KeysDistinct table.nodes) (id : Option String) :
    ∃ declared,
      (∃ entered, searchMarked table.graph (table.graph.depth + 1) [] (table.resolve id) =
        .ok (declared, entered)) ∧
      (∀ n, table.resolve id = some n → declaredStable table.graph n = .ok declared) ∧
      (declared = true ↔ ∃ n m, table.resolve id = some n ∧
        ReflTransGen table.graph.SuperStep n m ∧
        (m.markers.Carries .stable ∨ m.markers.Carries .immutable)) := by
  classical
  cases found : table.resolve id with
  | none => exact ⟨false, ⟨[], by rw [searchMarked]⟩, by simp, by simp⟩
  | some n =>
      have listed : n ∈ table.nodes := mem_nodes_of_resolve found
      have reachable : table.graph.DeclaredStable n ↔ ∃ m, ReflTransGen table.graph.SuperStep n m ∧
          (m.markers.Carries .stable ∨ m.markers.Carries .immutable) :=
        exists_congr fun m => and_congr_right fun _ => Markers.declareStable_iff
      refine ⟨decide (table.graph.DeclaredStable n), ?_, ?_, ?_⟩
      · exact searchMarked_eq table.closedUpwards distinct listed
      · intro other same
        rw [← Option.some.inj same]
        exact declaredStable_eq table.closedUpwards distinct listed
      · rw [decide_eq_true_iff, reachable]
        simp

/-- The type at the top is marked, and does not tell its kind. -/
def view : Node :=
  ⟨.interface, "ui.View", "ui.View", "ui.View", none, Markers.ofList [.immutable], [], [],
    some "not loaded"⟩

/-- A type with a supertype that is not resolved, one that comes back to it, and one that is marked. -/
def frame : Node :=
  ⟨.interface, "ui.Frame", "ui.Frame", "ui.Frame", none, Flags.empty, [],
    [none, some "scroll", some "view"], none⟩

def panel : Node :=
  ⟨.composite, "ui.Panel", "ui.Panel", "ui.Panel", none, Flags.empty, [],
    [some "scroll", some "frame"], none⟩

def panels : Table where
  entries :=
    [("panel", panel), ("frame", frame), ("view", view),
     ("scroll", ⟨.interface, "ui.Scroll", "ui.Scroll", "ui.Scroll", none, Flags.empty, [],
        [some "lost", some "panel", some "frame"], none⟩)]

theorem panels_declared :
    panels.graph.KeysDistinct panels.nodes ∧ panels.resolve (some "panel") = some panel ∧
      declaredStable panels.graph panel = .ok true := by
  have distinct : panels.graph.KeysDistinct panels.nodes := keysDistinct_of_nodup (by decide)
  obtain ⟨declared, -, decided, reachable⟩ :=
    declaredStable_iff_reachable panels distinct (some "panel")
  have up : panels.graph.SuperStep panel frame := List.mem_map.2 ⟨some "frame", by decide, rfl⟩
  have top : panels.graph.SuperStep frame view := List.mem_map.2 ⟨some "view", by decide, rfl⟩
  have marked : view.markers.Carries .immutable := by rfl
  obtain rfl := reachable.2 ⟨panel, view, rfl, .tail (.single up) top, .inr marked⟩
  exact ⟨distinct, rfl, decided panel rfl⟩

end Table

end ComposeStability.TypeGraph
