/-
# Proofs.TypeGraph.Termination -- classification ends on every finite table

Three recursions go through a cyclic graph.  Wrappers are looked through without
a guard, so a cycle must not consist of wrappers only.  The walk carries the
keys of the types in progress and the search for markers those it has entered;
both go on only below a key that is new.  So `keysLeft`, the number of keys in
the graph that are not carried yet, falls with every nested call, also where
several types share a key: what is counted are keys, not types.

`Call.alike` and `searchMarked_alike` say that both answer, and that the answer
is the same whatever bound above `keysLeft` limits the recursion.
-/
import ComposeStability.Proofs.TypeGraph.Reachability
import Mathlib.Data.Finset.Card

namespace ComposeStability.TypeGraph

set_option autoImplicit false

open Relation (ReflTransGen)
open Stability (Verdict)

variable {τ : Type} {g : TypeGraph τ} {nodes : List τ} {patterns : List Pattern}

/-! ## Keys that are left -/

/-- The number of keys of the given types that are not carried yet. -/
def keysLeft (g : TypeGraph τ) (nodes : List τ) (carried : List String) : Nat :=
  ((nodes.map g.keyOf).toFinset \ carried.toFinset).card

theorem keysLeft_le_depth (chart : g.Charted nodes) (carried : List String) :
    g.keysLeft nodes carried ≤ g.depth :=
  calc g.keysLeft nodes carried
    _ ≤ (nodes.map g.keyOf).toFinset.card := Finset.card_le_card Finset.sdiff_subset
    _ ≤ (nodes.map g.keyOf).length := List.toFinset_card_le _
    _ ≤ g.depth := by simpa using chart.length_le

theorem keysLeft_anti {carried carried' : List String} (grows : carried ⊆ carried') :
    g.keysLeft nodes carried' ≤ g.keysLeft nodes carried := by
  refine Finset.card_le_card (Finset.sdiff_subset_sdiff (Finset.Subset.refl _) fun key listed => ?_)
  exact List.mem_toFinset.2 (grows (List.mem_toFinset.1 listed))

theorem keysLeft_cons_lt {carried : List String} {t : τ} (mem : t ∈ nodes)
    (new : g.keyOf t ∉ carried) :
    g.keysLeft nodes (g.keyOf t :: carried) < g.keysLeft nodes carried := by
  refine Finset.card_lt_card (Finset.ssubset_iff_of_subset ?_ |>.2 ⟨g.keyOf t, ?_, by simp⟩)
  · intro key
    simp +contextual
  · simpa [new] using ⟨t, mem, rfl⟩

/-! ## The search for markers -/

/-- The search answers with what it has entered by then, the same under both bounds. -/
def SearchesAlike (g : TypeGraph τ) (fuel fuel' : Nat) (entered : List String) (p : Option τ) :
    Prop :=
  ∃ found after, entered ⊆ after ∧ searchMarked g fuel entered p = .ok (found, after) ∧
    searchMarked g fuel' entered p = .ok (found, after)

theorem searchAnyMarked_alike {fuel fuel' : Nat} {types : List (Option τ)} {entered : List String}
    (each : ∀ p ∈ types, ∀ later, entered ⊆ later → g.SearchesAlike fuel fuel' later p) :
    ∃ found after, entered ⊆ after ∧ searchAnyMarked g fuel entered types = .ok (found, after) ∧
      searchAnyMarked g fuel' entered types = .ok (found, after) := by
  induction types generalizing entered with
  | nil =>
      exact ⟨false, entered, List.Subset.refl _, by rw [searchAnyMarked], by rw [searchAnyMarked]⟩
  | cons p rest ih =>
      obtain ⟨found, middle, grows, here, here'⟩ := each p (by simp) entered (List.Subset.refl _)
      rw [searchAnyMarked, searchAnyMarked, here, here']
      cases found with
      | true => exact ⟨true, middle, grows, rfl, rfl⟩
      | false =>
          obtain ⟨found, after, growsRest, there, there'⟩ := ih fun q listed later onwards =>
            each q (List.mem_cons_of_mem _ listed) later (List.Subset.trans grows onwards)
          exact ⟨found, after, List.Subset.trans grows growsRest, there, there'⟩

/-- A search ends as soon as more nested searches are allowed than there are keys left. -/
theorem searchMarked_alike [g.Tells] (chart : g.Charted nodes) :
    ∀ (fuel fuel' : Nat) (entered : List String) (p : Option τ), InChart nodes p →
      g.keysLeft nodes entered < fuel → g.keysLeft nodes entered < fuel' →
      g.SearchesAlike fuel fuel' entered p
  | _, _, entered, none, _, _, _ =>
      ⟨false, entered, List.Subset.refl _, by rw [searchMarked], by rw [searchMarked]⟩
  | fuel + 1, fuel' + 1, entered, some t, charted, enough, enough' => by
      have mem := charted t rfl
      unfold SearchesAlike
      rw [searchMarked_told (chart.markers_eq t mem), searchMarked_told (chart.markers_eq t mem)]
      by_cases marked : (g.markersOf t).declareStable = true
      · rw [if_pos marked, if_pos marked]
        exact ⟨_, _, List.Subset.refl _, rfl, rfl⟩
      rw [if_neg marked, if_neg marked]
      by_cases old : entered.contains (g.keyOf t) = true
      · rw [if_pos old, if_pos old]
        exact ⟨_, _, List.Subset.refl _, rfl, rfl⟩
      rw [if_neg old, if_neg old]
      have fewer := keysLeft_cons_lt mem (by simpa using old)
      have each : ∀ p ∈ g.supertypesOf t, ∀ later, g.keyOf t :: entered ⊆ later →
          g.SearchesAlike fuel fuel' later p := by
        intro p listed later grows
        have still : g.keysLeft nodes later ≤ g.keysLeft nodes (g.keyOf t :: entered) :=
          keysLeft_anti grows
        exact searchMarked_alike chart fuel fuel' later p
          (fun u resolved => chart.supertype_mem t mem u (resolved ▸ listed))
          (by omega) (by omega)
      obtain ⟨found, after, grows, here, here'⟩ := searchAnyMarked_alike each
      exact ⟨found, after, List.Subset.trans (List.subset_cons_self _ _) grows, here, here'⟩

/-- The search from nothing answers, and no bound as large as the graph changes the answer. -/
theorem declaredStable_returns [g.Tells] (chart : g.Charted nodes) {t : τ} (mem : t ∈ nodes) :
    ∃ declared, declaredStable g t = .ok declared ∧
      ∀ fuel, g.depth < fuel →
        ∃ entered, searchMarked g fuel [] (some t) = .ok (declared, entered) := by
  have enough := keysLeft_le_depth chart []
  have alike (fuel : Nat) (larger : g.depth < fuel) :=
    searchMarked_alike chart (g.depth + 1) fuel [] (some t)
      (fun u same => Option.some.inj same ▸ mem) (by omega) (by omega)
  obtain ⟨found, entered, -, here, -⟩ := alike (g.depth + 1) (by omega)
  refine ⟨found, by rw [declaredStable, here]; rfl, fun fuel larger => ⟨entered, ?_⟩⟩
  obtain ⟨_, _, -, here', there⟩ := alike fuel larger
  rw [here] at here'
  rw [there, Except.ok.inj here']

/-! ## Nested classifications -/

/-- What one classification is asked: the keys of the types in progress, and a type. -/
structure Call (τ : Type) where
  visiting : List String
  start : Option τ

/-- `c.Nests g inner`: the classification `inner` may be asked for by `c` directly.  It is about a
neighbour of the type behind the wrappers, and that type is in progress meanwhile. -/
inductive Call.Nests (g : TypeGraph τ) : Call τ → Call τ → Prop where
  | neighbour {visiting : List String} {start p : Option τ} {t : τ}
      (behind : unwrap g (g.depth + 1) start = .ok (some t)) (new : g.keyOf t ∉ visiting)
      (next : p = g.elemOf t ∨ p ∈ (g.membersOf t).map (·.type) ∨ p ∈ g.supertypesOf t) :
      Call.Nests g ⟨visiting, start⟩ ⟨g.keyOf t :: visiting, p⟩

/-- The call answers, the same under both bounds. -/
def Call.Alike (g : TypeGraph τ) (patterns : List Pattern) (fuel fuel' : Nat) (c : Call τ) : Prop :=
  ∃ verdict, walk g patterns fuel c.visiting c.start = .ok verdict ∧
    walk g patterns fuel' c.visiting c.start = .ok verdict

/-- Every nested call leaves fewer keys, and stays in the chart. -/
theorem Call.Nests.keysLeft_lt [g.Tells] (chart : g.Charted nodes) (ends : g.WrappersEnd)
    {c inner : Call τ} (nests : c.Nests g inner) (charted : InChart nodes c.start) :
    g.keysLeft nodes inner.visiting < g.keysLeft nodes c.visiting ∧
      InChart nodes inner.start := by
  cases nests with
  | @neighbour visiting start p t behind new next =>
      have mem : t ∈ nodes := by
        obtain ⟨u, found, unwraps⟩ := unwrap_depth chart ends charted
        rw [behind] at found
        exact unwraps.inChart chart charted t (Except.ok.inj found).symm
      refine ⟨keysLeft_cons_lt mem new, fun u resolved => ?_⟩
      rcases next with rfl | isMember | isSupertype
      · exact chart.elem_mem t mem u resolved
      · obtain ⟨m, owned, rfl⟩ := List.mem_map.1 isMember
        exact chart.member_mem t mem m owned u resolved
      · exact chart.supertype_mem t mem u (resolved ▸ isSupertype)

theorem Call.Nests.inChart [g.Tells] (chart : g.Charted nodes) (ends : g.WrappersEnd)
    {c inner : Call τ} (nested : ReflTransGen (Call.Nests g) c inner)
    (charted : InChart nodes c.start) :
    InChart nodes inner.start := by
  induction nested with
  | refl => exact charted
  | tail _ nests ih => exact (nests.keysLeft_lt chart ends ih).2

section

variable {fuel fuel' : Nat} {visiting : List String}

theorem walkMembers_alike [g.Tells] (owner : τ) {members : List (Member τ)}
    (each : ∀ m ∈ members, Call.Alike g patterns fuel fuel' ⟨visiting, m.type⟩) :
    ∃ verdicts, walkMembers g patterns fuel visiting owner members = .ok verdicts ∧
      walkMembers g patterns fuel' visiting owner members = .ok verdicts := by
  induction members with
  | nil => exact ⟨[], by rw [walkMembers], by rw [walkMembers]⟩
  | cons m rest ih =>
      obtain ⟨verdict, here, here'⟩ := each m (by simp)
      obtain ⟨verdicts, there, there'⟩ := ih fun m mem => each m (List.mem_cons_of_mem _ mem)
      rw [walkMembers_told, walkMembers_told, here, here', there, there']
      exact ⟨_, rfl, rfl⟩

theorem walkAll_alike {types : List (Option τ)}
    (each : ∀ p ∈ types, Call.Alike g patterns fuel fuel' ⟨visiting, p⟩) :
    ∃ verdicts, walkAll g patterns fuel visiting types = .ok verdicts ∧
      walkAll g patterns fuel' visiting types = .ok verdicts := by
  induction types with
  | nil => exact ⟨[], by rw [walkAll], by rw [walkAll]⟩
  | cons p rest ih =>
      obtain ⟨verdict, here, here'⟩ := each p (by simp)
      obtain ⟨verdicts, there, there'⟩ := ih fun p mem => each p (List.mem_cons_of_mem _ mem)
      rw [walkAll, walkAll, here, here', there, there']
      exact ⟨_, rfl, rfl⟩

theorem walkParts_alike [g.Tells] {t : τ} {supertypes : List (Option τ)}
    (each : g.keyOf t ∉ visiting → ∀ p ∈ (g.membersOf t).map (·.type) ++ supertypes,
      Call.Alike g patterns fuel fuel' ⟨g.keyOf t :: visiting, p⟩) :
    ∃ verdict, walkParts g patterns fuel visiting t (.ok supertypes) = .ok verdict ∧
      walkParts g patterns fuel' visiting t (.ok supertypes) = .ok verdict := by
  rw [walkParts_told, walkParts_told]
  by_cases old : visiting.contains (g.keyOf t) = true
  · rw [if_pos old, if_pos old]
    exact ⟨_, rfl, rfl⟩
  rw [if_neg old, if_neg old]
  cases (g.membersOf t).find? (·.mutable) with
  | some m => exact ⟨_, rfl, rfl⟩
  | none =>
      have each := each (by simpa using old)
      obtain ⟨own, here, here'⟩ := walkMembers_alike t fun m mem =>
        each m.type (List.mem_append_left _ (List.mem_map_of_mem mem))
      obtain ⟨inherited, there, there'⟩ := walkAll_alike fun p mem =>
        each p (List.mem_append_right _ mem)
      simp only [here, here', there, there']
      exact ⟨_, rfl, rfl⟩

/-- A classification answers as soon as those nested directly in it do. -/
theorem Call.alike_of_nested [g.Tells] (chart : g.Charted nodes) (ends : g.WrappersEnd) {c : Call τ}
    (charted : InChart nodes c.start)
    (nested : ∀ inner, c.Nests g inner → inner.Alike g patterns fuel fuel') :
    c.Alike g patterns (fuel + 1) (fuel' + 1) := by
  obtain ⟨visiting, start⟩ := c
  obtain ⟨behind, found, unwraps⟩ := unwrap_depth chart ends charted
  unfold Call.Alike
  rw [walk, walk, found]
  cases behind with
  | none => exact ⟨_, rfl, rfl⟩
  | some t =>
      have mem : t ∈ nodes := unwraps.inChart chart charted t rfl
      obtain ⟨declared, searched, -⟩ := declaredStable_returns chart mem
      have below (new : g.keyOf t ∉ visiting) {p : Option τ}
          (next : p = g.elemOf t ∨ p ∈ (g.membersOf t).map (·.type) ∨ p ∈ g.supertypesOf t) :=
        nested ⟨g.keyOf t :: visiting, p⟩ (.neighbour found new next)
      have serializable : ∃ verdict, walkParts g patterns fuel visiting t (.ok []) = .ok verdict ∧
          walkParts g patterns fuel' visiting t (.ok []) = .ok verdict :=
        walkParts_alike fun new p isMember => below new (.inr (.inl (by simpa using isMember)))
      have composite : ∃ verdict,
          walkParts g patterns fuel visiting t (.ok (g.supertypesOf t)) = .ok verdict ∧
          walkParts g patterns fuel' visiting t (.ok (g.supertypesOf t)) = .ok verdict :=
        walkParts_alike fun new p part => below new (.inr (List.mem_append.1 part))
      simp only [bind, Except.bind, chart.kind_eq t mem, searched, chart.markers_eq t mem,
        Tells.key, Tells.name, Tells.text, Tells.elem, Tells.supertypes]
      split
      · exact ⟨_, rfl, rfl⟩
      · exact ⟨_, rfl, rfl⟩
      · iterate 4
          split
          · exact ⟨_, rfl, rfl⟩
        cases g.kindOf t with
        | value =>
            simp only
            split
            · exact ⟨_, rfl, rfl⟩
            · next new => exact below (by simpa using new) (.inl rfl)
        | hidden =>
            simp only
            split
            · exact serializable
            · split <;> exact ⟨_, rfl, rfl⟩
        | composite =>
            simp only
            split
            · exact serializable
            · exact composite
        | primitive | immutableCollection | mutableCollection | enum => exact ⟨_, rfl, rfl⟩
        | _ =>
            simp only
            split
            · exact serializable
            · exact ⟨_, rfl, rfl⟩

end

/-- A classification ends as soon as more nested ones are allowed than there are keys left. -/
theorem Call.alike [g.Tells] (chart : g.Charted nodes) (ends : g.WrappersEnd) :
    ∀ (fuel fuel' : Nat) (c : Call τ), InChart nodes c.start →
      g.keysLeft nodes c.visiting < fuel → g.keysLeft nodes c.visiting < fuel' →
      c.Alike g patterns fuel fuel'
  | fuel + 1, fuel' + 1, c, charted, enough, enough' =>
      c.alike_of_nested chart ends charted fun inner nests => by
        obtain ⟨fewer, inside⟩ := nests.keysLeft_lt chart ends charted
        exact inner.alike chart ends fuel fuel' inside (by omega) (by omega)

/-- Classification returns for every charted type. -/
theorem classify_returns [g.Tells] (chart : g.Charted nodes) (ends : g.WrappersEnd) {p : Option τ}
    (charted : InChart nodes p) : ∃ verdict, classify g patterns p = .ok verdict := by
  cases p with
  | none => exact ⟨unresolved, rfl⟩
  | some t =>
      have enough := Nat.lt_succ_of_le (keysLeft_le_depth chart [])
      have alike : Call.Alike g patterns (g.depth + 1) (g.depth + 1) ⟨[], some t⟩ :=
        Call.alike chart ends _ _ _ charted enough enough
      obtain ⟨verdict, found, -⟩ := alike
      exact ⟨verdict, (classify_told patterns t).trans found⟩

/-! ## Tables -/

namespace Table

/-- In a table whose types all answer and end behind their wrappers, classification of any type
returns, whatever bound no smaller than the table limits it.  Each classification on the way returns
once those nested directly in it do, these leave fewer keys, and the searches for markers return.
Several types may share a key. -/
theorem classification_ends (table : Table) (patterns : List Pattern)
    (answers : ∀ n ∈ table.nodes, n.refusal = none) (ends : table.graph.WrappersEnd) :
    (∀ id, ∃ verdict, classify table.graph patterns (table.resolve id) = .ok verdict ∧
      ∀ fuel, table.entries.length < fuel →
        walk table.graph patterns fuel [] (table.resolve id) = .ok verdict) ∧
    (∀ id c, ReflTransGen (Call.Nests table.graph) ⟨[], table.resolve id⟩ c →
      (∀ inner, c.Nests table.graph inner →
        table.graph.keysLeft table.nodes inner.visiting <
          table.graph.keysLeft table.nodes c.visiting) ∧
      ∀ fuel fuel', (∀ inner, c.Nests table.graph inner →
          inner.Alike table.graph patterns fuel fuel') →
        c.Alike table.graph patterns (fuel + 1) (fuel' + 1)) ∧
    ∀ n ∈ table.nodes, ∃ declared, declaredStable table.graph n = .ok declared ∧
      ∀ fuel, table.entries.length < fuel →
        ∃ entered, searchMarked table.graph fuel [] (some n) = .ok (declared, entered) := by
  have chart := table.charted answers
  have charted (id : Option String) : InChart table.nodes (table.resolve id) :=
    fun n found => mem_nodes_of_resolve found
  have bound : table.graph.keysLeft table.nodes [] ≤ table.entries.length :=
    keysLeft_le_depth chart []
  refine ⟨fun id => ?_, fun id c nested => ?_, fun n => declaredStable_returns chart⟩
  · have alike (fuel : Nat) (enough : table.entries.length < fuel) :
        Call.Alike table.graph patterns (table.entries.length + 1) fuel ⟨[], table.resolve id⟩ :=
      Call.alike chart ends (table.entries.length + 1) fuel _ (charted id)
        (Nat.lt_succ_of_le bound) (Nat.lt_of_le_of_lt bound enough)
    obtain ⟨verdict, here, -⟩ := alike (table.entries.length + 1) (by omega)
    refine ⟨verdict, ?_, fun fuel enough => ?_⟩
    · rw [← here]
      cases table.resolve id with
      | none => rw [classify, walk, unwrap]; rfl
      | some n => rfl
    · obtain ⟨same, here', there⟩ := alike fuel enough
      rw [here] at here'
      rw [there, Except.ok.inj here']
  · have inside := Call.Nests.inChart chart ends nested (charted id)
    exact ⟨fun inner nests => (nests.keysLeft_lt chart ends inside).1,
      fun fuel fuel' => c.alike_of_nested chart ends inside⟩

/-- Two types with one key that contain each other, one of them behind a wrapper; their base is a
supertype of itself. -/
def twins : Table where
  entries :=
    [("node", ⟨.composite, "ui.Node", "ui.Node", "ui.Node", none, Flags.empty,
        [⟨"next", false, some "link"⟩], [some "base", some "node"], none⟩),
     ("link", ⟨.nullable, "*ui.Node", "*ui.Node", "", some "twin", Flags.empty, [], [], none⟩),
     ("twin", ⟨.composite, "ui.Twin", "ui.Node", "ui.Twin", none, Flags.empty,
        [⟨"back", false, some "node"⟩], [], none⟩),
     ("base", ⟨.composite, "ui.Base", "ui.Base", "ui.Base", none, Flags.empty, [],
        [some "base"], none⟩)]

theorem twins_classification_ends :
    (∀ n ∈ twins.nodes, n.refusal = none) ∧ twins.graph.WrappersEnd ∧
      (∃ n ∈ twins.nodes, ∃ m ∈ twins.nodes, n.text ≠ m.text ∧ n.key = m.key) ∧
      ∃ verdict, classify twins.graph [] (twins.resolve (some "node")) = .ok verdict := by
  have answers : ∀ n ∈ twins.nodes, n.refusal = none := by
    decide
  have ends : twins.graph.WrappersEnd := twins.wrappersEnd_of_kind (by decide)
  have shared : ∃ n ∈ twins.nodes, ∃ m ∈ twins.nodes, n.text ≠ m.text ∧ n.key = m.key := by
    decide
  obtain ⟨verdict, returned, -⟩ := (classification_ends twins [] answers ends).1 (some "node")
  exact ⟨answers, ends, shared, verdict, returned⟩

end Table

end ComposeStability.TypeGraph
