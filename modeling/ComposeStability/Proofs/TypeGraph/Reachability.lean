/-
# Proofs.TypeGraph.Reachability -- classification is reachability

The walk cuts a branch when it meets a type in progress, so what it finds below
a type depends on the way it came.  `Answered busy start value` says what a walk
from `start` with the types `busy` in progress finds all the same: an unstable
leaf exactly if one can be reached without passing through `busy`, a runtime
outcome only for a reason, and a stable outcome only if everything below is
stable and ends.  A way to a leaf that passes through a type twice can be cut
short (`reaches_around_or`), hence nothing is hidden when nothing is in
progress: the outcome is the one of plain reachability.
-/
import ComposeStability.Proofs.TypeGraph.Role
import Mathlib.Data.List.Nodup
import Mathlib.Tactic.Choose

namespace ComposeStability.TypeGraph

set_option autoImplicit false

open Relation (ReflTransGen TransGen)
open Stability (Value Verdict)

variable {τ : Type}

/-! ## Ways around types in progress -/

/-- A step that does not start at a type in progress. -/
def StepAround (g : TypeGraph τ) (patterns : List Pattern) (busy : List τ) (a b : Option τ) :
    Prop :=
  g.Step patterns a b ∧ ∀ t ∈ busy, a ≠ some t

/-- Everything that can be reached is stable or leads on, and no way goes on for ever. -/
inductive Settled (g : TypeGraph τ) (patterns : List Pattern) : Option τ → Prop where
  | leaf {a : Option τ} (role : g.roleOf patterns a = .stable) : Settled g patterns a
  | inner {a : Option τ} {parts : List (Option τ)} (role : g.roleOf patterns a = .inner parts)
      (all : ∀ b, g.Step patterns a b → Settled g patterns b) : Settled g patterns a

variable {g : TypeGraph τ} {nodes : List τ} {patterns : List Pattern} {busy : List τ}

theorem Unwraps.unique {p u v : Option τ} (first : g.Unwraps p u) (second : g.Unwraps p v) :
    u = v := by
  induction first with
  | unresolved =>
      cases second
      rfl
  | bare kind =>
      cases second with
      | bare => rfl
      | wrapper wrapped => exact absurd wrapped kind
  | wrapper kind _ ih =>
      cases second with
      | bare bare => exact absurd kind bare
      | wrapper _ inside => exact ih inside

theorem stepAround_nil : g.StepAround patterns [] = g.Step patterns := by
  funext a b
  simp [StepAround]

theorem StepAround.of_cons {t : τ} {a b : Option τ}
    (step : g.StepAround patterns (t :: busy) a b) : g.StepAround patterns busy a b :=
  ⟨step.1, fun s mem => step.2 s (List.mem_cons_of_mem _ mem)⟩

/-- A way that keeps around `busy` also keeps around `t`, or does so after its last visit of `t`. -/
theorem reaches_around_or (t : τ) {a u : Option τ}
    (way : ReflTransGen (g.StepAround patterns busy) a u) :
    ReflTransGen (g.StepAround patterns (t :: busy)) a u ∨
      ∃ b, g.Step patterns (some t) b ∧ ReflTransGen (g.StepAround patterns (t :: busy)) b u := by
  induction way using ReflTransGen.head_induction_on with
  | refl => exact .inl .refl
  | @head a b step _ ih =>
      rcases ih with around | later
      · by_cases here : a = some t
        · subst here
          exact .inr ⟨b, step.1, around⟩
        · refine .inl (around.head ⟨step.1, fun s mem => ?_⟩)
          rcases List.mem_cons.1 mem with rfl | mem
          · exact here
          · exact step.2 s mem
      · exact .inr later

/-- A type with a part has an inner role. -/
theorem inner_of_transGen {a b : Option τ} (way : TransGen (g.Step patterns) a b) :
    ∃ parts, g.roleOf patterns a = .inner parts := by
  induction way using TransGen.head_induction_on with
  | single step =>
      obtain ⟨inner, -, -⟩ := step
      exact ⟨_, inner⟩
  | head step _ _ =>
      obtain ⟨inner, -, -⟩ := step
      exact ⟨_, inner⟩

/-! ## Settled types -/

theorem Settled.reaches {a b : Option τ} (settled : g.Settled patterns a)
    (way : ReflTransGen (g.Step patterns) a b) : g.Settled patterns b := by
  induction way with
  | refl => exact settled
  | tail _ step ih =>
      cases ih with
      | leaf role =>
          obtain ⟨inner, -, -⟩ := step
          rw [role] at inner
          cases inner
      | inner _ all => exact all _ step

theorem Settled.role_ne {a : Option τ} (settled : g.Settled patterns a) :
    g.roleOf patterns a ≠ .unstable ∧ g.roleOf patterns a ≠ .runtime := by
  cases settled with
  | leaf role => simp [role]
  | inner role => simp [role]

theorem Settled.not_cyclic {a : Option τ} (settled : g.Settled patterns a) :
    ¬ TransGen (g.Step patterns) a a := by
  induction settled with
  | leaf role =>
      intro cycle
      obtain ⟨parts, inner⟩ := inner_of_transGen cycle
      rw [role] at inner
      cases inner
  | inner _ _ ih =>
      intro cycle
      obtain ⟨b, step, back⟩ := TransGen.head'_iff.1 cycle
      exact ih b step (TransGen.tail' back step)

/-! ## What a walk finds -/

/-- What the outcome of a walk says about the type it started at. -/
structure Answered (g : TypeGraph τ) (patterns : List Pattern) (busy : List τ) (start : Option τ)
    (value : Value) : Prop where
  named : value = .stable ∨ value = .unstable ∨ value = .runtime
  unstable : value = .unstable ↔
    ∃ u, ReflTransGen (g.StepAround patterns busy) start u ∧ g.roleOf patterns u = .unstable
  runtime : value = .runtime → ∃ u, ReflTransGen (g.Step patterns) start u ∧
    (g.roleOf patterns u = .runtime ∨ TransGen (g.Step patterns) u u)
  stable : value = .stable → g.Settled patterns start

/-- From a type that the walk does not enter, no other type can be reached. -/
theorem reaches_around_stuck {a u : Option τ} (stuck : ∀ b, ¬ g.StepAround patterns busy a b)
    (way : ReflTransGen (g.StepAround patterns busy) a u) : u = a := by
  rcases ReflTransGen.cases_head way with same | ⟨b, step, -⟩
  · exact same.symm
  · exact absurd step (stuck b)

theorem not_step_of_role {a : Option τ} (outer : ∀ parts, g.roleOf patterns a ≠ .inner parts)
    (b : Option τ) : ¬ g.StepAround patterns busy a b := by
  rintro ⟨⟨inner, -, -⟩, -⟩
  exact outer _ inner

theorem Answered.stableLeaf {a : Option τ} (role : g.roleOf patterns a = .stable) :
    g.Answered patterns busy a .stable where
  named := .inl rfl
  unstable := by
    refine iff_of_false (by simp) ?_
    rintro ⟨u, way, isUnstable⟩
    rw [reaches_around_stuck (not_step_of_role (by simp [role])) way, role] at isUnstable
    cases isUnstable
  runtime impossible := by cases impossible
  stable _ := .leaf role

theorem Answered.unstableLeaf {a : Option τ} (role : g.roleOf patterns a = .unstable) :
    g.Answered patterns busy a .unstable where
  named := .inr (.inl rfl)
  unstable := iff_of_true rfl ⟨a, .refl, role⟩
  runtime impossible := by cases impossible
  stable impossible := by cases impossible

theorem Answered.runtimeLeaf {a : Option τ} (role : g.roleOf patterns a = .runtime) :
    g.Answered patterns busy a .runtime where
  named := .inr (.inr rfl)
  unstable := by
    refine iff_of_false (by simp) ?_
    rintro ⟨u, way, isUnstable⟩
    rw [reaches_around_stuck (not_step_of_role (by simp [role])) way, role] at isUnstable
    cases isUnstable
  runtime _ := ⟨a, .refl, .inl role⟩
  stable impossible := by cases impossible

/-- A type in progress is met again only on a cycle. -/
theorem Answered.cut {t : τ} (mem : t ∈ busy)
    (cycle : TransGen (g.Step patterns) (some t) (some t)) :
    g.Answered patterns busy (some t) .runtime where
  named := .inr (.inr rfl)
  unstable := by
    refine iff_of_false (by simp) ?_
    rintro ⟨u, way, isUnstable⟩
    obtain ⟨parts, inner⟩ := inner_of_transGen cycle
    rw [reaches_around_stuck (fun b step => step.2 t mem rfl) way, inner] at isUnstable
    cases isUnstable
  runtime _ := ⟨some t, .refl, .inr cycle⟩
  stable impossible := by cases impossible

/-- The outcome of an inner type is the worst of its parts, found with the type itself in
progress. -/
theorem Answered.inner {t : τ} {parts : List (Option τ)} {f : Option τ → Value}
    (role : g.roleOf patterns (some t) = .inner parts) (new : t ∉ busy)
    (each : ∀ p ∈ parts, ∃ u, g.Unwraps p u ∧ g.Answered patterns (t :: busy) u (f p)) :
    g.Answered patterns busy (some t) (Verdict.worst (parts.map f)) where
  named := by
    unfold Verdict.worst
    split
    · exact .inr (.inl rfl)
    · split
      · exact .inr (.inr rfl)
      · exact .inl rfl
  unstable := by
    rw [Verdict.worst_eq_unstable_iff, List.mem_map]
    constructor
    · rintro ⟨p, mem, isUnstable⟩
      obtain ⟨b, behind, answered⟩ := each p mem
      obtain ⟨u, way, leaf⟩ := answered.unstable.1 isUnstable
      have step : g.StepAround patterns busy (some t) b :=
        ⟨.part role mem behind, fun s old same => new (Option.some.inj same ▸ old)⟩
      exact ⟨u, (ReflTransGen.mono (fun _ _ => StepAround.of_cons) _ _ way).head step, leaf⟩
    · rintro ⟨u, way, leaf⟩
      rcases reaches_around_or t way with around | ⟨b, step, around⟩
      · rw [reaches_around_stuck (fun b step => step.2 t List.mem_cons_self rfl) around, role]
          at leaf
        cases leaf
      · obtain ⟨inner, mem, behind⟩ := step
        rw [role] at inner
        cases inner
        obtain ⟨b', behind', answered⟩ := each _ mem
        rw [behind'.unique behind] at answered
        exact ⟨_, mem, answered.unstable.2 ⟨u, around, leaf⟩⟩
  runtime isRuntime := by
    obtain ⟨-, listed⟩ := Verdict.worst_eq_runtime_iff.1 isRuntime
    obtain ⟨p, mem, partRuntime⟩ := List.mem_map.1 listed
    obtain ⟨b, behind, answered⟩ := each p mem
    obtain ⟨u, way, reason⟩ := answered.runtime partRuntime
    exact ⟨u, way.head (.part role mem behind), reason⟩
  stable isStable := by
    obtain ⟨noUnstable, noRuntime⟩ := Verdict.worst_eq_stable_iff.1 isStable
    refine .inner role fun b step => ?_
    obtain ⟨inner, mem, behind⟩ := step
    rw [role] at inner
    cases inner
    obtain ⟨b', behind', answered⟩ := each _ mem
    rw [behind'.unique behind] at answered
    rcases answered.named with h | h | h
    · exact answered.stable h
    · exact absurd (List.mem_map.2 ⟨_, mem, h⟩) noUnstable
    · exact absurd (List.mem_map.2 ⟨_, mem, h⟩) noRuntime

open Classical in
/-- With nothing in progress, the outcome is the one of reachability. -/
theorem Answered.eq_reachedValue {start : Option τ} {value : Value}
    (answered : g.Answered patterns [] start value) : value = g.reachedValue patterns start := by
  have unstable := answered.unstable
  rw [stepAround_nil] at unstable
  unfold reachedValue
  split
  · next reached => exact unstable.2 reached
  · next notReached =>
      split
      · next reached =>
          obtain ⟨u, way, reason⟩ := reached
          rcases answered.named with h | h | h
          · have settled := (answered.stable h).reaches way
            rcases reason with leaf | cycle
            · exact absurd leaf settled.role_ne.2
            · exact absurd cycle settled.not_cyclic
          · exact absurd (unstable.1 h) notReached
          · exact h
      · next noReason =>
          rcases answered.named with h | h | h
          · exact h
          · exact absurd (unstable.1 h) notReached
          · exact absurd (answered.runtime h) noReason

/-! ## The walk -/

/-- The types in progress: charted, different, and each on the way to the type at hand. -/
structure InProgress (g : TypeGraph τ) (patterns : List Pattern) (nodes busy : List τ)
    (start : Option τ) : Prop where
  nodup : busy.Nodup
  charted : busy ⊆ nodes
  leads : ∀ t ∈ busy, TransGen (g.Step patterns) (some t) start

theorem InProgress.step {t : τ} {u : Option τ}
    (progress : g.InProgress patterns nodes busy (some t)) (mem : t ∈ nodes) (new : t ∉ busy)
    (step : g.Step patterns (some t) u) : g.InProgress patterns nodes (t :: busy) u where
  nodup := List.nodup_cons.2 ⟨new, progress.nodup⟩
  charted := List.cons_subset.2 ⟨mem, progress.charted⟩
  leads s old := by
    rcases List.mem_cons.1 old with rfl | old
    · exact .single step
    · exact (progress.leads s old).tail step

theorem mem_keys_iff (distinct : g.KeysDistinct nodes) (charted : busy ⊆ nodes) {t : τ}
    (mem : t ∈ nodes) : g.keyOf t ∈ busy.map g.keyOf ↔ t ∈ busy := by
  refine ⟨fun listed => ?_, List.mem_map_of_mem⟩
  obtain ⟨s, old, same⟩ := List.mem_map.1 listed
  rwa [← distinct s (charted old) t mem same]

/-- The parts of an inner type are charted. -/
theorem inChart_of_part (chart : g.Charted nodes) {t : τ} {parts : List (Option τ)} {p : Option τ}
    (mem : t ∈ nodes) (role : g.role patterns t = .inner parts) (part : p ∈ parts) :
    InChart nodes p := by
  rcases role_inner_cases role with rfl | ⟨supertypes, inherited, rfl⟩
  · rw [List.mem_singleton] at part
    subst part
    exact chart.elem_mem t mem
  · rintro u rfl
    rcases List.mem_append.1 part with own | super
    · obtain ⟨m, owned, found⟩ := List.mem_map.1 own
      exact chart.member_mem t mem m owned u found
    · exact chart.supertype_mem t mem u (inherited super)

/-- A walk answers as long as some charted type is not in progress. -/
theorem walk_answers [g.Tells] (chart : g.Charted nodes) (distinct : g.KeysDistinct nodes)
    (ends : g.WrappersEnd) :
    ∀ (fuel : Nat) (busy : List τ) (p u : Option τ), InChart nodes p → g.Unwraps p u →
      g.InProgress patterns nodes busy u → g.depth < fuel + busy.length →
      ∃ verdict, walk g patterns fuel (busy.map g.keyOf) p = .ok verdict ∧
        g.Answered patterns busy u verdict.value
  | 0, busy, _, _, _, _, progress, enough => by
      have := progress.nodup.length_le_of_subset progress.charted
      have := chart.length_le
      omega
  | fuel + 1, busy, p, u, charted, behind, progress, enough => by
      obtain ⟨u', found, behind'⟩ := unwrap_depth chart ends charted
      obtain rfl := behind'.unique behind
      cases u' with
      | none =>
          refine ⟨unresolved, ?_, .runtimeLeaf rfl⟩
          rw [walk, found]
          rfl
      | some t =>
          have mem := behind.inChart chart charted t rfl
          have listed := mem_keys_iff distinct progress.charted mem
          have meets : g.Meets patterns fuel (busy.map g.keyOf) t
              (walk g patterns (fuel + 1) (busy.map g.keyOf) p) (g.role patterns t) :=
            walk_meets chart distinct mem found
          have leafNew (outer : ∀ parts, g.role patterns t ≠ .inner parts) : t ∉ busy := by
            intro old
            obtain ⟨parts, inner⟩ := inner_of_transGen (progress.leads t old)
            exact outer parts inner
          cases role : g.role patterns t with
          | stable =>
              rw [role] at meets
              obtain ⟨verdict, walked, value⟩ := meets
              exact ⟨verdict, walked, value ▸ .stableLeaf role⟩
          | unstable =>
              rw [role] at meets
              obtain ⟨verdict, walked, value⟩ :=
                meets (mt listed.1 (leafNew (by simp [role])))
              exact ⟨verdict, walked, value ▸ .unstableLeaf role⟩
          | runtime =>
              rw [role] at meets
              obtain ⟨verdict, walked, value⟩ := meets
              exact ⟨verdict, walked, value ▸ .runtimeLeaf role⟩
          | inner parts =>
              rw [role] at meets
              by_cases old : t ∈ busy
              · obtain ⟨verdict, walked, value⟩ := meets.1 (listed.2 old)
                exact ⟨verdict, walked, value ▸ .cut old (progress.leads t old)⟩
              · have each : ∀ q ∈ parts, ∃ value,
                    (∃ verdict, walk g patterns fuel (g.keyOf t :: busy.map g.keyOf) q = .ok verdict ∧
                      verdict.value = value) ∧
                    ∃ b, g.Unwraps q b ∧ g.Answered patterns (t :: busy) b value := by
                  intro q part
                  have inside := inChart_of_part chart mem role part
                  obtain ⟨b, -, behindPart⟩ := unwrap_depth chart ends inside
                  obtain ⟨verdict, walked, answered⟩ :=
                    walk_answers chart distinct ends fuel (t :: busy) q b inside behindPart
                      (progress.step mem old (.part role part behindPart))
                      (by simp only [List.length_cons]; omega)
                  exact ⟨verdict.value, ⟨verdict, walked, rfl⟩, b, behindPart, answered⟩
                choose! f walks answered using each
                obtain ⟨verdict, walked, value⟩ := meets.2 (mt listed.1 old) f walks
                exact ⟨verdict, walked, value ▸ .inner role old answered⟩

/-- Classification answers for every charted type, as a walk with nothing in progress. -/
theorem classify_answered [g.Tells] (chart : g.Charted nodes) (distinct : g.KeysDistinct nodes)
    (ends : g.WrappersEnd) {p : Option τ} (charted : InChart nodes p) :
    ∃ start verdict, g.Unwraps p start ∧ classify g patterns p = .ok verdict ∧
      g.Answered patterns [] start verdict.value := by
  obtain ⟨start, -, behind⟩ := unwrap_depth chart ends charted
  have idle : g.InProgress patterns nodes [] start := ⟨List.nodup_nil, List.nil_subset _, by simp⟩
  cases p with
  | none =>
      cases behind
      exact ⟨none, unresolved, .unresolved, rfl, .runtimeLeaf rfl⟩
  | some t =>
      obtain ⟨verdict, walked, answered⟩ :=
        walk_answers chart distinct ends (g.depth + 1) [] (some t) start charted behind idle
          (by simp)
      exact ⟨start, verdict, behind, (classify_told patterns t).trans walked, answered⟩

/-- Classification answers for every charted type, with the outcome of reachability. -/
theorem classify_answers [g.Tells] (chart : g.Charted nodes) (distinct : g.KeysDistinct nodes)
    (ends : g.WrappersEnd) {p : Option τ} (charted : InChart nodes p) :
    ∃ start verdict, g.Unwraps p start ∧ classify g patterns p = .ok verdict ∧
      verdict.value = g.reachedValue patterns start := by
  obtain ⟨start, verdict, behind, found, answered⟩ := classify_answered chart distinct ends charted
  exact ⟨start, verdict, behind, found, answered.eq_reachedValue⟩

/-! ## Tables -/

/-- Wrappers end where no listed wrapper stands right inside a listed wrapper. -/
theorem Table.wrappersEnd_of_kind (table : Table)
    (apart : ∀ n ∈ table.nodes, n.kind = .nullable →
      ∀ m ∈ table.resolve n.elem, m.kind ≠ .nullable) :
    table.graph.WrappersEnd := by
  have kind {n m : Node} (step : table.graph.WrapperStep n m) : n.kind = .nullable := by
    have wrapped := step.1
    cases refused : n.refusal with
    | none => rwa [kindOf_graph refused] at wrapped
    | some cause => simp [kindOf, toldOr, graph, refused] at wrapped
  intro t cycle
  obtain ⟨s, -, last⟩ := TransGen.tail'_iff.1 cycle
  obtain ⟨u, first, back⟩ := TransGen.head'_iff.1 cycle
  have listed : t ∈ table.nodes := mem_nodes_of_resolve last.2
  refine apart t listed (kind first) u first.2 ?_
  rcases ReflTransGen.cases_head back with rfl | ⟨_, next, -⟩
  · exact kind first
  · exact kind next

/-- In a table whose types all answer, have keys of their own and end behind their wrappers,
classification of any type, resolved or not, has the outcome of reachability. -/
theorem Table.classify_eq_reachability (table : Table) (patterns : List Pattern)
    (answers : ∀ n ∈ table.nodes, n.refusal = none)
    (distinct : table.graph.KeysDistinct table.nodes) (ends : table.graph.WrappersEnd)
    (id : Option String) :
    ∃ start verdict, table.graph.Unwraps (table.resolve id) start ∧
      classify table.graph patterns (table.resolve id) = .ok verdict ∧
      verdict.value = table.graph.reachedValue patterns start :=
  classify_answers (table.charted answers) distinct ends fun _ found => mem_nodes_of_resolve found

/-- A tree of texts, whose branches may be missing. -/
def Table.tree : Table where
  entries :=
    [("tree", ⟨.composite, "ui.Tree", "ui.Tree", "ui.Tree", none, Flags.empty,
        [⟨"label", false, some "text"⟩, ⟨"left", false, some "branch"⟩,
          ⟨"right", false, some "branch"⟩], [], none⟩),
     ("branch", ⟨.nullable, "*ui.Tree", "*ui.Tree", "", some "tree", Flags.empty, [], [], none⟩),
     ("text", ⟨.primitive, "string", "string", "string", none, Flags.empty, [], [], none⟩)]

theorem Table.tree_reachability :
    (∀ n ∈ tree.nodes, n.refusal = none) ∧ tree.graph.KeysDistinct tree.nodes ∧
      tree.graph.WrappersEnd ∧
      ∃ start verdict, tree.graph.Unwraps (tree.resolve (some "branch")) start ∧
        classify tree.graph [] (tree.resolve (some "branch")) = .ok verdict ∧
        verdict.value = tree.graph.reachedValue [] start := by
  have answers : ∀ n ∈ tree.nodes, n.refusal = none := by
    decide
  have distinct : tree.graph.KeysDistinct tree.nodes := keysDistinct_of_nodup (by decide)
  have ends : tree.graph.WrappersEnd := tree.wrappersEnd_of_kind (by decide)
  exact ⟨answers, distinct, ends,
    Table.classify_eq_reachability tree [] answers distinct ends (some "branch")⟩

end ComposeStability.TypeGraph