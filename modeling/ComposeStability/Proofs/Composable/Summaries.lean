/-
# Proofs.Composable.Summaries -- a summary agrees with the classification

A summary lists what the function was given, item by item, with the outcome that
the classifier found for the type of each, and its flags follow from these
outcomes (`Consistent`).  That an item that is not stable shows a reason is due
to classification: whatever speaks against a type says something
(`classify_explained`).

Several types of a table may share a key.  A classifier that remembers verdicts
by key then answers for all of them as it did for one (`FoundByKey`), and the
summary is consistent with that.
-/
import ComposeStability.Proofs.Composable.Isolation
import ComposeStability.Proofs.TypeGraph.Reasons
import ComposeStability.Proofs.TypeGraph.Termination

namespace ComposeStability.Composable

set_option autoImplicit false

open Session (Store)
open Stability (Verdict Summary Parameter Receiver ReceiverKind)

/-! ## Consistent summaries -/

section
variable {σ τ : Type} {c : Classifier σ τ} {classified : Option τ → Verdict → Prop}
  {strong : Bool} {fn : Function τ}

/-- Everything that a summary lists is stable. -/
def AllStable (s : Summary) : Prop :=
  (∀ p ∈ s.parameters, p.stability = .stable) ∧ ∀ r ∈ s.receivers, r.stability = .stable

/-- A summary that lists what the function is given, each with the outcome for its type and with a
reason unless it is stable, and whose flags follow from that. -/
structure Consistent (typeText : Option τ → Except TypeGraph.Failure String)
    (classified : Option τ → Verdict → Prop) (strong : Bool) (fn : Function τ) (s : Summary) :
    Prop where
  parameters : List.Forall₂ (fun (given : String × Option τ) (shown : Parameter) =>
    (shown.name = given.1 ∧ typeText given.2 = .ok shown.type) ∧
      (∃ v, classified given.2 v ∧ shown.stability = v.value) ∧
      (shown.reason = "" ↔ shown.stability = .stable)) fn.params s.parameters
  receivers : List.Forall₂ (fun (given : ReceiverKind × Option τ) (shown : Receiver) =>
    (shown.kind = given.1 ∧ typeText given.2 = .ok shown.type) ∧
      (∃ v, classified given.2 v ∧ shown.stability = v.value) ∧
      (shown.reason = "" ↔ shown.stability = .stable)) fn.receivers s.receivers
  restartable : s.restartable = !fn.nonRestartable
  skippable : s.skippable = true ↔ s.restartable = true ∧ (strong = true ∨ AllStable s)
  strongSkipping : s.strongSkipping = true ↔ s.skippable = true ∧ ¬ AllStable s

theorem shownReason_eq_empty_iff {verdict : Verdict}
    (explained : verdict.value ≠ .stable → verdict.explain ≠ "") :
    shownReason verdict = "" ↔ verdict.value = .stable := by
  unfold shownReason
  by_cases stable : verdict.value = .stable
  · rw [if_pos stable]
    exact iff_of_true rfl stable
  · rw [if_neg stable]
    exact iff_of_false (explained stable) stable

/-- What is listed for items with a finding each. -/
theorem forall₂_map_zip {α β : Type} {found : Option τ → Finding → Prop}
    {Q : α × Option τ → β → Prop} {make : (α × Option τ) × Finding → β}
    {given : List (α × Option τ)} {findings : List Finding}
    (each : List.Forall₂ (fun x f => found x.2 f) given findings)
    (shown : ∀ x f, found x.2 f → Q x (make (x, f))) :
    List.Forall₂ Q given ((given.zip findings).map make) := by
  induction each with
  | nil => exact .nil
  | cons here _ ih => exact .cons (shown _ _ here) ih

theorem forall_map_zip {α β : Type} {stability : β → Stability.Value}
    {make : (α × Option τ) × Finding → β} {given : List (α × Option τ)} {findings : List Finding}
    (same : given.length = findings.length)
    (shown : ∀ x f, stability (make (x, f)) = f.verdict.value) :
    (∀ b ∈ (given.zip findings).map make, stability b = .stable) ↔
      ∀ f ∈ findings, f.verdict.value = .stable := by
  have findings_eq : (given.zip findings).map Prod.snd = findings :=
    List.map_snd_zip (Nat.le_of_eq same.symm)
  rw [List.forall_mem_map, ← findings_eq, List.forall_mem_map, findings_eq]
  exact forall₂_congr fun x _ => by rw [shown]

/-- What a classifier finds about a type: a verdict, and the text of the type. -/
def Classifier.Finds (c : Classifier σ τ) (classified : Option τ → Verdict → Prop) (t : Option τ)
    (f : Finding) : Prop :=
  classified t f.verdict ∧ c.typeText t = .ok f.text

/-- The summary that is made of findings agrees with them. -/
theorem summarize_consistent {receivers params : List Finding}
    (received : List.Forall₂ (fun given f => c.Finds classified given.2 f) fn.receivers receivers)
    (passed : List.Forall₂ (fun given f => c.Finds classified given.2 f) fn.params params)
    (explained : ∀ t v, classified t v → v.value ≠ .stable → v.explain ≠ "") :
    Consistent c.typeText classified strong fn (summarize strong fn receivers params) := by
  have stable : AllStable (summarize strong fn receivers params) ↔
      (receivers ++ params).all (fun f => f.verdict.value == .stable) = true := by
    simp only [List.all_eq_true, beq_iff_eq, List.forall_mem_append]
    exact (and_congr (forall_map_zip passed.length_eq fun _ _ => rfl)
      (forall_map_zip received.length_eq fun _ _ => rfl)).trans and_comm
  constructor
  case parameters =>
    refine forall₂_map_zip passed fun x f here => ⟨⟨rfl, here.2⟩, ⟨_, here.1, rfl⟩, ?_⟩
    exact shownReason_eq_empty_iff (explained x.2 _ here.1)
  case receivers =>
    refine forall₂_map_zip received fun x f here => ⟨⟨rfl, here.2⟩, ⟨_, here.1, rfl⟩, ?_⟩
    exact shownReason_eq_empty_iff (explained x.2 _ here.1)
  case restartable => rfl
  case skippable =>
    rw [stable]
    simp [summarize]
  case strongSkipping =>
    rw [stable]
    simp only [summarize]
    generalize (receivers ++ params).all (fun f => f.verdict.value == .stable) = all
    cases strong <;> cases fn.nonRestartable <;> cases all <;> decide

/-! ## What a classifier is asked -/

variable {holds : σ → Prop}

/-- Asking a type for its text leaves what is remembered as it is. -/
theorem judge_state (s : σ) (t : Option τ) : (c.judge s t).2 = (c.classify s t).2 := by
  unfold Classifier.judge
  generalize c.classify s t = asked
  obtain ⟨answer, after⟩ := asked
  cases answer <;> rfl

theorem judge_sound {s : σ} {t : Option τ}
    (sound : ∀ v, (c.classify s t).1 = .ok v → classified t v) {f : Finding}
    (found : (c.judge s t).1 = .ok f) : c.Finds classified t f := by
  unfold Classifier.judge at found
  generalize c.classify s t = asked at sound found
  obtain ⟨answer, after⟩ := asked
  cases answer with
  | error failure => cases found
  | ok verdict =>
      dsimp only at found
      cases text : c.typeText t with
      | error failure =>
          rw [text] at found
          cases found
      | ok shown =>
          rw [text] at found
          obtain rfl := Except.ok.inj found
          exact ⟨sound verdict rfl, text⟩

theorem judge_returns {s : σ} {t : Option τ} (classified : ∃ v, (c.classify s t).1 = .ok v)
    (told : ∃ text, c.typeText t = .ok text) : ∃ f, (c.judge s t).1 = .ok f := by
  obtain ⟨v, classified⟩ := classified
  obtain ⟨text, told⟩ := told
  refine ⟨⟨v, text⟩, ?_⟩
  unfold Classifier.judge
  rcases asked : c.classify s t with ⟨answer, after⟩
  rw [asked] at classified
  obtain rfl : answer = .ok v := classified
  simp only [told, Except.map]

theorem analyze_keeps
    (keeps : ∀ s, holds s → ∀ t ∈ givenTypes fn, holds (c.classify s t).2) {s : σ}
    (start : holds s) : holds (analyze c strong s fn).2 := by
  have judged (s : σ) (held : holds s) (t : Option τ) (member : t ∈ givenTypes fn) :
      holds (c.judge s t).2 := by
    rw [judge_state]
    exact keeps s held t member
  have received := askAll_keeps
    (fun s held t member => judged s held t (List.mem_append_left _ member)) start
  unfold analyze
  generalize askAll c.judge s (fn.receivers.map (·.2)) = first at received
  obtain ⟨receivers, after⟩ := first
  cases receivers with
  | error failure => exact received
  | ok receivers =>
      have passed := askAll_keeps
        (fun s held t member => judged s held t (List.mem_append_right _ member)) received
      dsimp only
      generalize askAll c.judge after (fn.params.map (·.2)) = second at passed
      obtain ⟨params, last⟩ := second
      cases params <;> exact passed

/-- A function whose types are all classified and tell their texts has a summary. -/
theorem analyze_returns (returns : ∀ s, ∀ t ∈ givenTypes fn, ∃ v, (c.classify s t).1 = .ok v)
    (told : ∀ t ∈ givenTypes fn, ∃ text, c.typeText t = .ok text) (s : σ) :
    ∃ summary, (analyze c strong s fn).1 = .ok summary := by
  have judged (s : σ) (t : Option τ) (member : t ∈ givenTypes fn) :
      ∃ f, (c.judge s t).1 = .ok f := judge_returns (returns s t member) (told t member)
  obtain ⟨receivers, received⟩ := askAll_returns
    (fun s t member => judged s t (List.mem_append_left _ member)) s
  obtain ⟨params, passed⟩ := askAll_returns
    (fun s t member => judged s t (List.mem_append_right _ member))
    (askAll c.judge s (fn.receivers.map (·.2))).2
  refine ⟨summarize strong fn receivers params, ?_⟩
  rcases first : askAll c.judge s (fn.receivers.map (·.2)) with ⟨answer, after⟩
  rw [first] at received passed
  obtain rfl : answer = .ok receivers := received
  rcases second : askAll c.judge after (fn.params.map (·.2)) with ⟨answer', last⟩
  rw [second] at passed
  obtain rfl : answer' = .ok params := passed
  simp only [analyze, first, second]

/-- The summary of a function agrees with whatever the classifier is sound for. -/
theorem analyze_consistent
    (keeps : ∀ s, holds s → ∀ t ∈ givenTypes fn, holds (c.classify s t).2)
    (sound : ∀ s, holds s → ∀ t ∈ givenTypes fn, ∀ v, (c.classify s t).1 = .ok v →
      classified t v)
    (explained : ∀ t v, classified t v → v.value ≠ .stable → v.explain ≠ "")
    {s : σ} (start : holds s) {summary : Summary}
    (found : (analyze c strong s fn).1 = .ok summary) :
    Consistent c.typeText classified strong fn summary := by
  have kept (s : σ) (held : holds s) (t : Option τ) (member : t ∈ givenTypes fn) :
      holds (c.judge s t).2 := by
    rw [judge_state]
    exact keeps s held t member
  have judged (s : σ) (held : holds s) (t : Option τ) (member : t ∈ givenTypes fn) (f : Finding)
      (found : (c.judge s t).1 = .ok f) : c.Finds classified t f :=
    judge_sound (sound s held t member) found
  have keepsReceivers := fun s held t member => kept s held t (List.mem_append_left _ member)
  have held := askAll_keeps keepsReceivers start
  have received (found : List Finding)
      (answered : (askAll c.judge s (fn.receivers.map (·.2))).1 = .ok found) :
      List.Forall₂ (c.Finds classified) (fn.receivers.map (·.2)) found :=
    askAll_forall₂ keepsReceivers
      (fun s held t member => judged s held t (List.mem_append_left _ member)) start answered
  unfold analyze at found
  generalize askAll c.judge s (fn.receivers.map (·.2)) = first at found held received
  obtain ⟨receivers, after⟩ := first
  cases receivers with
  | error failure => cases found
  | ok receivers =>
      have passed (found : List Finding)
          (answered : (askAll c.judge after (fn.params.map (·.2))).1 = .ok found) :
          List.Forall₂ (c.Finds classified) (fn.params.map (·.2)) found :=
        askAll_forall₂ (fun s held t member => kept s held t (List.mem_append_right _ member))
          (fun s held t member => judged s held t (List.mem_append_right _ member)) held answered
      dsimp only at found
      generalize askAll c.judge after (fn.params.map (·.2)) = second at found passed
      obtain ⟨params, last⟩ := second
      cases params with
      | error failure => cases found
      | ok params =>
          obtain rfl := Except.ok.inj found
          exact summarize_consistent (List.forall₂_map_left_iff.1 (received _ rfl))
            (List.forall₂_map_left_iff.1 (passed _ rfl)) explained

end

/-! ## Classifiers of a type graph -/

theorem classifyMemo_returns {σ τ : Type} {memo : TypeGraph.Memo σ} {g : TypeGraph τ}
    {patterns : List TypeGraph.Pattern} {t : Option τ}
    (classified : ∃ v, TypeGraph.classify g patterns t = .ok v) (s : σ) :
    ∃ v, (TypeGraph.classifyMemo g patterns memo s t).1 = .ok v := by
  obtain ⟨v, classified⟩ := classified
  cases t with
  | none => exact ⟨v, classified⟩
  | some t =>
      cases told : g.key t with
      | error failure =>
          rw [TypeGraph.classify, told] at classified
          cases classified
      | ok key =>
          rcases asked : memo.get s key with ⟨answer, after⟩
          cases answer with
          | some verdict => exact ⟨verdict, by simp only [TypeGraph.classifyMemo, told, asked]⟩
          | none => exact ⟨v, by simp only [TypeGraph.classifyMemo, told, asked, classified]⟩

section
variable {μ τ : Type} [Store μ String Verdict] {g : TypeGraph τ}
  {patterns : List TypeGraph.Pattern} {types : τ → Prop}

/-- The verdict on a type, or on one of these types with the same key. -/
def FoundByKey (g : TypeGraph τ) (patterns : List TypeGraph.Pattern) (types : τ → Prop)
    (t : Option τ) (v : Verdict) : Prop :=
  ∃ u, (∀ w, u = some w → types w) ∧ u.map g.key = t.map g.key ∧
    TypeGraph.classify g patterns u = .ok v

theorem FoundByKey.explained [g.Tells] {t : Option τ} {v : Verdict}
    (found : FoundByKey g patterns types t v) (unstable : v.value ≠ .stable) : v.explain ≠ "" := by
  obtain ⟨u, -, -, classified⟩ := found
  exact TypeGraph.classify_explained classified unstable

/-- A memo of verdicts on these types answers for each of them as for a type with its key. -/
theorem classifyMemo_found {t : Option τ} (among : ∀ u, t = some u → types u) {s : μ}
    (held : Store.Holds (VerdictFor g patterns types) s) :
    Store.Holds (VerdictFor g patterns types) (TypeGraph.classifyMemo g patterns storeMemo s t).2 ∧
      ∀ v, (TypeGraph.classifyMemo g patterns storeMemo s t).1 = .ok v →
        FoundByKey g patterns types t v := by
  cases t with
  | none =>
      refine ⟨held, fun v found => ⟨none, ?_, rfl, found⟩⟩
      exact fun _ missing => nomatch missing
  | some t =>
      cases told : g.key t with
      | error failure =>
          simp only [TypeGraph.classifyMemo, told]
          exact ⟨held, fun v found => nomatch found⟩
      | ok key =>
      have right (verdict : Verdict) : (Store.get s key).1 = some verdict →
          VerdictFor g patterns types key verdict := held.right_of_get
      have kept := held.get key
      rcases asked : Store.get s key with ⟨answer, after⟩
      rw [asked] at kept
      simp only [TypeGraph.classifyMemo, storeMemo, told, asked]
      cases answer with
      | some verdict =>
          obtain ⟨u, other, same, classified⟩ := right verdict (by rw [asked])
          refine ⟨kept, fun v found => ⟨some u, ?_, congrArg some (same.trans told.symm), ?_⟩⟩
          · exact fun w here => Option.some.inj here ▸ other
          · exact classified.trans found
      | none =>
          cases classified : TypeGraph.classify g patterns (some t) with
          | error failure => exact ⟨kept, fun v found => nomatch found⟩
          | ok verdict =>
              refine ⟨kept.add ⟨t, among t rfl, told, classified⟩, fun v found => ?_⟩
              refine ⟨some t, fun w here => Option.some.inj here ▸ among t rfl, rfl, ?_⟩
              exact classified.trans found

/-- While functions over these types are analyzed, the memo holds verdicts on these types only. -/
theorem Reached.found {s : μ} (reached : Reached g patterns types s) :
    Store.Holds (VerdictFor g patterns types) s := by
  induction reached with
  | new blank => exact blank.holds
  | analyzed strong _ given ih =>
      refine analyze_keeps (c := .memoizing g patterns storeMemo) (fun s held t member => ?_) ih
      exact (classifyMemo_found (fun u same => given u (same ▸ member)) held).1

variable [g.Tells] {strong : Bool} {fn : Function τ} {summary : Summary}

theorem analyze_plain_consistent
    (found : (analyze (.plain g patterns) strong () fn).1 = .ok summary) :
    Consistent (Classifier.plain g patterns).typeText
      (fun t v => TypeGraph.classify g patterns t = .ok v) strong fn summary :=
  analyze_consistent (c := .plain g patterns) (fun _ (_ : True) _ _ => trivial)
    (fun _ _ _ _ _ classified => classified)
    (fun _ _ classified => TypeGraph.classify_explained classified) trivial found

theorem analyze_memoizing_consistent (given : GivenOnly types fn) {s : μ}
    (reached : Reached g patterns types s)
    (found : (analyze (.memoizing g patterns storeMemo) strong s fn).1 = .ok summary) :
    Consistent (Classifier.plain g patterns).typeText (FoundByKey g patterns types) strong fn
      summary := by
  have asked (s : μ) (held : Store.Holds (VerdictFor g patterns types) s) (t : Option τ)
      (member : t ∈ givenTypes fn) :=
    classifyMemo_found (fun u same => given u (same ▸ member)) held
  exact analyze_consistent (c := .memoizing g patterns storeMemo)
    (fun s held t member => (asked s held t member).1)
    (fun s held t member => (asked s held t member).2)
    (fun _ _ => FoundByKey.explained) reached.found found

end

/-! ## Tables -/

open TypeGraph (Table Node)

/-- Every summary of a function over a table agrees with the classification of its types, for a
classifier that remembers nothing and for one that remembers verdicts by key since it was new, as
far as keys tell types apart.  If no type refuses to be inspected and wrappers end, there is a
summary. -/
theorem summary_consistent (table : Table) (patterns : List TypeGraph.Pattern) (strong : Bool)
    {fn : Function Node} (given : GivenOnly (· ∈ table.nodes) fn) :
    (∀ summary, (analyze (.plain table.graph patterns) strong () fn).1 = .ok summary →
      Consistent (Classifier.plain table.graph patterns).typeText
        (fun t v => TypeGraph.classify table.graph patterns t = .ok v) strong fn summary) ∧
    (∀ (μ : Type) [Store μ String Verdict] (memo : μ),
      Reached table.graph patterns (· ∈ table.nodes) memo → ∀ summary,
      (analyze (.memoizing table.graph patterns storeMemo) strong memo fn).1 = .ok summary →
      Consistent (Classifier.plain table.graph patterns).typeText
          (FoundByKey table.graph patterns (· ∈ table.nodes)) strong fn summary ∧
        (KeysIdentify table.graph (· ∈ table.nodes) →
          Consistent (Classifier.plain table.graph patterns).typeText
            (fun t v => TypeGraph.classify table.graph patterns t = .ok v) strong fn summary)) ∧
    ((∀ n ∈ table.nodes, n.refusal = none) → table.graph.WrappersEnd →
      (∃ summary, (analyze (.plain table.graph patterns) strong () fn).1 = .ok summary) ∧
      ∀ (μ : Type) [Store μ String Verdict] (memo : μ), ∃ summary,
        (analyze (.memoizing table.graph patterns storeMemo) strong memo fn).1 = .ok summary) := by
  refine ⟨fun _ => analyze_plain_consistent, fun μ _ memo reached summary found => ?_,
    fun answers ends => ?_⟩
  · refine ⟨analyze_memoizing_consistent given reached found, fun identify => ?_⟩
    have same := (analyze_memoizing (fun t member => identify.rightAbout (given t member)) strong
      (reached.holds identify)).1
    exact analyze_plain_consistent (same.symm.trans found)
  have returns : ∀ t ∈ givenTypes fn,
      ∃ v, TypeGraph.classify table.graph patterns t = .ok v := fun t member =>
    TypeGraph.classify_returns (table.charted answers) ends fun n same => given n (same ▸ member)
  have told : ∀ t ∈ givenTypes fn,
      ∃ text, (Classifier.plain table.graph patterns).typeText t = .ok text :=
    fun t _ => ⟨_, typeText_told t⟩
  constructor
  · exact analyze_returns (c := .plain table.graph patterns) (fun _ => returns) told ()
  · exact fun μ _ => analyze_returns (c := .memoizing table.graph patterns storeMemo)
      (fun s t member => classifyMemo_returns (returns t member) s) told

namespace Demo

/-- A view of two types that share a key. -/
def twinsView : Function Node where
  name := "Twins"
  qualifiedName := "ui.Twins"
  visibility := "exported"
  returnType := "()"
  params := [("first", Table.twins.resolve (some "node")),
    ("second", Table.twins.resolve (some "twin")), ("third", none)]

/-- With one slot to remember a verdict in, the summary is that of verdicts found by key. -/
theorem twinsView_consistent :
    GivenOnly (· ∈ Table.twins.nodes) twinsView ∧ ∃ summary,
      (analyze (.memoizing Table.twins.graph [] storeMemo) true smallStore twinsView).1 =
        .ok summary ∧
      Consistent (Classifier.plain Table.twins.graph []).typeText
        (FoundByKey Table.twins.graph [] (· ∈ Table.twins.nodes)) true twinsView summary := by
  have given : GivenOnly (· ∈ Table.twins.nodes) twinsView := by
    intro n member
    have listed : some n = Table.twins.resolve (some "node") ∨
        some n = Table.twins.resolve (some "twin") := by
      simpa [givenTypes, twinsView] using member
    exact listed.elim (fun found => Table.mem_nodes_of_resolve found.symm)
      fun found => Table.mem_nodes_of_resolve found.symm
  have answers : ∀ n ∈ Table.twins.nodes, n.refusal = none := by
    decide
  have ends : Table.twins.graph.WrappersEnd := Table.twins.wrappersEnd_of_kind (by decide)
  obtain ⟨-, consistent, returns⟩ := summary_consistent Table.twins [] true given
  obtain ⟨summary, found⟩ := (returns answers ends).2 (Session.Recency String Verdict) smallStore
  exact ⟨given, summary, found,
    (consistent _ _ (.new (Session.Recency.empty_blank 1)) _ found).1⟩

end Demo

end ComposeStability.Composable
