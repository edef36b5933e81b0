/-
# Proofs.Composable.Classifier -- what the summary of a function depends on

Analysis asks a classifier for the types that a function is given
(`givenTypes`), in order, and for nothing else.  Two classifiers that answer the
same give the same summary (`analyze_agrees`), so a memory that is right about
the types makes no difference (`analyze_memoizing`).  A classifier without a memory
that knows a verdict on each of the types gives the summary with these verdicts
(`analyze_plain`).  Of the types themselves only the keys matter, where these
decide verdicts and texts (`analyze_determined`).
-/
import ComposeStability.Proofs.Composable.Asking
import ComposeStability.Proofs.TypeGraph.Look

namespace ComposeStability.Composable

set_option autoImplicit false

/-! ## Classifiers -/

section
variable {σ τ : Type} {c : Classifier σ τ} {d : Classifier Unit τ}
  {holds : σ → Prop}

/-- The types that a function is given. -/
def givenTypes (fn : Function τ) : List (Option τ) :=
  fn.receivers.map (·.2) ++ fn.params.map (·.2)

theorem typeText_eq (texts : c.text = d.text) (t : Option τ) : c.typeText t = d.typeText t := by
  cases t with
  | none => rfl
  | some t => exact congrFun texts t

theorem judge_agrees {t : Option τ} {s : σ} (texts : c.text = d.text)
    (agree : (c.classify s t).1 = (d.classify () t).1 ∧ holds (c.classify s t).2) :
    (c.judge s t).1 = (d.judge () t).1 ∧ holds (c.judge s t).2 := by
  obtain ⟨same, kept⟩ := agree
  unfold Classifier.judge
  generalize c.classify s t = first at same kept
  generalize d.classify () t = second at same
  obtain ⟨answer, after⟩ := first
  obtain ⟨answer', _⟩ := second
  obtain rfl : answer = answer' := same
  cases answer with
  | error failure => exact ⟨rfl, kept⟩
  | ok verdict => exact ⟨by rw [typeText_eq texts], kept⟩

theorem analyze_agrees {fn : Function τ} (texts : c.text = d.text)
    (agree : ∀ s, holds s → ∀ t ∈ givenTypes fn,
      (c.classify s t).1 = (d.classify () t).1 ∧ holds (c.classify s t).2)
    (strong : Bool) {s : σ} (start : holds s) :
    (analyze c strong s fn).1 = (analyze d strong () fn).1 ∧
      holds (analyze c strong s fn).2 := by
  have judged (s : σ) (other : Unit) (held : holds s) (t : Option τ) (given : t ∈ givenTypes fn) :
      (c.judge s t).1 = (d.judge other t).1 ∧ holds (c.judge s t).2 :=
    judge_agrees texts (agree s held t given)
  have received := askAll_agrees (fun s _ => holds s) (fun s other held t member =>
    judged s other held t (List.mem_append_left _ member)) () start
  unfold analyze
  generalize askAll c.judge s (fn.receivers.map (·.2)) = first at received
  generalize askAll d.judge () (fn.receivers.map (·.2)) = second at received
  obtain ⟨receivers, after⟩ := first
  obtain ⟨receivers', _⟩ := second
  obtain ⟨rfl, held⟩ : receivers = receivers' ∧ holds after := received
  cases receivers with
  | error failure => exact ⟨rfl, held⟩
  | ok receivers =>
      have passed := askAll_agrees (fun s _ => holds s) (fun s other held t member =>
        judged s other held t (List.mem_append_right _ member)) () held
      dsimp only
      generalize askAll c.judge after (fn.params.map (·.2)) = first at passed
      generalize askAll d.judge () (fn.params.map (·.2)) = second at passed
      obtain ⟨params, last⟩ := first
      obtain ⟨params', _⟩ := second
      obtain ⟨rfl, held⟩ : params = params' ∧ holds last := passed
      cases params with
      | error failure => exact ⟨rfl, held⟩
      | ok params => exact ⟨rfl, held⟩

end

/-! ## Analysis with a memory -/

/-- A memo that is right about a type: in the states that hold, its answer for the key of the type
is the verdict on the type, and they still hold after it was asked for the key or given the verdict.
Nothing is said about a type that does not tell its key. -/
structure RightAbout {σ τ : Type} (memo : TypeGraph.Memo σ) (g : TypeGraph τ)
    (patterns : List TypeGraph.Pattern) (holds : σ → Prop) (t : τ) : Prop where
  answer : ∀ s key verdict, g.key t = .ok key → holds s → (memo.get s key).1 = some verdict →
    TypeGraph.classify g patterns (some t) = .ok verdict
  get : ∀ s key, g.key t = .ok key → holds s → holds (memo.get s key).2
  add : ∀ s key verdict, g.key t = .ok key → holds s →
    TypeGraph.classify g patterns (some t) = .ok verdict → holds (memo.add s key verdict)

section
variable {σ τ : Type} {memo : TypeGraph.Memo σ} {g : TypeGraph τ}
  {patterns : List TypeGraph.Pattern} {holds : σ → Prop}

/-- The verdict on a type is the same with a memo that is right about it. -/
theorem classifyMemo_agrees {t : Option τ}
    (right : ∀ u, t = some u → RightAbout memo g patterns holds u) {s : σ} (start : holds s) :
    (TypeGraph.classifyMemo g patterns memo s t).1 = TypeGraph.classify g patterns t ∧
      holds (TypeGraph.classifyMemo g patterns memo s t).2 := by
  cases t with
  | none => exact ⟨rfl, start⟩
  | some t =>
      unfold TypeGraph.classifyMemo
      dsimp only
      cases known : g.key t with
      | error failure => exact ⟨by rw [TypeGraph.classify, known]; rfl, start⟩
      | ok key =>
          have given := (right t rfl).answer s key
          have kept := (right t rfl).get s key known start
          dsimp only
          generalize memo.get s key = asked at given kept
          obtain ⟨answer, after⟩ := asked
          cases answer with
          | some verdict => exact ⟨(given verdict known start rfl).symm, kept⟩
          | none =>
              cases correct : TypeGraph.classify g patterns (some t) with
              | error failure => exact ⟨rfl, kept⟩
              | ok verdict => exact ⟨rfl, (right t rfl).add after key verdict known kept correct⟩

theorem analyze_memoizing {fn : Function τ}
    (right : ∀ t, some t ∈ givenTypes fn → RightAbout memo g patterns holds t) (strong : Bool)
    {s : σ} (start : holds s) :
    (analyze (.memoizing g patterns memo) strong s fn).1 =
        (analyze (.plain g patterns) strong () fn).1 ∧
      holds (analyze (.memoizing g patterns memo) strong s fn).2 :=
  analyze_agrees (c := .memoizing g patterns memo) (d := .plain g patterns) rfl
    (fun _ held _ member => classifyMemo_agrees (fun u same => right u (same ▸ member)) held)
    strong start

end

/-! ## Analysis without a memory -/

section
variable {τ : Type} {g : TypeGraph τ} {patterns : List TypeGraph.Pattern}
  {verdict : Option τ → Stability.Verdict} {fn : Function τ}

/-- What a classifier without a memory finds about a type. -/
def Found (g : TypeGraph τ) (patterns : List TypeGraph.Pattern) (t : Option τ) (f : Finding) :
    Prop :=
  TypeGraph.classify g patterns t = .ok f.verdict ∧
    (Classifier.plain g patterns).typeText t = .ok f.text

theorem judge_eq (s : Unit) (t : Option τ) : (Classifier.plain g patterns).judge s t =
    ((TypeGraph.classify g patterns t).bind fun verdict =>
      ((Classifier.plain g patterns).typeText t).map (⟨verdict, ·⟩), s) := by
  have asked : (Classifier.plain g patterns).classify s t =
      (TypeGraph.classify g patterns t, s) := rfl
  rw [Classifier.judge, asked]
  cases TypeGraph.classify g patterns t <;> rfl

theorem judge_plain {t : Option τ} {f : Finding} :
    ((Classifier.plain g patterns).judge () t).1 = .ok f ↔ Found g patterns t f := by
  obtain ⟨verdict, text⟩ := f
  rw [judge_eq, Found]
  cases TypeGraph.classify g patterns t with
  | error failure => simp [Except.bind]
  | ok other => cases (Classifier.plain g patterns).typeText t <;> simp [Except.bind, Except.map]

/-- Findings on several types are the findings on each of them. -/
theorem askAll_plain {ts : List (Option τ)} {found : List Finding} :
    (askAll (Classifier.plain g patterns).judge () ts).1 = .ok found ↔
      List.Forall₂ (Found g patterns) ts found := by
  induction ts generalizing found with
  | nil => simp [askAll, eq_comm]
  | cons t ts ih =>
      rw [askAll]
      rcases here : (Classifier.plain g patterns).judge () t with ⟨answer, ⟨⟩⟩
      have first (f : Finding) : answer = .ok f ↔ Found g patterns t f := by
        rw [← judge_plain, here]
      rcases later : askAll (Classifier.plain g patterns).judge () ts with ⟨answers, ⟨⟩⟩
      rw [later] at ih
      cases answer with
      | error failure => simp [List.forall₂_cons_left_iff, ← first]
      | ok f =>
          cases answers with
          | error failure => simp [later, List.forall₂_cons_left_iff, ← ih]
          | ok fs => simp [later, List.forall₂_cons_left_iff, ← ih, ← first, eq_comm]

theorem askAll_given {α : Type} {given : List (α × Option τ)} {found : List Finding} :
    (askAll (Classifier.plain g patterns).judge () (given.map (·.2))).1 = .ok found ↔
      List.Forall₂ (fun x f => Found g patterns x.2 f) given found := by
  rw [askAll_plain, List.forall₂_map_left_iff]

/-- A summary is that of the findings on the types that the function is given. -/
theorem analyze_plain_iff {strong : Bool} {s : Stability.Summary} :
    (analyze (.plain g patterns) strong () fn).1 = .ok s ↔
      ∃ receivers params,
        List.Forall₂ (fun given f => Found g patterns given.2 f) fn.receivers receivers ∧
        List.Forall₂ (fun given f => Found g patterns given.2 f) fn.params params ∧
        s = summarize strong fn receivers params := by
  simp only [← askAll_given]
  rw [analyze]
  generalize askAll (Classifier.plain g patterns).judge () (fn.receivers.map (·.2)) = received
  generalize passed : askAll (Classifier.plain g patterns).judge () (fn.params.map (·.2)) = params
  obtain ⟨receivers, ⟨⟩⟩ := received
  obtain ⟨params, ⟨⟩⟩ := params
  cases receivers with
  | error failure => simp
  | ok receivers => cases params <;> simp [passed, eq_comm]

/-- The display form of a type whose text is told. -/
def typeTextOf (g : TypeGraph τ) (t : Option τ) : String :=
  (t.map g.textOf).getD "<unresolved>"

/-- The summary of a function with a verdict on each type that it is given. -/
def summaryWith (g : TypeGraph τ) (strong : Bool) (verdict : Option τ → Stability.Verdict)
    (fn : Function τ) : Stability.Summary :=
  summarize strong fn (fn.receivers.map fun given => ⟨verdict given.2, typeTextOf g given.2⟩)
    (fn.params.map fun given => ⟨verdict given.2, typeTextOf g given.2⟩)

theorem zip_map_self {α β : Type} (f : α → β) (xs : List α) :
    xs.zip (xs.map f) = xs.map fun x => (x, f x) := by
  have paired := List.zip_map' (f := id) (g := f) (l := xs)
  rwa [List.map_id] at paired

/-- With a verdict on each type, the parameters of a summary are those of the function. -/
theorem summaryWith_parameters (strong : Bool) :
    (summaryWith g strong verdict fn).parameters = fn.params.map fun p =>
      ⟨p.1, typeTextOf g p.2, (verdict p.2).value, shownReason (verdict p.2)⟩ := by
  simp only [summaryWith, summarize, zip_map_self]
  exact List.map_map

theorem summaryWith_receivers (strong : Bool) :
    (summaryWith g strong verdict fn).receivers = fn.receivers.map fun r =>
      ⟨typeTextOf g r.2, (verdict r.2).value, shownReason (verdict r.2), r.1⟩ := by
  simp only [summaryWith, summarize, zip_map_self]
  exact List.map_map

theorem summaryWith_skippable (strong : Bool) :
    (summaryWith g strong verdict fn).skippable = (!fn.nonRestartable &&
      (strong || (givenTypes fn).all fun t => (verdict t).value == .stable)) := by
  simp [summaryWith, summarize, givenTypes, List.all_append, List.all_map, Function.comp_def]

variable [g.Tells]

theorem typeText_told (t : Option τ) :
    (Classifier.plain g patterns).typeText t = .ok (typeTextOf g t) := by
  cases t with
  | none => rfl
  | some t => exact TypeGraph.Tells.text t

theorem analyze_plain (strong : Bool)
    (classified : ∀ t ∈ givenTypes fn, TypeGraph.classify g patterns t = .ok (verdict t)) :
    analyze (.plain g patterns) strong () fn = (.ok (summaryWith g strong verdict fn), ()) := by
  refine Prod.ext (analyze_plain_iff.2 ⟨_, _, ?_, ?_, rfl⟩) rfl
  · refine List.forall₂_map_right_iff.2 (List.forall₂_same.2 fun given listed => ⟨?_, ?_⟩)
    · exact classified given.2 (List.mem_append_left _ (List.mem_map_of_mem listed))
    · exact typeText_told given.2
  · refine List.forall₂_map_right_iff.2 (List.forall₂_same.2 fun given listed => ⟨?_, ?_⟩)
    · exact classified given.2 (List.mem_append_right _ (List.mem_map_of_mem listed))
    · exact typeText_told given.2

/-- Each parameter of a summary shows the verdict on its type. -/
theorem summarize_parameters (strong : Bool) (receivers : List Finding) {params : List Finding}
    (each : List.Forall₂ (fun given f => Found g patterns given.2 f) fn.params params) :
    List.Forall₂ (fun given p => ∃ v, TypeGraph.classify g patterns given.2 = .ok v ∧
      p = ⟨given.1, typeTextOf g given.2, v.value, shownReason v⟩)
      fn.params (summarize strong fn receivers params).parameters := by
  simp only [summarize]
  generalize fn.params = given at each ⊢
  induction each with
  | nil => exact .nil
  | @cons given f _ _ here _ ih =>
      have text : f.text = typeTextOf g given.2 := by
        rw [Found, typeText_told] at here
        exact (Except.ok.inj here.2).symm
      refine .cons ⟨f.verdict, here.1, ?_⟩ ih
      rw [← text]

theorem analyzeAll_plain (strong : Bool) {fns : List (Function τ)}
    (classified : ∀ fn ∈ fns, ∀ t ∈ givenTypes fn,
      TypeGraph.classify g patterns t = .ok (verdict t)) :
    analyzeAll (.plain g patterns) strong () fns =
      (fns.map (summaryWith g strong verdict), [], ()) := by
  induction fns with
  | nil => rfl
  | cons fn fns ih =>
      have here := analyze_plain strong (classified fn List.mem_cons_self)
      have later := ih fun other member => classified other (List.mem_cons_of_mem fn member)
      simp only [analyzeAll, here, later, List.map_cons]

end

/-! ## Functions by the keys of their types -/

/-- A function with other names for its types. -/
def Function.map {τ τ' : Type} (rename : τ → τ') (fn : Function τ) : Function τ' where
  name := fn.name
  qualifiedName := fn.qualifiedName
  visibility := fn.visibility
  returnType := fn.returnType
  receivers := fn.receivers.map fun r => (r.1, r.2.map rename)
  params := fn.params.map fun p => (p.1, p.2.map rename)
  nonRestartable := fn.nonRestartable
  readonly := fn.readonly

section
variable {τ τ' : Type} {g : TypeGraph τ} {g' : TypeGraph τ'} {patterns : List TypeGraph.Pattern}

/-- Types of two graphs that cannot be told apart in a summary. -/
def Alike (g : TypeGraph τ) (g' : TypeGraph τ') (patterns : List TypeGraph.Pattern) (t : Option τ)
    (t' : Option τ') : Prop :=
  TypeGraph.classify g patterns t = TypeGraph.classify g' patterns t' ∧
    (Classifier.plain g patterns).typeText t = (Classifier.plain g' patterns).typeText t'

/-- Matching types are alike. -/
theorem alike_of_matching {R : τ → τ' → Prop} (same : TypeGraph.Matching g g' R) {t : Option τ}
    {t' : Option τ'} (related : Option.Rel R t t') : Alike g g' patterns t t' := by
  refine ⟨same.classify_eq related, ?_⟩
  cases related with
  | none => rfl
  | some related => exact same.text related

/-- Items with types that are alike. -/
def AlikeAt (α : Type) (g : TypeGraph τ) (g' : TypeGraph τ') (patterns : List TypeGraph.Pattern)
    (x : α × Option τ) (x' : α × Option τ') : Prop :=
  x.1 = x'.1 ∧ Alike g g' patterns x.2 x'.2

theorem alikeAt_of_keys {α : Type} {given : List (α × Option τ)} {given' : List (α × Option τ')}
    (same : given.map (fun x => (x.1, x.2.map g.keyOf)) =
      given'.map fun x => (x.1, x.2.map g'.keyOf))
    (alike : ∀ t ∈ given.map (·.2), ∀ t' ∈ given'.map (·.2), t.map g.keyOf = t'.map g'.keyOf →
      Alike g g' patterns t t') :
    List.Forall₂ (AlikeAt α g g' patterns) given given' := by
  refine forall₂_of_map_eq same fun x member x' member' here => ?_
  obtain ⟨label, key⟩ := Prod.mk.inj here
  exact ⟨label, alike x.2 (List.mem_map_of_mem member) x'.2 (List.mem_map_of_mem member') key⟩

theorem judge_alike {t : Option τ} {t' : Option τ'} (alike : Alike g g' patterns t t') (s : Unit) :
    (Classifier.plain g patterns).judge s t = (Classifier.plain g' patterns).judge s t' := by
  rw [judge_eq, judge_eq, alike.1, alike.2]

theorem askAll_alikeAt {α : Type} {given : List (α × Option τ)} {given' : List (α × Option τ')}
    (alike : List.Forall₂ (AlikeAt α g g' patterns) given given') (s : Unit) :
    askAll (Classifier.plain g patterns).judge s (given.map (·.2)) =
      askAll (Classifier.plain g' patterns).judge s (given'.map (·.2)) := by
  induction alike generalizing s with
  | nil => rfl
  | cons first _ ih => simp only [List.map_cons, askAll, judge_alike first.2, ih]

/-- What is made of items with a finding each is the same for items that are alike. -/
theorem map_zip_alike {α β γ : Type} {P : α → β → Prop} {make : α × Finding → γ}
    {make' : β × Finding → γ} {as : List α} {bs : List β} (alike : List.Forall₂ P as bs)
    (same : ∀ a b f, P a b → make (a, f) = make' (b, f)) (found : List Finding) :
    (as.zip found).map make = (bs.zip found).map make' := by
  induction alike generalizing found with
  | nil => rfl
  | cons first _ ih =>
      cases found with
      | nil => rfl
      | cons f found =>
          rw [List.zip_cons_cons, List.zip_cons_cons, List.map_cons, List.map_cons,
            same _ _ f first, ih]

/-- Functions that differ in their types only have the same summary, if these are alike. -/
theorem analyze_alike {fn : Function τ} {fn' : Function τ'} (strong : Bool)
    (same : fn.map (fun _ => ()) = fn'.map fun _ => ())
    (received : List.Forall₂ (AlikeAt _ g g' patterns) fn.receivers fn'.receivers)
    (passed : List.Forall₂ (AlikeAt _ g g' patterns) fn.params fn'.params) :
    (analyze (.plain g patterns) strong () fn).1 =
      (analyze (.plain g' patterns) strong () fn').1 := by
  obtain ⟨name, qualifiedName, visibility, returnType, -, -, restart, readonly⟩ :=
    Function.mk.inj same
  have summaries (rs ps : List Finding) :
      summarize strong fn rs ps = summarize strong fn' rs ps := by
    simp only [summarize, name, qualifiedName, visibility, returnType, restart, readonly]
    congr 1
    · exact map_zip_alike passed (fun p p' f here => by simp only [here.1]) ps
    · exact map_zip_alike received (fun r r' f here => by simp only [here.1]) rs
  simp only [analyze, askAll_alikeAt received, askAll_alikeAt passed, summaries]

/-- Functions that differ in their types only have the same summary, if types with the same key
are alike. -/
theorem analyze_determined {fn : Function τ} {fn' : Function τ'} (strong : Bool)
    (same : fn.map g.keyOf = fn'.map g'.keyOf)
    (alike : ∀ t ∈ givenTypes fn, ∀ t' ∈ givenTypes fn', t.map g.keyOf = t'.map g'.keyOf →
      Alike g g' patterns t t') :
    (analyze (.plain g patterns) strong () fn).1 =
      (analyze (.plain g' patterns) strong () fn').1 := by
  obtain ⟨-, -, -, -, receivers, params, -, -⟩ := Function.mk.inj same
  have bare := congrArg (Function.map fun _ => ()) same
  simp only [Function.map, List.map_map, Function.comp_def, Option.map_map] at bare
  refine analyze_alike strong bare ?_ ?_
  · exact alikeAt_of_keys receivers fun t member t' member' =>
      alike t (List.mem_append_left _ member) t' (List.mem_append_left _ member')
  · exact alikeAt_of_keys params fun t member t' member' =>
      alike t (List.mem_append_right _ member) t' (List.mem_append_right _ member')

end

end ComposeStability.Composable
