/-
# Proofs.Instrument.Parameters -- the parameters that are reported

A signature groups its parameters, and a summary lists them one by one.  The
position of a name is found by counting what the groups before it declare
(`flatPosition`); a blank or missing name takes a position as well.  Walking
both lists at once, as `paramsOf` does, gives each name the entry at its
position (`paramsOf_described`).

What a target records does not depend on the targets before
(`recordedIn_outcome`), so the counts of a file are those of its targets on
their own (`instrument_counted`), and what is recorded is in the code of the
function afterwards (`instrument_reports`).
-/
import ComposeStability.Proofs.Instrument.Functions
import ComposeStability.Proofs.Instrument.Injection

namespace ComposeStability.Instrument

set_option autoImplicit false

open Source (FieldGroup FuncDecl File Statement)

/-! ## Flattened order -/

/-- The position of a name in flattened order, by the numbers of its group and of the name in it:
behind the variables of the groups before. -/
def flatPosition (groups : List FieldGroup) (k j : Nat) : Nat :=
  ((groups.take k).flatMap (·.toVariables)).length + j

/-- The parameters of a group that can be referred to, with a position for each of its names. -/
def namedOf (g : FieldGroup) (position : Nat → Nat) : List (Nat × String) :=
  g.names.zipIdx.filterMap fun (id, j) =>
    if id.name = "_" then none else some (position j, id.name)

/-- The parameters that can be referred to, each with its position in flattened order. -/
def namedParameters (f : FuncDecl) : List (Nat × String) :=
  f.params.zipIdx.flatMap fun (g, k) => namedOf g (flatPosition f.params k)

/-- The names of groups in flattened order; unnamed parameters have none. -/
def flatNames (groups : List FieldGroup) : List (Option String) :=
  groups.flatMap fun g => if g.names.isEmpty then [none] else g.names.map fun id => some id.name

/-- A parameter that can be referred to has a name other than the blank one. -/
def referable : Option String × Nat → Option (Nat × String)
  | (some name, i) => if name = "_" then none else some (i, name)
  | (none, _) => none

theorem length_flatNames (groups : List FieldGroup) :
    (flatNames groups).length = (groups.flatMap (·.toVariables)).length := by
  simp only [flatNames, List.length_flatMap]
  congr 1
  refine List.map_congr_left fun g _ => ?_
  rw [FieldGroup.toVariables]
  split <;> simp

theorem referable_group (g : FieldGroup) (start : Nat) :
    ((flatNames [g]).zipIdx start).filterMap referable = namedOf g (start + ·) := by
  rw [flatNames, List.flatMap_singleton, namedOf]
  split
  · next none => simp [List.isEmpty_iff.1 none, referable]
  · rw [List.zipIdx_map, List.zipIdx_eq_map_add, List.map_map, List.filterMap_map]
    rfl

/-- Groups from a place on have the positions behind those of the groups before. -/
theorem referable_groups (before rest : List FieldGroup) :
    ((flatNames rest).zipIdx (flatNames before).length).filterMap referable =
      (rest.zipIdx before.length).flatMap fun (g, k) =>
        namedOf g (flatPosition (before ++ rest) k) := by
  induction rest generalizing before with
  | nil => rfl
  | cons g rest ih =>
      have position : flatPosition (before ++ g :: rest) before.length =
          ((flatNames before).length + ·) := by
        funext j
        rw [flatPosition, List.take_left, length_flatNames]
      have first : flatNames (g :: rest) = flatNames [g] ++ flatNames rest :=
        @List.flatMap_append _ _ [g] rest _
      have longer : flatNames (before ++ [g]) = flatNames before ++ flatNames [g] :=
        List.flatMap_append
      have later := ih (before ++ [g])
      rw [longer, List.length_append, List.length_append, List.append_assoc] at later
      rw [first, List.zipIdx_append, List.filterMap_append, referable_group, later, ← position]
      rfl

theorem namedParameters_eq (f : FuncDecl) :
    namedParameters f = (flatNames f.params).zipIdx.filterMap referable :=
  (referable_groups [] f.params).symm

/-! ## Entries -/

/-- A parameter is reported with the type and the stability of the entry at its position. -/
def DescribedBy (entries : List Stability.Parameter) (named : Nat × String) (p : Param) : Prop :=
  ∃ entry, entries[named.1]? = some entry ∧
    p = ⟨named.2, entry.type, some (.ident named.2), entry.stability⟩

/-- The parameter that is reported for a name and an entry. -/
def reportOf : Option String × Stability.Parameter → Option Param
  | (some name, entry) =>
      if name = "_" then none else some ⟨name, entry.type, some (.ident name), entry.stability⟩
  | (none, _) => none

/-- Names and entries that correspond give the reports that the positions ask for. -/
theorem described_zip {names : List (Option String)} (before : List Stability.Parameter)
    {entries : List Stability.Parameter} (complete : entries.length = names.length) :
    List.Forall₂ (DescribedBy (before ++ entries))
      ((names.zipIdx before.length).filterMap referable)
      ((names.zip entries).filterMap reportOf) := by
  induction names generalizing before entries with
  | nil => exact .nil
  | cons name names ih =>
      cases entries with
      | nil => simp at complete
      | cons entry entries =>
          have later := ih (before ++ [entry]) (Nat.succ.inj complete)
          rw [List.length_append, List.append_assoc] at later
          rw [List.zipIdx_cons, List.zip_cons_cons]
          cases name with
          | none => exact later
          | some name =>
              by_cases blank : name = "_"
              · simp only [List.filterMap_cons, referable, reportOf, if_pos blank]
                exact later
              · simp only [List.filterMap_cons, referable, reportOf, if_neg blank]
                exact .cons ⟨entry, by simp, rfl⟩ later

theorem paramsOf_eq (f : FuncDecl) (summary : Stability.Summary) :
    paramsOf f summary = ((flatNames f.params).zip summary.parameters).filterMap reportOf := by
  rw [paramsOf]
  refine congrArg (List.filterMap · _) (funext fun entry => ?_)
  obtain ⟨name, p⟩ := entry
  cases name with
  | none => rfl
  | some name => simp [reportOf]

/-- Exactly the parameters that can be referred to are reported, in order. -/
theorem paramsOf_described {f : FuncDecl} {summary : Stability.Summary}
    (complete : summary.parameters.length = f.signature.params.length) :
    List.Forall₂ (DescribedBy summary.parameters) (namedParameters f) (paramsOf f summary) := by
  rw [namedParameters_eq, paramsOf_eq]
  exact described_zip [] (complete.trans (length_flatNames f.params).symm)

/-! ## What targets record -/

/-- The parameters that a target records in the code that it injects in a function, if it injects
any. -/
def recordedIn (s : Symbols) (t : Target) (fn : FuncDecl) : Option (List Param) :=
  (inject fn t.name t.tag t.threshold (paramsOf fn t.summary) s).map fun _ =>
    paramsOf fn t.summary

/-- The parameters that a target records in a file. -/
def recorded (f : File) (s : Symbols) (t : Target) : Option (List Param) :=
  f.allFunctions[t.function]?.bind (recordedIn s t)

/-- Injected code changes neither the parameters of a function nor whether it has a body. -/
theorem outcome_alike (s : Symbols) (t : Target) (fn : FuncDecl) :
    (outcome s t fn).params = fn.params ∧ ((outcome s t fn).body = none ↔ fn.body = none) := by
  rw [outcome]
  cases made : inject fn t.name t.tag t.threshold (paramsOf fn t.summary) s with
  | none => exact ⟨rfl, Iff.rfl⟩
  | some g =>
      obtain ⟨body, tracked, written, -, -, rfl⟩ := inject_eq_some made
      exact ⟨rfl, by simp [written]⟩

/-- What a target records does not depend on the targets before. -/
theorem recordedIn_outcome (s : Symbols) (t u : Target) (fn : FuncDecl) :
    recordedIn s u (outcome s t fn) = recordedIn s u fn := by
  obtain ⟨params, body⟩ := outcome_alike s t fn
  have same : paramsOf (outcome s t fn) u.summary = paramsOf fn u.summary := by
    rw [paramsOf_eq, paramsOf_eq, params]
  have unfit : inject (outcome s t fn) u.name u.tag u.threshold (paramsOf fn u.summary) s =
      none ↔ inject fn u.name u.tag u.threshold (paramsOf fn u.summary) s = none := by
    rw [inject_eq_none_iff, inject_eq_none_iff, Unfit, Unfit, body]
  rw [recordedIn, recordedIn, same]
  cases before : inject fn u.name u.tag u.threshold (paramsOf fn u.summary) s with
  | none => rw [unfit.2 before]
  | some g =>
      obtain ⟨g', after⟩ := Option.ne_none_iff_exists'.1 (unfit.not.2 (by simp [before]))
      rw [after]
      rfl

theorem recorded_instrumentTarget (s : Symbols) (acc : File × Stats) (t u : Target) :
    recorded (instrumentTarget s acc t).1 s u = recorded acc.1 s u := by
  obtain ⟨f, stats⟩ := acc
  rw [recorded, recorded, instrumentTarget_functions, Option.bind_map]
  refine congrArg (Option.bind _) (funext fun fn => ?_)
  rw [Function.comp_apply]
  split
  · exact recordedIn_outcome s t u fn
  · rfl

/-! ## Counts -/

/-- What a target adds to the counts: it is injected with what it records, or it is skipped. -/
def statsOf : Option (List Param) → Stats
  | some params => { injected := 1, params := params.length }
  | none => { skipped := 1 }

theorem instrumentTarget_stats (s : Symbols) (acc : File × Stats) (t : Target) :
    (instrumentTarget s acc t).2 = acc.2.add (statsOf (recorded acc.1 s t)) := by
  obtain ⟨file, stats⟩ := acc
  rcases instrumentTarget_cases s file stats t with ⟨skipped, same⟩ | ⟨f, g, found, made, same⟩
  · have none : recorded file s t = none := by
      refine Option.bind_eq_none_iff.2 fun f here => ?_
      rw [recordedIn, skipped f here, Option.map_none]
    rw [same, none, statsOf]
  · have some : recorded file s t = some (paramsOf f t.summary) := by
      rw [recorded, found, Option.bind_some, recordedIn, made, Option.map_some]
    rw [same, some, statsOf]

/-- The counts agree with what each target records. -/
structure Counted (stats : Stats) (targets : List Target)
    (record : Target → Option (List Param)) : Prop where
  all : stats.injected + stats.skipped = targets.length
  injected : stats.injected = (targets.filterMap record).length
  params : stats.params = (targets.filterMap record).flatten.length

theorem Counted.cons {stats : Stats} {targets : List Target}
    {record : Target → Option (List Param)} (counted : Counted stats targets record) (t : Target) :
    Counted ((statsOf (record t)).add stats) (t :: targets) record := by
  obtain ⟨all, injected, params⟩ := counted
  cases made : record t with
  | none =>
      have same : (t :: targets).filterMap record = targets.filterMap record :=
        List.filterMap_cons_none made
      constructor <;> simp only [Stats.add, statsOf, same, List.length_cons] <;> omega
  | some list =>
      have first : (t :: targets).filterMap record = list :: targets.filterMap record :=
        List.filterMap_cons_some made
      constructor <;> simp only [Stats.add, statsOf, first, List.flatten_cons, List.length_append,
        List.length_cons] <;> omega

theorem Stats.add_assoc (a b c : Stats) : (a.add b).add c = a.add (b.add c) := by
  simp only [Stats.add, Nat.add_assoc]

/-- Targets one after the other add to the counts what they record. -/
theorem foldl_stats (s : Symbols) (targets : List Target) (acc : File × Stats) :
    ∃ more, (targets.foldl (instrumentTarget s) acc).2 = acc.2.add more ∧
      Counted more targets (recorded acc.1 s) := by
  induction targets generalizing acc with
  | nil => exact ⟨{}, rfl, rfl, rfl, rfl⟩
  | cons t rest ih =>
      obtain ⟨more, later, counted⟩ := ih (instrumentTarget s acc t)
      have same : recorded (instrumentTarget s acc t).1 s = recorded acc.1 s :=
        funext (recorded_instrumentTarget s acc t)
      rw [same] at counted
      refine ⟨_, ?_, counted.cons t⟩
      rw [List.foldl_cons, later, instrumentTarget_stats, Stats.add_assoc]

/-- The counts of a file agree with what its targets record. -/
theorem instrument_counted (f : File) (targets : List Target) (s : Symbols) :
    Counted (instrument f targets s).stats targets (recorded f (symbolsIn f targets s)) := by
  cases targets with
  | nil => exact ⟨rfl, rfl, rfl⟩
  | cons t rest =>
      obtain ⟨more, total, counted⟩ := foldl_stats (symbolsIn f (t :: rest) s) (t :: rest) (f, {})
      have stats : (instrument f (t :: rest) s).stats = more := by
        refine (addRuntime_stats _ _ _).trans (total.trans ?_)
        simp [Stats.add]
      rwa [stats]

/-! ## Injected code -/

/-- A function keeps its body at the end. -/
theorem rewritten_suffix (s : Symbols) (targets : List Target) (n : Nat) {fn : FuncDecl}
    {body : List Statement} (written : fn.body = some body) :
    ∃ longer, (rewritten s targets n fn).body = some longer ∧ body <:+ longer := by
  refine List.foldlRecOn
    (motive := fun done : FuncDecl => ∃ longer, done.body = some longer ∧ body <:+ longer) _ _
    ⟨body, written, List.suffix_rfl⟩ ?_
  rintro done ⟨longer, now, suffix⟩ t -
  split
  · rw [outcome]
    cases made : inject done t.name t.tag t.threshold (paramsOf done t.summary) s with
    | none => exact ⟨longer, now, suffix⟩
    | some g =>
        obtain ⟨body', tracked, before, -, -, rfl⟩ := inject_eq_some made
        obtain rfl : longer = body' := Option.some.inj (now.symm.trans before)
        exact ⟨_, rfl, suffix.trans (List.suffix_append _ _)⟩
  · exact ⟨longer, now, suffix⟩

/-- A function whose code reports parameters for a target, in one piece. -/
def Reports (s : Symbols) (t : Target) (params : List Param) (fn : FuncDecl) : Prop :=
  ∃ body holder tracked, fn.body = some body ∧ trackStatements s holder params = some tracked ∧
    frontStatements s holder t.name t.tag t.threshold tracked <:+: body

/-- What a target records is in the code of its function, whatever the other targets add to it. -/
theorem rewritten_reports {s : Symbols} {targets : List Target} {t : Target}
    (member : t ∈ targets) {fn : FuncDecl} {params : List Param}
    (made : recordedIn s t fn = some params) :
    Reports s t params (rewritten s targets t.function fn) := by
  -- targets before don't change what is recorded, and those behind only add code in front
  induction targets generalizing fn with
  | nil => cases member
  | cons u rest ih =>
      rw [rewritten, List.foldl_cons]
      rcases List.mem_cons.1 member with rfl | later
      · obtain ⟨g, injected, rfl⟩ := Option.map_eq_some_iff.1 made
        obtain ⟨body, tracked, -, -, found, shape⟩ := inject_eq_some injected
        have now : outcome s t fn = g := by rw [outcome, injected, Option.getD_some]
        rw [if_pos rfl, now]
        obtain ⟨longer, written, suffix⟩ := rewritten_suffix s rest t.function
          (congrArg FuncDecl.body shape)
        exact ⟨longer, _, tracked, written, found,
          (List.prefix_append _ _).isInfix.trans suffix.isInfix⟩
      · refine ih later ?_
        split
        · exact (recordedIn_outcome s u t fn).trans made
        · exact made

theorem instrument_reports {f : File} {targets : List Target} {s : Symbols} {t : Target}
    (member : t ∈ targets) {params : List Param}
    (made : recorded f (symbolsIn f targets s) t = some params) :
    ∃ fn, (instrument f targets s).file.allFunctions[t.function]? = some fn ∧
      Reports (symbolsIn f targets s) t params fn := by
  obtain ⟨fn, found, made⟩ := Option.bind_eq_some_iff.1 made
  refine ⟨_, ?_, rewritten_reports member made⟩
  rw [instrument_functions, found]
  rfl

/-- The parameters of a function that can be referred to are reported, in order, each with the
entry at its own position.  The counts of a file agree with what its targets record, which is what
the injected code reports. -/
theorem parameters_recorded {fn : FuncDecl} {summary : Stability.Summary}
    (complete : summary.parameters.length = fn.signature.params.length) (f : File)
    (targets : List Target) (s : Symbols) :
    List.Forall₂ (DescribedBy summary.parameters) (namedParameters fn) (paramsOf fn summary) ∧
      let own := symbolsIn f targets s
      Counted (instrument f targets s).stats targets (recorded f own) ∧
      ∀ t ∈ targets, ∀ params, recorded f own t = some params →
        ∃ fn', (instrument f targets s).file.allFunctions[t.function]? = some fn' ∧
          Reports own t params fn' :=
  ⟨paramsOf_described complete, instrument_counted f targets s,
    fun _ member _ made => instrument_reports member made⟩

namespace Demo

/-- A function with a blank parameter and two parameters of one type. -/
def mixed : FuncDecl where
  name := { name := "Mixed" }
  params :=
    [⟨[{ name := "a" }], .basic "int", { name := "int" }⟩,
      ⟨[{ name := "_" }], .basic "string", { name := "string" }⟩,
      ⟨[{ name := "b" }, { name := "c" }], .slice (.basic "int"), { name := "[]int" }⟩]
  body := some []

/-- The function as it was analyzed. -/
def mixedSummary : Stability.Summary where
  name := "Mixed"
  qualifiedName := "ui.Mixed"
  visibility := "exported"
  returnType := "()"
  restartable := true
  skippable := false
  parameters := [⟨"a", "int", .stable, ""⟩, ⟨"_", "string", .stable, ""⟩,
    ⟨"b", "[]int", .unstable, "slice"⟩, ⟨"c", "[]int", .unstable, "slice"⟩]

/-- A file with the function, and with one that has no body. -/
def mixedFile : File where
  name := "mixed.go"
  base := 1
  size := 60
  lines := [0, 11, 12, 50]
  packageName := "ui"
  package := 1
  decls := [.func mixed, .func { mixed with name := { name := "Absent" }, body := none }]

/-- Targets for both functions. -/
def mixedTargets : List Target :=
  [⟨0, "ui.Mixed", [], 1, mixedSummary⟩, ⟨1, "ui.Absent", [], 1, mixedSummary⟩]

/-- The blank parameter is left out, and those behind it keep their own entries. -/
theorem mixed_recorded :
    mixedSummary.parameters.length = mixed.signature.params.length ∧
      List.Forall₂ (DescribedBy mixedSummary.parameters) [(0, "a"), (2, "b"), (3, "c")]
        (paramsOf mixed mixedSummary) ∧
      (instrument mixedFile mixedTargets Symbols.runtime).stats =
        { injected := 1, skipped := 1, params := 3 } := by
  have described := @parameters_recorded mixed mixedSummary rfl mixedFile mixedTargets
    Symbols.runtime
  exact ⟨rfl, described.1, by decide +kernel⟩

end Demo

end ComposeStability.Instrument
