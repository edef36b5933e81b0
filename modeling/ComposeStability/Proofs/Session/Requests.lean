/-
# Proofs.Session.Requests -- a session answers as a new one would

A session is asked to analyze units, and told when something has changed
(`Request`).  Between two changes, types with the same key have to look the
same, and functions of the same place and name have to be the same
(`Job.Agree`); across a change nothing is required.  Then each unit is answered
for as by a session that has just been started, whatever was analyzed before,
and whatever the stores forget (`serveAll_eq_fresh`).

What a session may remember are the answers about the units since the last
change (`answersAbout`).  They are right about the next unit because its types
and functions match those of the earlier ones (`covered_of_agree`).  Changes are
counted in 64 bits, so that there have to be fewer than that.
-/
import ComposeStability.Proofs.Session.StoredResults

namespace ComposeStability.Session

set_option autoImplicit false

open Stability (Verdict Summary)
open TypeGraph (Failure)
open Program (Ty MarkerSource)

/-! ## Requests -/

/-- A unit to analyze, and where the markers of its types come from. -/
structure Job where
  unit : Unit
  source : MarkerSource

namespace Job

def graph (j : Job) : TypeGraph Ty := j.unit.packages.graph j.source

instance (j : Job) : j.graph.Tells :=
  inferInstanceAs (j.unit.packages.graph j.source).Tells

theorem graph_depth (j : Job) : j.graph.depth = Program.nestingLimit := rfl

/-- The functions that a session is asked about. -/
def asks (j : Job) (behavior : Behavior) : Known := fun place fn =>
  ∃ f ∈ j.unit.examined behavior, (directivesOf f).composable ∧ f.checked ∧
    place = j.unit.layout.describe f.pos ∧
      fn = j.unit.packages.describe j.unit.path f (directivesOf f)

/-- Types with the same key look the same, and functions of the same place and name are the same,
up to types with the same key. -/
structure Agree (behavior : Behavior) (j j' : Job) : Prop where
  types : TypeGraph.SameLooks j.graph (j.asks behavior).types j'.graph (j'.asks behavior).types
  functions : ∀ place fn fn', j.asks behavior place fn → j'.asks behavior place fn' →
    fn.qualifiedName = fn'.qualifiedName → fn.map j.graph.keyOf = fn'.map j'.graph.keyOf

end Job

/-- What a session is asked for. -/
inductive Request where
  | analyze (job : Job)
  /-- Something has changed. -/
  | bump

section
variable {μ φ : Type} [Store μ String Verdict] [Store φ FunctionKey Summary]

/-- Answers a request; a change has no answer. -/
def State.serve (s : State μ φ) : Request → Option (Except Failure Result) × State μ φ
  | .analyze job =>
      let (r, s) := s.analyzeUnit job.unit job.source
      (some r, s)
  | .bump => (none, s.bump)

/-- Answers requests in order. -/
def State.serveAll :
    State μ φ → List Request → List (Option (Except Failure Result)) × State μ φ
  | s, [] => ([], s)
  | s, request :: rest =>
      let (answer, s) := s.serve request
      let (answers, s) := s.serveAll rest
      (answer :: answers, s)

/-- A session with its first stores. -/
def State.start (o : Options) (verdicts : μ) (functions : φ) : State μ φ where
  options := o
  verdicts
  functions

end

/-- How often something has changed. -/
def changes (requests : List Request) : Nat := requests.countP (· matches .bump)

/-- The units between changes. -/
def segments : List Request → List (List Job)
  | [] => [[]]
  | .bump :: rest => [] :: segments rest
  | .analyze job :: rest =>
      match segments rest with
      | [] => [[job]]
      | segment :: later => (job :: segment) :: later

/-- The units between two changes agree. -/
def Consistent (behavior : Behavior) (requests : List Request) : Prop :=
  ∀ segment ∈ segments requests, ∀ j ∈ segment, ∀ j' ∈ segment, j.Agree behavior j'

/-! ## Segments -/

theorem segments_ne_nil (requests : List Request) : segments requests ≠ [] := by
  cases requests with
  | nil => simp [segments]
  | cons request rest =>
      cases request with
      | bump => simp [segments]
      | analyze job =>
          rw [segments]
          split <;> simp

/-- Units in front of requests belong to their first segment. -/
theorem segments_append (jobs : List Job) (requests : List Request) :
    ∃ segment later, segments requests = segment :: later ∧
      segments (jobs.map .analyze ++ requests) = (jobs ++ segment) :: later := by
  induction jobs with
  | nil =>
      obtain ⟨segment, later, found⟩ := List.exists_cons_of_ne_nil (segments_ne_nil requests)
      exact ⟨segment, later, found, found⟩
  | cons job jobs ih =>
      obtain ⟨segment, later, found, extended⟩ := ih
      refine ⟨segment, later, found, ?_⟩
      rw [List.map_cons, List.cons_append, segments, extended]
      rfl

section
variable {behavior : Behavior} {jobs : List Job} {requests : List Request}

theorem Consistent.agree (consistent : Consistent behavior (jobs.map .analyze ++ requests)) :
    ∀ j ∈ jobs, ∀ j' ∈ jobs, j.Agree behavior j' := by
  obtain ⟨segment, later, -, found⟩ := segments_append jobs requests
  intro j member j' member'
  exact consistent (jobs ++ segment) (found ▸ List.mem_cons_self) j
    (List.mem_append_left _ member) j' (List.mem_append_left _ member')

/-- After a change nothing is required of what was before. -/
theorem Consistent.bump
    (consistent : Consistent behavior (jobs.map .analyze ++ .bump :: requests)) :
    Consistent behavior requests := by
  obtain ⟨segment, later, split, found⟩ := segments_append jobs (.bump :: requests)
  obtain ⟨rfl, rfl⟩ := List.cons.inj split
  intro segment member
  exact consistent segment (found ▸ List.mem_cons_of_mem _ member)

end

/-! ## Answers about several units -/

/-- The answers about the functions and types of any of the units. -/
def answersAbout (o : Options) (jobs : List Job) : Expectation where
  verdict key verdict := ∃ j ∈ jobs,
    ((j.asks o.behavior).expectation o j.unit.packages j.source).verdict key verdict
  summary place name summary := ∃ j ∈ jobs,
    ((j.asks o.behavior).expectation o j.unit.packages j.source).summary place name summary

section
variable {o : Options} {j j' : Job}

/-- In units that agree, types with the same key are alike. -/
theorem Job.Agree.alike (agree : j.Agree o.behavior j') {t t' : Option Ty}
    (given : ∀ u, t = some u → (j.asks o.behavior).types u)
    (given' : ∀ u, t' = some u → (j'.asks o.behavior).types u)
    (keys : t.map j.graph.keyOf = t'.map j'.graph.keyOf) :
    Composable.Alike j.graph j'.graph o.stableTypes t t' := by
  have matching := agree.types.matching (j.graph_depth.trans j'.graph_depth.symm)
  exact Composable.alike_of_matching matching (TypeGraph.Twins.of_option
    (fun u here => .given (given u here)) (fun u here => .given (given' u here)) keys)

/-- In units that agree, functions of the same place and name have the same summary. -/
theorem Job.Agree.summary_eq (agree : j.Agree o.behavior j') {place : String}
    {fn fn' : Composable.Function Ty} (asked : j.asks o.behavior place fn)
    (asked' : j'.asks o.behavior place fn') (name : fn.qualifiedName = fn'.qualifiedName) :
    plainSummary o j.unit.packages j.source fn = plainSummary o j'.unit.packages j'.source fn' :=
  Composable.analyze_determined _ (agree.functions place fn fn' asked asked' name)
    fun _ member _ member' keys => agree.alike
      (fun _ here => ⟨place, fn, asked, here ▸ member⟩)
      (fun _ here => ⟨place, fn', asked', here ▸ member'⟩) keys

variable {jobs : List Job}

/-- The answers about units that agree are right about each of them. -/
theorem covered_of_agree (agree : ∀ j ∈ jobs, ∀ j' ∈ jobs, j.Agree o.behavior j')
    (member : j ∈ jobs) :
    j.unit.CoveredBy (answersAbout o jobs) o j.source (j.unit.examined o.behavior) := by
  intro f examined composable checked
  have asked : j.asks o.behavior (j.unit.layout.describe f.pos)
      (j.unit.packages.describe j.unit.path f (directivesOf f)) :=
    ⟨f, examined, composable, checked, rfl, rfl⟩
  refine ⟨fun t given verdict => ?_, fun summary => ?_⟩
  · have here : (j.asks o.behavior).types t := ⟨_, _, asked, given⟩
    constructor
    · rintro ⟨j', member', t', there, same, right⟩
      have alike := (agree j' member' j member).alike
        (fun u found => Option.some.inj found ▸ there) (fun u found => Option.some.inj found ▸ here)
        (congrArg some same)
      exact alike.1.symm.trans right
    · exact fun right => ⟨j, member, t, here, rfl, right⟩
  · constructor
    · rintro ⟨j', member', fn', asked', name, right⟩
      exact ((agree j' member' j member).summary_eq asked' asked name).symm.trans right
    · exact fun right => ⟨j, member, _, asked, rfl, right⟩

end

/-! ## Sessions -/

section
variable {μ φ : Type} [Store μ String Verdict] [Store φ FunctionKey Summary]
  {o : Options} {verdicts : μ} {functions : φ}

/-- What a session that has just been started answers. -/
def Request.freshAnswer (o : Options) (verdicts : μ) (functions : φ) :
    Request → Option (Except Failure Result)
  | .analyze job => some ((State.start o verdicts functions).analyzeUnit job.unit job.source).1
  | .bump => none

/-- A session that has analyzed some units since the last change answers as a new one. -/
theorem serveAll_since (verdictsBlank : Store.Blank verdicts)
    (functionsBlank : Store.Blank functions) {requests : List Request} {jobs : List Job}
    {s : State μ φ} (options : s.options = o) (remembers : s.Remembers (answersAbout o jobs))
    (few : s.version.toNat + changes requests < 2 ^ 64)
    (consistent : Consistent o.behavior (jobs.map .analyze ++ requests)) :
    (s.serveAll requests).1 = requests.map (Request.freshAnswer o verdicts functions) := by
  induction requests generalizing jobs s with
  | nil => rfl
  | cons request requests ih =>
      cases request with
      | bump =>
          have one : changes (.bump :: requests) = changes requests + 1 := List.countP_cons_of_pos rfl
          have room : s.version.toNat + 1 < 2 ^ 64 := by omega
          have fewer : s.bump.version.toNat + changes requests < 2 ^ 64 := by
            rw [State.bump_version room]
            omega
          have later := @ih [] s.bump options (remembers.bump room) fewer consistent.bump
          simp only [State.serveAll, State.serve, List.map_cons, later]
          rfl
      | analyze job =>
          have regrouped : jobs.map .analyze ++ .analyze job :: requests =
              (jobs ++ [job]).map .analyze ++ requests := by simp
          rw [regrouped] at consistent
          have covered := covered_of_agree (o := o) consistent.agree
            (List.mem_append_right jobs List.mem_cons_self)
          have more : s.Remembers (answersAbout o (jobs ++ [job])) := remembers.mono
            (fun _ _ ⟨j, member, right⟩ => ⟨j, List.mem_append_left _ member, right⟩)
            (fun _ _ _ ⟨j, member, right⟩ => ⟨j, List.mem_append_left _ member, right⟩)
          have new :
              (State.start o verdicts functions).Remembers (answersAbout o (jobs ++ [job])) :=
            State.remembers_of_blank verdictsBlank functionsBlank
          subst options
          obtain ⟨same, kept⟩ :=
            State.analyzeUnit_covered more new ⟨rfl, rfl⟩ covered covered (.refl _ _ _ _)
          have continues := s.analyzeUnit_continues job.unit job.source
          have none : changes (.analyze job :: requests) = changes requests :=
            List.countP_cons_of_neg (by simp)
          have fewer : (s.analyzeUnit job.unit job.source).2.version.toNat + changes requests <
              2 ^ 64 := by
            rw [continues.version, ← none]
            exact few
          have later := ih continues.options kept fewer consistent
          simp only [State.serveAll, State.serve, List.map_cons, later]
          rw [Request.freshAnswer, same]

/-- Each unit is analyzed as by a session that has just been started, with any stores that only
give what was added to them. -/
theorem serveAll_eq_fresh (o : Options) (verdictsBlank : Store.Blank verdicts)
    (functionsBlank : Store.Blank functions) {requests : List Request}
    (few : changes requests < 2 ^ 64) (consistent : Consistent o.behavior requests) :
    ((State.start o verdicts functions).serveAll requests).1 =
      requests.map (Request.freshAnswer o verdicts functions) := by
  have nothing : (State.start o verdicts functions).Remembers (answersAbout o []) :=
    State.remembers_of_blank verdictsBlank functionsBlank
  have start : (State.start o verdicts functions).version.toNat + changes requests < 2 ^ 64 := by
    simpa [State.start] using few
  exact serveAll_since verdictsBlank functionsBlank rfl nothing start consistent

end

/-! ## A change of markers -/

namespace Demo

/-- The package of the function, with the markers of some packages. -/
def screenJob (targets : List Program.Package) : Job :=
  ⟨⟨program, programLayout, ui.path, ui.files⟩, (markersOfAll targets).source⟩

/-- The interface, and what it stands for. -/
def themeType : Ty := .named "ex/theme" "Theme" []

@[inherit_doc themeType]
def themeShape : Ty := .interface [⟨"Color", ⟨[], [⟨"", .basic "int"⟩], false⟩⟩] []

section
variable {targets : List Program.Package}

theorem screen_asked {place : String} {fn : Composable.Function Ty}
    (asked : (screenJob targets).asks Flags.empty place fn) : fn = screenFunction := by
  obtain ⟨f, examined, -, -, -, rfl⟩ := asked
  obtain rfl : f = screen := List.mem_singleton.1 examined
  rw [directivesOf, screen_directives]
  rfl

theorem theme_occurs {t : Ty} (occurs : (screenJob targets).graph.Occurs
    ((screenJob targets).asks Flags.empty).types t) : t = themeType ∨ t = themeShape := by
  induction occurs with
  | given known =>
      obtain ⟨place, fn, asked, given⟩ := known
      rw [screen_asked asked] at given
      exact .inl (Option.some.inj (List.mem_singleton.1 given))
  | elem _ found ih =>
      rcases ih with rfl | rfl
      · exact .inr (Option.some.inj (found.symm.trans rfl))
      · exact absurd (found.symm.trans rfl) (Option.some_ne_none _)
  | member _ found _ ih =>
      rcases ih with rfl | rfl
      · exact absurd found List.not_mem_nil
      · exact absurd found List.not_mem_nil
  | supertype _ found ih =>
      rcases ih with rfl | rfl
      · exact absurd found List.not_mem_nil
      · exact absurd found List.not_mem_nil

theorem screen_agrees : (screenJob targets).Agree Flags.empty (screenJob targets) := by
  have differ : program.key themeType ≠ program.key themeShape := by decide +kernel
  refine ⟨fun t t' occurs occurs' keys => ?_, fun place fn fn' asked asked' _ => ?_⟩
  · rcases theme_occurs occurs with rfl | rfl <;> rcases theme_occurs occurs' with rfl | rfl
    · rfl
    · exact absurd keys differ
    · exact absurd keys.symm differ
    · rfl
  · rw [screen_asked asked, screen_asked asked']

end

/-- The function is analyzed twice, then the interface is marked. -/
def screenRequests : List Request :=
  [.analyze (screenJob [ui]), .analyze (screenJob [ui]), .bump, .analyze (screenJob [ui, theme])]

theorem screen_fresh {targets : List Program.Package} {verdict : Verdict}
    (classified : TypeGraph.classify (program.graph (markersOfAll targets).source) []
      (some themeType) = .ok verdict) :
    (((State.new .bounded {}).analyzeUnit (screenJob targets).unit
      (screenJob targets).source).1.map fun r => r.summaries.map (·.skippable)) =
        .ok [verdict.value == .stable] := by
  have found := Visit.fresh_eq {} program programLayout ⟨targets, ui⟩
  rw [ui_fresh classified] at found
  rw [screenJob, found]
  simp [Except.map, Result.summaries, Composable.summarize, screenFunction,
    Program.Packages.describe]

theorem screen_marked : Consistent Flags.empty screenRequests ∧
    ((State.new .bounded {}).serveAll screenRequests).1.map
      (fun answer => answer.map fun found => found.map fun r => r.summaries.map (·.skippable)) =
    [some (.ok [false]), some (.ok [false]), none, some (.ok [true])] := by
  have consistent : Consistent Flags.empty screenRequests := by
    have split : segments screenRequests =
        [[screenJob [ui], screenJob [ui]], [screenJob [ui, theme]]] := rfl
    intro segment member j among j' among'
    rw [split] at member
    obtain ⟨targets, all⟩ : ∃ targets, ∀ j ∈ segment, j = screenJob targets := by
      simp only [List.mem_cons, List.not_mem_nil, or_false] at member
      rcases member with rfl | rfl
      · exact ⟨[ui], by simp⟩
      · exact ⟨[ui, theme], by simp⟩
    rw [all j among, all j' among']
    exact screen_agrees
  refine ⟨consistent, ?_⟩
  have few : changes screenRequests < 2 ^ 64 := by decide
  have answers := serveAll_eq_fresh {} (Recency.empty_blank defaultCacheSize)
    (Recency.empty_blank defaultCacheSize) few consistent
  have before := congrArg some (screen_fresh ui_alone)
  have after := congrArg some (screen_fresh ui_with_theme)
  refine (congrArg _ answers).trans ?_
  exact congr_arg₂ (fun a b => [a, a, none, b]) before after

end Demo

end ComposeStability.Session
