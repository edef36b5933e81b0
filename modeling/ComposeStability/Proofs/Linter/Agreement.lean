/-
# Proofs.Linter.Agreement -- the linter and a session find the same

A session reads the markers of all its packages before it analyzes any of them
(`markersOfAll`).  The linter goes from package to package, each with a memory
of its own, and what it knows of other packages are the markers of those that it
checked before.  If each package comes after the packages that it sees
(`InOrder`), then both know the same about the types that a package can lead to
(`sources_agree`), so that they find the same functions and leave out the same
(`checkAll_agrees`).

The linter passes over files whose positions are not known, and a session reads
the markers of their types.  So no type of such a file may have markers
(`MarkersPlaced`); otherwise the two differ (`detached_differs`).
-/
import ComposeStability.Linter.Run
import ComposeStability.Proofs.Program.Visible
import ComposeStability.Proofs.Session.StoredResults

namespace ComposeStability.Linter

set_option autoImplicit false

open Program (Ty Package Packages MarkerSource)
open Session (MarkerIndex Store Stores FunctionKey)
open Stability (Verdict Summary)
open Source (File FuncDecl Layout)

/-! ## Conditions -/

/-- The files of a package whose positions are known. -/
def placedFiles (p : Package) : List File := p.files.filter (·.placed)

/-- A file whose positions are not known declares no type with markers. -/
def MarkersPlaced (p : Package) : Prop :=
  ∀ file ∈ p.files, file.placed = false →
    ∀ spec ∈ file.typeSpecs, (Directive.ofType (spec.2.getD [])).1 = Flags.empty

/-- What a package sees of other packages is done. -/
def Ready (ps : Packages) (targets done : List Package) (p : Package) : Prop :=
  ∀ q ∈ targets, q ≠ p → ps.Sees p.path q.path → q ∈ done

/-- After some packages, each of the others comes after those that it sees. -/
def InOrder (ps : Packages) (targets : List Package) : List Package → List Package → Prop
  | _, [] => True
  | done, p :: rest => Ready ps targets done p ∧ InOrder ps targets (done ++ [p]) rest

/-- Packages of a program in an order in which they can be checked. -/
structure Arranged (ps : Packages) (targets order : List Package) : Prop where
  /-- Paths tell the packages apart. -/
  listed : ∀ p ∈ targets, ps.find? p.path = some p
  perm : order.Perm targets
  sorted : InOrder ps targets [] order

/-- Packages that the type checker accepts: what they declare mentions only what they see. -/
structure TypeChecked (ps : Packages) (targets : List Package) : Prop where
  checked : ∀ p ∈ targets, p.checked
  types : ps.TypesSeen
  receivers : ∀ p ∈ targets, ∀ file ∈ p.files, ∀ f ∈ file.functions, f.checked →
    ∀ t, f.receiverType? = some t → ps.SeenType p.path t
  params : ∀ p ∈ targets, ∀ file ∈ p.files, ∀ f ∈ file.functions, f.checked →
    ∀ v ∈ f.signature.params, ps.SeenType p.path v.type

/-! ## Markers -/

/-- The markers that the linter reads in a package. -/
def ownMarkers (p : Package) : MarkerIndex := (Session.indexTypes p (placedFiles p)).1

/-- The markers that the linter reads in packages in order. -/
def readMarkers (packages : List Package) : MarkerIndex :=
  packages.foldl (fun idx p => ownMarkers p ++ idx) []

theorem readMarkers_snoc (packages : List Package) (p : Package) :
    readMarkers (packages ++ [p]) = ownMarkers p ++ readMarkers packages := by
  rw [readMarkers, List.foldl_append]
  rfl

theorem indexTypes_cons (p : Package) (file : File) (files : List File) :
    (Session.indexTypes p (file :: files)).1 =
      (Session.indexTypes p files).1 ++ (Session.indexTypes p [file]).1 := by
  simp [Session.indexTypes]

/-- Types without markers leave no trace in an index. -/
theorem indexTypes_unmarked (p : Package) {file : File}
    (unmarked : ∀ spec ∈ file.typeSpecs,
      (Directive.ofType (spec.2.getD [])).1 = Flags.empty) :
    (Session.indexTypes p [file]).1 = [] := by
  simp only [Session.indexTypes, List.reverse_eq_nil_iff, List.filterMap_eq_nil_iff, List.mem_map,
    List.flatMap_singleton]
  rintro _ ⟨spec, member, rfl⟩
  rw [unmarked spec member]
  rfl

theorem MarkersPlaced.ownMarkers_eq {p : Package} (located : MarkersPlaced p) :
    ownMarkers p = (Session.indexTypes p p.files).1 := by
  unfold MarkersPlaced at located
  rw [ownMarkers, placedFiles]
  generalize p.files = files at located ⊢
  induction files with
  | nil => rfl
  | cons file files ih =>
      have others := ih fun g member => located g (List.mem_cons_of_mem file member)
      rw [indexTypes_cons p file files]
      by_cases placed : file.placed
      · rw [List.filter_cons_of_pos placed, indexTypes_cons, others]
      · rw [List.filter_cons_of_neg placed, others,
          indexTypes_unmarked p (located file List.mem_cons_self (Bool.eq_false_iff.2 placed)),
          List.append_nil]

/-- A session reads the markers that the linter reads. -/
theorem markersOfAll_eq {targets : List Package} (checked : ∀ p ∈ targets, p.checked)
    (located : ∀ p ∈ targets, MarkersPlaced p) :
    Session.markersOfAll targets = readMarkers targets := by
  refine List.foldl_ext _ _ _ fun idx p member => ?_
  rw [if_pos (checked p member), (located p member).ownMarkers_eq]

theorem ownMarkers_path {p : Package} {e : (String × String) × TypeGraph.Markers}
    (member : e ∈ ownMarkers p) : e.1.1 = p.path := by
  simp only [ownMarkers, Session.indexTypes, List.mem_reverse, List.mem_filterMap] at member
  obtain ⟨⟨name, markers, mistakes⟩, -, kept⟩ := member
  split at kept
  · cases kept
  · obtain rfl := Option.some.inj kept
    rfl

/-- The markers of a type come from the first of two indices if this has an entry for it. -/
theorem get_append (first second : MarkerIndex) (path name : String) :
    ((∃ e ∈ first, e.1 = (path, name)) ∧
        MarkerIndex.get (first ++ second) path name = first.get path name) ∨
      (first.get path name = Flags.empty ∧
        MarkerIndex.get (first ++ second) path name = second.get path name) := by
  unfold MarkerIndex.get
  rw [List.find?_append]
  cases found : first.find? fun e => e.1 == (path, name) with
  | some e =>
      have here := List.find?_some found
      rw [beq_iff_eq] at here
      exact .inl ⟨⟨e, List.mem_of_find?_eq_some found, here⟩, rfl⟩
  | none => exact .inr ⟨rfl, by rw [Option.none_or]⟩

/-- The markers of a type are those that its package puts on it. -/
theorem get_readMarkers (packages : List Package) (path name : String) :
    (∃ p ∈ packages, p.path = path ∧
        (readMarkers packages).get path name = (ownMarkers p).get path name) ∨
      (∀ p ∈ packages, p.path ≠ path) ∧ (readMarkers packages).get path name = Flags.empty := by
  induction packages using List.reverseRecOn with
  | nil => exact .inr ⟨by simp, rfl⟩
  | append_singleton packages p ih =>
      have last : p ∈ packages ++ [p] := List.mem_append_right _ (List.mem_singleton.2 rfl)
      rw [readMarkers_snoc]
      rcases get_append (ownMarkers p) (readMarkers packages) path name with
        ⟨⟨e, member, here⟩, got⟩ | ⟨unmarked, got⟩
      · have own := ownMarkers_path member
        rw [here] at own
        exact .inl ⟨p, last, own.symm, got⟩
      · rcases ih with ⟨q, member, owner, same⟩ | ⟨others, nothing⟩
        · exact .inl ⟨q, List.mem_append_left _ member, owner, got.trans same⟩
        · by_cases owner : p.path = path
          · exact .inl ⟨p, last, owner, got.trans (nothing.trans unmarked.symm)⟩
          · refine .inr ⟨fun q member => ?_, got.trans nothing⟩
            rcases List.mem_append.1 member with earlier | now
            · exact others q earlier
            · rw [List.mem_singleton.1 now]
              exact owner

section
variable {ps : Packages} {layout : Layout} {targets order done : List Package} {p : Package}

/-- A package that comes after what it sees has the facts on all types that it can lead to. -/
theorem sources_agree (listed : ∀ q ∈ targets, ps.find? q.path = some q) (among : done ⊆ targets)
    (member : p ∈ targets) (ready : Ready ps targets done p) {path : String} (name : String)
    (seen : ps.Sees p.path path) :
    (readMarkers targets).source path name =
      markersFrom p.path (ownMarkers p) (readMarkers done) path name := by
  have unique {q r : Package} (first : q ∈ targets) (second : r ∈ targets)
      (same : q.path = r.path) : q = r := by
    have found := listed q first
    rw [same, listed r second] at found
    exact (Option.some.inj found).symm
  refine congrArg Except.ok ?_
  by_cases own : path = p.path
  · subst own
    rw [if_pos (beq_self_eq_true _)]
    rcases get_readMarkers targets p.path name with ⟨q, among', same, got⟩ | ⟨others, -⟩
    · rw [got, unique among' member same]
    · exact absurd rfl (others p member)
  · rw [if_neg (by rwa [beq_iff_eq])]
    rcases get_readMarkers targets path name with ⟨q, among', rfl, got⟩ | ⟨others, nothing⟩
    · have earlier : q ∈ done := ready q among' (fun same => own (congrArg _ same)) seen
      rcases get_readMarkers done q.path name with ⟨r, before, same, got'⟩ | ⟨others, -⟩
      · rw [got, got', unique (among before) among' same]
      · exact absurd rfl (others q earlier)
    · rcases get_readMarkers done path name with ⟨r, before, same, -⟩ | ⟨-, nothing'⟩
      · exact absurd same (others r (among before))
      · rw [nothing, nothing']

/-! ## One package -/

/-- Sources that agree on what a package sees give the same about its functions. -/
theorem TypeChecked.sameBy (typed : TypeChecked ps targets) (member : p ∈ targets)
    (s : Session.Options) {source source' : MarkerSource}
    (agree : ∀ path name, ps.Sees p.path path → source path name = source' path name)
    (behavior : Session.Behavior) :
    Session.Unit.SameBy ⟨ps, layout, p.path, p.files⟩ s source source'
      (Session.Unit.examined ⟨ps, layout, p.path, p.files⟩ behavior) := by
  have matching := (typed.types.closed p.path).matching agree
  intro f examined composable checked
  obtain ⟨file, chosen, among⟩ := List.mem_flatMap.1 examined
  have received := typed.receivers p member file (List.mem_filter.1 chosen).1 f among checked
  have passed := typed.params p member file (List.mem_filter.1 chosen).1 f among checked
  have alike {t : Ty} (seen : ps.SeenType p.path t) :
      Composable.Alike (ps.graph source) (ps.graph source') s.stableTypes (some t) (some t) :=
    Composable.alike_of_matching matching (.some ⟨rfl, seen⟩)
  constructor
  · unfold Packages.skippedReceiver
    cases found : f.receiverType? with
    | none => rfl
    | some t =>
        have base : ps.SeenType p.path (Packages.receiverBase t) := by
          have seen := received t found
          unfold Packages.receiverBase
          split
          · exact seen
          · exact seen
        have marked := matching.markers ⟨rfl, base⟩
        dsimp only
        exact congrArg (Except.map _) marked
  · refine Composable.analyze_alike _ rfl ?_ ?_
    · refine List.forall₂_same.2 fun x given => ⟨rfl, ?_⟩
      obtain ⟨t, found, rfl⟩ := Option.map_eq_some_iff.1 (Option.mem_toList.1 given)
      exact alike (received t found)
    · refine List.forall₂_same.2 fun x given => ⟨rfl, ?_⟩
      obtain ⟨v, listed, rfl⟩ := List.mem_map.1 given
      exact alike (passed v listed)

/-- Files whose positions are not known are not examined. -/
theorem examined_placed (p : Package) (behavior : Session.Behavior) :
    Session.Unit.examined ⟨ps, layout, p.path, placedFiles p⟩ behavior =
      Session.Unit.examined ⟨ps, layout, p.path, p.files⟩ behavior := by
  unfold Session.Unit.examined placedFiles
  dsimp only
  rw [List.filter_filter]
  refine congrArg (List.flatMap _) (List.filter_congr fun file _ => ?_)
  cases placed : file.placed with
  | true => rw [Bool.and_true]
  | false => simp [File.skipped, placed]

/-- What is found does not depend on the files that functions come from. -/
theorem analyzeUnit_placed {μ φ : Type} [Store μ String Verdict] [Store φ FunctionKey Summary]
    (s : Session.State μ φ) (source : MarkerSource) (p : Package) :
    s.analyzeUnit ⟨ps, layout, p.path, placedFiles p⟩ source =
      s.analyzeUnit ⟨ps, layout, p.path, p.files⟩ source := by
  unfold Session.State.analyzeUnit
  rw [examined_placed]
  rfl

/-- What the linter tells about functions. -/
def Outcome.contents (outcome : Outcome) : List Summary × List String :=
  (outcome.functions, outcome.ignored)

/-- The session that checks one package. -/
def sessionOptions (o : Options) : Session.Options where
  behavior := o.behavior
  stableTypes := o.stableTypes
  cacheSize := memorySize

section
variable {μ φ : Type} [Store μ String Verdict] [Store φ FunctionKey Summary] (stores : Stores μ φ)

/-- The linter says of a package what a new session finds, which has the markers of the package and
of those checked before. -/
theorem check_eq (o : Options) (ps : Packages) (layout : Layout) (facts : MarkerIndex)
    (p : Package) :
    ∃ r, ((Session.State.new stores (sessionOptions o)).analyzeUnit
        ⟨ps, layout, p.path, placedFiles p⟩ (markersFrom p.path (ownMarkers p) facts)).1 = .ok r ∧
      check stores o ps layout facts p = .ok (.ofResult o p r) := by
  have answers : (markersFrom p.path (ownMarkers p) facts).Answers := fun _ _ => ⟨_, rfl⟩
  obtain ⟨r, found⟩ := Session.State.analyzeUnit_returns answers
    (Session.State.new stores (sessionOptions o)) ⟨ps, layout, p.path, placedFiles p⟩
  exact ⟨r, found, map_eq_ok.2 ⟨r, mapError_eq_ok.2 found, rfl⟩⟩

variable {stores}

/-- A package that is checked after what it sees is told about as by a new session that has the
markers of all packages. -/
theorem check_agrees (blank : stores.Blank) {o : Options} {s : Session.Options}
    (behavior : s.behavior = o.behavior) (stable : s.stableTypes = o.stableTypes)
    (coherent : Session.Coherent ps (Session.knownIn ps layout targets))
    (listed : ∀ q ∈ targets, ps.find? q.path = some q) (typed : TypeChecked ps targets)
    (located : ∀ q ∈ targets, MarkersPlaced q) (among : done ⊆ targets) (member : p ∈ targets)
    (ready : Ready ps targets done p) :
    ∃ outcome, check stores o ps layout (readMarkers done) p = .ok outcome ∧
      outcome.facts = ownMarkers p ∧
      outcome.contents = (Session.Visit.fresh s ps layout ⟨targets, p⟩).contents := by
  have agree (path name : String) (seen : ps.Sees p.path path) :
      (Session.markersOfAll targets).source path name =
        markersFrom p.path (ownMarkers p) (readMarkers done) path name := by
    rw [markersOfAll_eq typed.checked located]
    exact sources_agree listed among member ready name seen
  have known : Session.Unit.KnownTo ⟨ps, layout, p.path, p.files⟩
      (Session.knownIn ps layout targets)
      (Session.Unit.examined ⟨ps, layout, p.path, p.files⟩ s.behavior) :=
    Session.examined_known member s.behavior
  obtain ⟨same, -⟩ := Session.State.analyzeUnit_covered
    (Session.State.new_honest Stores.bounded_blank s)
    (Session.State.new_honest blank (sessionOptions o)) ⟨behavior, stable⟩
    (coherent.covered known) (coherent.covered known) (typed.sameBy member s agree s.behavior)
  obtain ⟨r, found, checked⟩ := check_eq stores o ps layout (readMarkers done) p
  rw [analyzeUnit_placed, ← same] at found
  have fresh := Session.Visit.fresh_eq s ps layout ⟨targets, p⟩
  obtain rfl : r = Session.Visit.fresh s ps layout ⟨targets, p⟩ :=
    Except.ok.inj (found.symm.trans fresh)
  exact ⟨_, checked, rfl, rfl⟩

/-! ## Packages in order -/

/-- Packages that are checked in order are told about one by one, each with the facts of those
before it. -/
theorem checkAll_contents {o : Options} {rest : List Package}
    {told : Package → List Summary × List String}
    (each : ∀ p done, p ∈ targets → done ⊆ targets → Ready ps targets done p →
      ∃ outcome, check stores o ps layout (readMarkers done) p = .ok outcome ∧
        outcome.facts = ownMarkers p ∧ outcome.contents = told p)
    (sorted : InOrder ps targets done rest) (before : done ⊆ targets) (coming : rest ⊆ targets) :
    ∃ outcomes, checkAll stores o ps layout (readMarkers done) rest = .ok outcomes ∧
      outcomes.map (·.contents) = rest.map told := by
  induction rest generalizing done with
  | nil => exact ⟨[], rfl, rfl⟩
  | cons p rest ih =>
      obtain ⟨ready, later⟩ := sorted
      obtain ⟨member, coming⟩ := List.cons_subset.1 coming
      have grown : done ++ [p] ⊆ targets :=
        List.append_subset.2 ⟨before, List.cons_subset.2 ⟨member, List.nil_subset _⟩⟩
      obtain ⟨outcome, checked, facts, contents⟩ := each p done member before ready
      obtain ⟨outcomes, others, same⟩ := ih later grown coming
      rw [readMarkers_snoc, ← facts] at others
      refine ⟨outcome :: outcomes, ?_, by rw [List.map_cons, List.map_cons, contents, same]⟩
      exact bind_eq_ok.2 ⟨outcome, checked, bind_eq_ok.2 ⟨outcomes, others, rfl⟩⟩

/-- What is paired with an item was made of it. -/
theorem told_of_mem_zip {α β γ : Type} {told : α → γ} {tell : β → γ} {as : List α} {bs : List β}
    (same : bs.map tell = as.map told) {a : α} {b : β} (paired : (a, b) ∈ as.zip bs) :
    tell b = told a := by
  induction as generalizing bs with
  | nil => exact absurd paired List.not_mem_nil
  | cons first as ih =>
      cases bs with
      | nil => exact absurd paired List.not_mem_nil
      | cons made bs =>
          obtain ⟨here, others⟩ := List.cons.inj same
          rcases List.mem_cons.1 paired with now | later
          · obtain ⟨rfl, rfl⟩ := Prod.mk.inj now
            exact here
          · exact ih others later

/-- If packages are checked in an order in which each comes after what it sees, and a session
analyzes them together without stored results, then both tell the same about each package. -/
theorem checkAll_agrees (blank : stores.Blank) {o : Options} {s : Session.Options}
    (arranged : Arranged ps targets order) (typed : TypeChecked ps targets)
    (coherent : Session.Coherent ps (Session.knownIn ps layout targets))
    (located : ∀ p ∈ targets, MarkersPlaced p) (behavior : s.behavior = o.behavior)
    (stable : s.stableTypes = o.stableTypes) (unaided : s.disk = none) (files : FileSystem) :
    ∃ results w outcomes,
      Session.analyze ps layout targets (.start stores s files) = (.ok results, w) ∧
      checkAll stores o ps layout [] order = .ok outcomes ∧
      results.length = targets.length ∧ outcomes.length = order.length ∧
      ∀ p result outcome, (p, result) ∈ targets.zip results → (p, outcome) ∈ order.zip outcomes →
        outcome.functions = result.summaries ∧ outcome.ignored = result.ignored := by
  have each (p : Package) (done : List Package) (member : p ∈ targets) (among : done ⊆ targets)
      (ready : Ready ps targets done p) :=
    check_agrees blank behavior stable coherent arranged.listed typed located among member ready
  obtain ⟨outcomes, checked, contents⟩ : ∃ outcomes,
      checkAll stores o ps layout [] order = .ok outcomes ∧ outcomes.map (·.contents) =
        order.map fun p => (Session.Visit.fresh s ps layout ⟨targets, p⟩).contents :=
    checkAll_contents each arranged.sorted (List.nil_subset _) arranged.perm.subset
  obtain ⟨results, w, analyzed, told⟩ :=
    Session.analyze_plain blank coherent typed.checked unaided files
  refine ⟨results, w, outcomes, analyzed, checked, ?_, ?_, fun p result outcome paired paired' => ?_⟩
  · simpa using congrArg List.length told
  · simpa using congrArg List.length contents
  · have same : outcome.contents = result.contents :=
      (told_of_mem_zip contents paired').trans (told_of_mem_zip told paired).symm
    exact Prod.mk.inj same

end

end

namespace Demo

open Session.Demo (theme ui screen program programLayout program_coherent)

/-! ### A marker in another package -/

theorem theme_sees {path : String} (seen : program.Sees "ex/theme" path) :
    path = "" ∨ path = "ex/theme" := by
  rcases seen with empty | reached
  · exact .inl empty
  · refine .inr ?_
    induction reached with
    | refl => rfl
    | tail _ last ih =>
        obtain ⟨p, found, imported⟩ := last
        rw [ih] at found
        obtain rfl : theme = p := Option.some.inj (Eq.trans rfl found)
        exact absurd imported List.not_mem_nil

theorem program_arranged : Arranged program [ui, theme] [theme, ui] := by
  refine ⟨?_, List.Perm.swap _ _ _, ?_, ?_, trivial⟩
  · intro p member
    rcases List.mem_pair.1 member with rfl | rfl
    · rfl
    · rfl
  · intro q member other seen
    rcases List.mem_pair.1 member with rfl | rfl
    · exact absurd (theme_sees seen) (by decide +kernel)
    · exact absurd rfl other
  · intro q member other _
    rcases List.mem_pair.1 member with rfl | rfl
    · exact absurd rfl other
    · exact List.mem_singleton.2 rfl

theorem ui_function {file : File} {f : FuncDecl} {p : Package} (member : p ∈ [ui, theme])
    (listed : file ∈ p.files) (among : f ∈ file.functions) : p = ui ∧ f = screen := by
  rcases List.mem_pair.1 member with rfl | rfl
  · obtain rfl := List.mem_singleton.1 listed
    exact ⟨rfl, List.mem_singleton.1 among⟩
  · obtain rfl := List.mem_singleton.1 listed
    exact absurd among List.not_mem_nil

theorem program_typed : TypeChecked program [ui, theme] where
  checked p member := by
    rcases List.mem_pair.1 member with rfl | rfl
    · rfl
    · rfl
  types path p found d declared := by
    rcases List.mem_pair.1 (List.mem_of_find?_eq_some found) with rfl | rfl
    · obtain rfl := List.mem_singleton.1 declared
      intro part inside
      obtain rfl | rfl | rfl : part = .name "Color" ∨ part = .label "" ∨ part = .name "int" := by
        simpa [Ty.parts, Ty.methodParts, Ty.signatureParts, Ty.variableParts, Ty.partsOfAll]
          using inside
      all_goals trivial
    · exact absurd declared List.not_mem_nil
  receivers p member file listed f among _ t found := by
    obtain ⟨-, rfl⟩ := ui_function member listed among
    exact absurd (found.symm.trans rfl) (Option.some_ne_none t)
  params p member file listed f among _ v given := by
    obtain ⟨rfl, rfl⟩ := ui_function member listed among
    obtain rfl := List.mem_singleton.1 given
    intro part inside
    obtain rfl | rfl : part = .path "ex/theme" ∨ part = .name "Theme" := by
      simpa [Ty.parts, Ty.partsOfAll] using inside
    · exact .inr (.single ⟨ui, rfl, List.mem_singleton.2 rfl⟩)
    · trivial

theorem program_placed : ∀ p ∈ [ui, theme], MarkersPlaced p := by
  intro p member file listed unplaced
  rcases List.mem_pair.1 member with rfl | rfl
  · obtain rfl := List.mem_singleton.1 listed
    exact absurd unplaced (by decide)
  · obtain rfl := List.mem_singleton.1 listed
    exact absurd unplaced (by decide)

/-- The linter checks the interface first, and a session analyzes it last; both take the function
for skippable. -/
theorem screen_skippable : Arranged program [ui, theme] [theme, ui] ∧
    TypeChecked program [ui, theme] ∧
    Session.Coherent program (Session.knownIn program programLayout [ui, theme]) ∧
    (∀ p ∈ [ui, theme], MarkersPlaced p) ∧
    ∃ results w outcomes,
      Session.analyze program programLayout [ui, theme] (.start .bounded {} {}) =
        (.ok results, w) ∧
      checkAll .bounded {} program programLayout [] [theme, ui] = .ok outcomes ∧
      results.map (fun r => r.summaries.map (·.skippable)) = [[true], []] ∧
      outcomes.map (fun outcome => outcome.functions.map (·.skippable)) = [[], [true]] := by
  have coherent : Session.Coherent program (Session.knownIn program programLayout [ui, theme]) :=
    program_coherent fun p member => List.mem_pair.1 member
  refine ⟨program_arranged, program_typed, coherent, program_placed, ?_⟩
  obtain ⟨results, w, outcomes, analyzed, checked, count, count', agree⟩ :=
    checkAll_agrees (o := {}) (s := {}) Stores.bounded_blank program_arranged program_typed coherent
      program_placed rfl rfl rfl {}
  obtain ⟨results', w', analyzed', answers⟩ :=
    Session.analyze_plain (o := {}) Stores.bounded_blank coherent program_typed.checked rfl {}
  obtain ⟨rfl, rfl⟩ : results = results' ∧ w = w' := by
    have same := analyzed.symm.trans analyzed'
    exact ⟨Except.ok.inj (Prod.mk.inj same).1, (Prod.mk.inj same).2⟩
  obtain ⟨first, second, rfl⟩ := List.length_eq_two.1 count
  obtain ⟨told_theme, told_ui, rfl⟩ := List.length_eq_two.1 count'
  -- what new sessions find, of which only the first contains a function
  have found : first.contents = (Session.Visit.fresh {} program programLayout
      ⟨[ui, theme], ui⟩).contents := (List.cons.inj answers).1
  have found_none : second.contents = ([], []) := (List.cons.inj (List.cons.inj answers).2).1
  rw [Session.Demo.ui_fresh Session.Demo.ui_with_theme] at found
  have skippable : first.summaries.map (·.skippable) = [true] := by
    rw [show first.summaries = _ from congrArg Prod.fst found]
    decide +kernel
  have empty : second.summaries = [] := congrArg Prod.fst found_none
  have agree_ui := (agree ui first _ List.mem_cons_self
    (List.mem_cons_of_mem _ List.mem_cons_self)).1
  have agree_theme := (agree theme second _ (List.mem_cons_of_mem _ List.mem_cons_self)
    List.mem_cons_self).1
  refine ⟨_, w, _, analyzed, checked, ?_, ?_⟩
  · simp only [List.map_cons, List.map_nil, skippable, empty]
  · simp only [List.map_cons, List.map_nil, agree_ui, agree_theme, skippable, empty]

/-! ### A marker in a file whose positions are not known -/

/-- A method of a type whose methods are left out of reports. -/
def draw : FuncDecl where
  keyword := 138
  doc := some [⟨113, "//stableguard:composable"⟩]
  receiver := some [⟨[⟨144, "p"⟩], .named "ex/ui" "Panel" [], ⟨146, "Panel"⟩⟩]
  name := ⟨153, "Draw"⟩
  body := some []
  openBrace := 160
  closeBrace := 161

/-- A package with two files, of which one has no positions. -/
def panels : Package where
  path := "ex/ui"
  name := "ui"
  types := [⟨"Panel", .defined [] (.struct []) []⟩]
  files := [
    { name := "panel.go", base := 1, size := 51, lines := [0, 11, 12, 31], packageName := "ui"
      package := 1
      decls := [.types (some [⟨13, "//stableguard:skip"⟩]) false [⟨⟨37, "Panel"⟩, none⟩]]
      placed := false },
    { name := "draw.go", base := 101, size := 62, lines := [0, 11, 12, 37], packageName := "ui"
      package := 101, decls := [.func draw] }]

theorem panels_arranged : Arranged [panels] [panels] [panels] := by
  refine ⟨fun p member => ?_, List.Perm.refl _, fun q member other _ => ?_, trivial⟩
  · obtain rfl := List.mem_singleton.1 member
    rfl
  · exact absurd (List.mem_singleton.1 member) other

theorem panels_function {file : File} {f : FuncDecl} {p : Package} (member : p ∈ [panels])
    (listed : file ∈ p.files) (among : f ∈ file.functions) : p = panels ∧ f = draw := by
  obtain rfl := List.mem_singleton.1 member
  rcases List.mem_pair.1 listed with rfl | rfl
  · exact absurd among List.not_mem_nil
  · exact ⟨rfl, List.mem_singleton.1 among⟩

theorem panels_typed : TypeChecked [panels] [panels] where
  checked p member := by
    obtain rfl := List.mem_singleton.1 member
    rfl
  types path p found d declared := by
    obtain rfl := List.mem_singleton.1 (List.mem_of_find?_eq_some found)
    obtain rfl := List.mem_singleton.1 declared
    exact fun part inside => absurd inside List.not_mem_nil
  receivers p member file listed f among _ t found := by
    obtain ⟨rfl, rfl⟩ := panels_function member listed among
    obtain rfl : .named "ex/ui" "Panel" [] = t := Option.some.inj (Eq.trans rfl found)
    intro part inside
    obtain rfl | rfl : part = .path "ex/ui" ∨ part = .name "Panel" := by
      simpa [Ty.parts, Ty.partsOfAll] using inside
    · exact Packages.Sees.refl _
    · trivial
  params p member file listed f among _ v given := by
    obtain ⟨rfl, rfl⟩ := panels_function member listed among
    exact absurd given List.not_mem_nil

theorem panels_coherent :
    Session.Coherent [panels] (Session.knownIn [panels] panels.files [panels]) := by
  have function (place : String) (fn : Composable.Function Ty)
      (known : Session.knownIn [panels] panels.files [panels] place fn) :
      fn = Packages.describe [panels] "ex/ui" draw (Session.directivesOf draw) := by
    obtain ⟨p, member, file, listed, f, among, -, -, -, rfl⟩ := known
    obtain ⟨rfl, rfl⟩ := panels_function member listed among
    rfl
  exact Session.Coherent.of_single (.named "ex/ui" "Panel" []) function
    fun t given => Option.some.inj (List.mem_singleton.1 given)

theorem detached_differs : Arranged [panels] [panels] [panels] ∧ TypeChecked [panels] [panels] ∧
    Session.Coherent [panels] (Session.knownIn [panels] panels.files [panels]) ∧
    ∃ results w outcomes,
      Session.analyze [panels] panels.files [panels] (.start .bounded {} {}) = (.ok results, w) ∧
      checkAll .bounded {} [panels] panels.files [] [panels] = .ok outcomes ∧
      results.map (·.ignored) = [["ex/ui.Panel.Draw"]] ∧ outcomes.map (·.ignored) = [[]] := by
  refine ⟨panels_arranged, panels_typed, panels_coherent, ?_⟩
  obtain ⟨results, w, analyzed, answers⟩ := Session.analyze_plain (o := {}) Stores.bounded_blank
    panels_coherent panels_typed.checked rfl {}
  obtain ⟨result, rfl⟩ := List.length_eq_one_iff.1 (by simpa using congrArg List.length answers)
  have analyzed_ignored : result.ignored = (Session.Visit.fresh {} [panels] panels.files
      ⟨[panels], panels⟩).ignored := congrArg Prod.snd (List.cons.inj answers).1
  obtain ⟨r, found, checked⟩ := check_eq Stores.bounded {} [panels] panels.files [] panels
  refine ⟨_, w, [.ofResult {} panels r], analyzed, ?_, ?_, ?_⟩
  · exact bind_eq_ok.2 ⟨_, checked, rfl⟩
  · rw [List.map_cons, List.map_nil, analyzed_ignored, Session.State.analyzeUnit_ignored
      (Session.Visit.fresh_eq {} [panels] panels.files ⟨[panels], panels⟩)]
    decide +kernel
  · have ignored : (Outcome.ofResult {} panels r).ignored = r.ignored := rfl
    rw [List.map_cons, List.map_nil, ignored, Session.State.analyzeUnit_ignored found]
    decide +kernel

end Demo

end ComposeStability.Linter
