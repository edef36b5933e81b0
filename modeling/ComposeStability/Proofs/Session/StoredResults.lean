/-
# Proofs.Session.StoredResults -- what runs give that share stored results

Runs are made one after the other, each by a new session, and share a directory
of stored results.  The results of a run depend on the markers of all its
packages, but the key of a stored result does not cover them: a package is
answered for as in the first run that stored it (`keeper`), whatever packages
are with it now.  So a run gives what it would give without the directory if and
only if the markers of that first run led to the same result, for each of its
packages (`run_unchanged_iff`), whatever stores new sessions are given to remember
in.
-/
import ComposeStability.Proofs.Program.Answers
import ComposeStability.Proofs.Session.Keys
import ComposeStability.Proofs.Session.Memory
import ComposeStability.Proofs.TypeGraph.Leaf
import Mathlib.Data.List.Induction

namespace ComposeStability.Session

set_option autoImplicit false

open FileSystem (Place)
open Program (Package Packages)
open Source (Layout)
open Stability (Verdict Summary)

/-! ## Runs -/

/-- A package that is analyzed in a run, with all packages of the run. -/
structure Visit where
  targets : List Package
  package : Package

/-- The packages that one run analyzes. -/
def visitsOf (targets : List Package) : List Visit := targets.map (⟨targets, ·⟩)

section
variable (o : Options) (ps : Packages) (layout : Layout)

/-- What a new session finds. -/
def Visit.fresh (v : Visit) : Result :=
  ((State.new .bounded o).analyzeUnit ⟨ps, layout, v.package.path, v.package.files⟩
    (markersOfAll v.targets).source).1.toOption.getD {}

/-- The result may be stored. -/
def Visit.stores (v : Visit) : Bool :=
  v.package.checked && isStorable v.package (v.fresh o ps layout)

/-- The visit whose result is found for a package later: the first that stored one. -/
def keeper (history : List Visit) (p : Package) : Option Visit :=
  history.find? fun v => v.package.id == p.id && v.stores o ps layout

end

section
variable {μ φ : Type} [Store μ String Verdict] [Store φ FunctionKey Summary] (stores : Stores μ φ)
  (o : Options) (ps : Packages) (layout : Layout)

/-- A session at the start of a run. -/
def Work.start (files : FileSystem) : Work μ φ := { state := State.new stores o, files }

/-- The files after several runs. -/
def filesAfter (files : FileSystem) (runs : List (List Package)) : FileSystem :=
  runs.foldl (fun files targets => (analyze ps layout targets (.start stores o files)).2.files) files

end

/-- What a result tells about functions. -/
def Result.contents (r : Result) : List Stability.Summary × List String := (r.summaries, r.ignored)

theorem contents_ofStored_toStored (r : Result) :
    (Result.ofStored r.toStored).contents = r.contents := by
  simp [Result.contents, Result.ofStored, Result.toStored, Result.summaries, Function.comp_def]

/-- What is stored of a result is read back as it is. -/
theorem readBack_toStored (r : Result) : r.toStored.readBack = r.toStored := by
  simp [Cache.Entry.readBack, Result.toStored, Function.comp_def]

/-! ## Conditions -/

/-- The functions of packages. -/
def knownIn (ps : Packages) (layout : Layout) (packages : List Package) : Known :=
  fun place fn => ∃ p ∈ packages, ∃ file ∈ p.files, ∃ f ∈ file.functions,
    (directivesOf f).composable ∧ f.checked ∧ place = layout.describe f.pos ∧
      fn = ps.describe p.path f (directivesOf f)

/-- Packages and a directory of stored results as runs are given them. -/
structure Suited (o : Options) (ps : Packages) (layout : Layout) (disk : Cache.Disk)
    (files : FileSystem) (place : Place) (visits : List Visit) : Prop where
  /-- Keys tell types apart, and a place has at most one function of a name. -/
  coherent : Coherent ps (knownIn ps layout (visits.map (·.package)))
  /-- Packages have different identifiers. -/
  distinct : ∀ v ∈ visits, ∀ w ∈ visits, v.package.id = w.package.id → v.package = w.package
  short : ∀ v ∈ visits, v.package.id.utf8ByteSize < 2 ^ 64
  /-- All source files can be read. -/
  readable : ∀ v ∈ visits, v.package.checked →
    ∃ items, keyItems o ps files v.package = .ok items
  /-- There are no collisions. -/
  hashed : ∀ v ∈ visits, ∀ w ∈ visits, ∀ items items',
    keyItems o ps files v.package = .ok items → keyItems o ps files w.package = .ok items' →
      Cache.Key.ofItems items = Cache.Key.ofItems items' → Cache.stream items = Cache.stream items'
  /-- Results are within the bounds of the format. -/
  fits : ∀ v ∈ visits, v.stores o ps layout → (v.fresh o ps layout).toStored.Fits
  /-- The directory is there, and empty. -/
  empty : disk.Empty files place

/-! ## Analysis without stored results -/

/-- The markers of packages are told for every type. -/
theorem markersOfAll_answers (targets : List Package) : (markersOfAll targets).source.Answers :=
  fun _ _ => ⟨_, rfl⟩

theorem Visit.fresh_eq (o : Options) (ps : Packages) (layout : Layout) (v : Visit) :
    ((State.new .bounded o).analyzeUnit ⟨ps, layout, v.package.path, v.package.files⟩
      (markersOfAll v.targets).source).1 = .ok (v.fresh o ps layout) := by
  obtain ⟨r, found⟩ := State.analyzeUnit_returns (markersOfAll_answers v.targets)
    (State.new .bounded o) ⟨ps, layout, v.package.path, v.package.files⟩
  rw [Visit.fresh, found]
  rfl

section
variable {μ φ : Type} [Store μ String Verdict] [Store φ FunctionKey Summary] {o : Options}
  {ps : Packages} {layout : Layout} {packages : List Package}

omit [Store μ String Verdict] [Store φ FunctionKey Summary] in
/-- The functions that are examined in one of the packages are known. -/
theorem examined_known {p : Package} (member : p ∈ packages) (behavior : Behavior) :
    Unit.KnownTo ⟨ps, layout, p.path, p.files⟩ (knownIn ps layout packages)
      (Unit.examined ⟨ps, layout, p.path, p.files⟩ behavior) := by
  intro f examined composable checked
  obtain ⟨file, chosen, among⟩ := List.mem_flatMap.1 examined
  exact ⟨p, member, file, (List.mem_filter.1 chosen).1, f, among, composable, checked, rfl, rfl⟩

/-- A session that was at work before finds what a new one finds. -/
theorem analyzeFresh_spec (coherent : Coherent ps (knownIn ps layout packages)) {v : Visit}
    (member : v.package ∈ packages) {w : Work μ φ} (alike : w.state.options.Alike o)
    (honest : w.state.Honest ps (markersOfAll v.targets).source (knownIn ps layout packages)) :
    ∃ w', analyzeFresh ps layout (markersOfAll v.targets).source v.package w =
        (.ok (v.fresh o ps layout), w') ∧ w'.files = w.files ∧
      w'.state.Honest ps (markersOfAll v.targets).source (knownIn ps layout packages) ∧
      w'.state.options = w.state.options := by
  have options := (w.state.analyzeUnit_continues ⟨ps, layout, v.package.path, v.package.files⟩
    (markersOfAll v.targets).source).options
  obtain ⟨same, held⟩ := State.analyzeUnit_agrees
    (u := ⟨ps, layout, v.package.path, v.package.files⟩) coherent honest
    (State.new_honest Stores.bounded_blank o) alike
    (examined_known member w.state.options.behavior)
  rw [Visit.fresh_eq] at same
  unfold analyzeFresh
  generalize w.state.analyzeUnit _ _ = analyzed at same held options
  obtain ⟨answer, state⟩ := analyzed
  obtain rfl : answer = .ok (v.fresh o ps layout) := same
  exact ⟨_, rfl, rfl, held, options⟩

end

/-! ## What is stored -/

section
variable (o : Options) (ps : Packages) (layout : Layout)

/-- In the directory is, for each package, what its keeper left. -/
structure Kept (disk : Cache.Disk) (files : FileSystem) (place : Place)
    (visits history : List Visit) (fs : FileSystem) : Prop where
  ready : disk.Ready fs place
  beside : FileSystem.Beside place files fs
  found : ∀ v ∈ visits, ∀ items, keyItems o ps files v.package = .ok items →
    disk.get fs (.ofItems items) =
      .ok ((keeper o ps layout history v.package).map fun u => (u.fresh o ps layout).toStored)

end

section
variable {o : Options} {ps : Packages} {layout : Layout} {disk : Cache.Disk} {files fs : FileSystem}
  {place : Place} {visits history : List Visit}

theorem keeper_snoc (history : List Visit) (v : Visit) (p : Package) :
    keeper o ps layout (history ++ [v]) p =
      (keeper o ps layout history p).or
        (if v.package.id == p.id && v.stores o ps layout then some v else none) := by
  rw [keeper, List.find?_append, List.find?_singleton]
  rfl

theorem keeper_congr {p q : Package} (same : p.id = q.id) :
    keeper o ps layout history p = keeper o ps layout history q := by
  rw [keeper, same]
  rfl

theorem keeper_stores {p : Package} {v : Visit} (kept : keeper o ps layout history p = some v) :
    v ∈ history ∧ v.package.id = p.id := by
  have found := List.find?_some kept
  simp only [Bool.and_eq_true, beq_iff_eq] at found
  exact ⟨List.mem_of_find?_eq_some kept, found.1⟩

/-- At the start nothing is found. -/
theorem Suited.kept_nil (suited : Suited o ps layout disk files place visits) :
    Kept o ps layout disk files place visits [] files := by
  have ready := suited.empty.ready
  refine ⟨ready, .refl place files, fun v _ items _ => ?_⟩
  rw [ready.get_eq (Cache.Key.ofItems_whole items),
    suited.empty.vacant _ (Cache.Disk.entryPlace_below place _)]
  rfl

/-- A visit that stores nothing new changes nothing. -/
theorem Kept.skip (kept : Kept o ps layout disk files place visits history fs) {v : Visit}
    (idle : v.stores o ps layout = false ∨ (keeper o ps layout history v.package).isSome) :
    Kept o ps layout disk files place visits (history ++ [v]) fs := by
  refine ⟨kept.ready, kept.beside, fun u member items gathered => ?_⟩
  have same : keeper o ps layout (history ++ [v]) u.package =
      keeper o ps layout history u.package := by
    rw [keeper_snoc]
    rcases idle with unstored | answered
    · simp [unstored]
    · by_cases here : v.package.id = u.package.id
      · obtain ⟨earlier, first⟩ := Option.isSome_iff_exists.1 answered
        rw [keeper_congr here] at first
        rw [first, Option.some_or]
      · simp [here]
  rw [same]
  exact kept.found u member items gathered

/-- A visit that stores its result makes it found. -/
theorem Kept.put (suited : Suited o ps layout disk files place visits)
    (kept : Kept o ps layout disk files place visits history fs) {v : Visit} (member : v ∈ visits)
    {items : List Cache.Item} (gathered : keyItems o ps files v.package = .ok items)
    (unkept : keeper o ps layout history v.package = none) (stores : v.stores o ps layout) :
    ∃ fs', disk.put fs (.ofItems items) (v.fresh o ps layout).toStored = (.ok (), fs') ∧
      Kept o ps layout disk files place visits (history ++ [v]) fs' := by
  obtain ⟨fs', written, ready, here, elsewhere, beside⟩ :=
    kept.ready.put_spec (Cache.Key.ofItems_whole items) (v.fresh o ps layout).toStored
  refine ⟨fs', written, ready, kept.beside.trans beside,
    fun u among items' gathered' => ?_⟩
  rw [keeper_snoc]
  by_cases same : v.package.id = u.package.id
  · -- the package was looked up under its own key
    have package := suited.distinct v member u among same
    rw [← package, gathered] at gathered'
    obtain rfl := Except.ok.inj gathered'
    rw [← package, unkept, Option.none_or, if_pos (by simp [stores])]
    have stored := Cache.Disk.entryOf_encode (suited.fits v member stores) rfl
    rw [readBack_toStored] at stored
    exact here.trans stored
  · have differ : Cache.Key.ofItems items' ≠ Cache.Key.ofItems items := by
      intro collide
      have streams := suited.hashed u among v member items' items gathered' gathered collide
      exact same (stream_tells gathered gathered' (suited.short v member) (suited.short u among)
        streams.symm)
    rw [elsewhere _ (Cache.Key.ofItems_whole items') differ, kept.found u among items' gathered']
    simp [same]

/-! ## One package -/

variable {μ φ : Type} [Store μ String Verdict] [Store φ FunctionKey Summary] {stores : Stores μ φ}

/-- A session in the middle of a run, after the visits of a history. -/
structure InRun (o : Options) (ps : Packages) (layout : Layout) (disk : Cache.Disk)
    (files : FileSystem) (place : Place) (visits : List Visit) (targets : List Package)
    (history : List Visit) (w : Work μ φ) : Prop where
  options : w.state.options = { o with disk := some disk }
  honest : w.state.Honest ps (markersOfAll targets).source
    (knownIn ps layout (visits.map (·.package)))
  kept : Kept o ps layout disk files place visits history w.files

/-- A package is answered for as its keeper found it, if it has one. -/
theorem Suited.analyzePackage_spec (suited : Suited o ps layout disk files place visits) {v : Visit}
    (member : v ∈ visits) (checked : v.package.checked) {w : Work μ φ}
    (running : InRun o ps layout disk files place visits v.targets history w) :
    ∃ r w', analyzePackage ps layout (markersOfAll v.targets).source v.package w = (.ok r, w') ∧
      r.contents = (((keeper o ps layout history v.package).getD v).fresh o ps layout).contents ∧
      InRun o ps layout disk files place visits v.targets (history ++ [v]) w' := by
  obtain ⟨items, gathered⟩ := suited.readable v member checked
  have gathered_now : keyItems w.state.options ps w.files v.package = .ok items := by
    rw [running.options]
    exact keyItems_beside running.kept.beside suited.empty.vacant gathered
  have found := running.kept.found v member items gathered
  have hit_or_miss : lookUp disk (.ofItems items) v.package w =
      match keeper o ps layout history v.package with
      | none => (none, w)
      | some u => (some (.ofStored (u.fresh o ps layout).toStored),
          w.note [packageRecord .debug "Cache hit" v.package.path []]) := by
    rw [lookUp, found]
    cases keeper o ps layout history v.package <;> rfl
  have enabled : w.state.options.disk = some disk := by rw [running.options]
  unfold analyzePackage
  rw [enabled]
  dsimp only
  rw [gathered_now]
  dsimp only
  rw [hit_or_miss]
  cases first : keeper o ps layout history v.package with
  | some u =>
      -- nothing is analyzed, so the memory stays as it is
      refine ⟨_, _, rfl, contents_ofStored_toStored _, running.options, running.honest, ?_⟩
      exact running.kept.skip (.inr (by rw [first]; rfl))
  | none =>
      have alike : w.state.options.Alike o := by
        rw [running.options]
        exact ⟨rfl, rfl⟩
      obtain ⟨w', analyzed, same_files, honest, options⟩ := analyzeFresh_spec suited.coherent
        (List.mem_map.2 ⟨v, member, rfl⟩) alike running.honest
      dsimp only
      rw [analyzed]
      dsimp only
      by_cases storable : isStorable v.package (v.fresh o ps layout)
      · have stores : v.stores o ps layout := Bool.and_eq_true_iff.2 ⟨checked, storable⟩
        obtain ⟨fs', written, kept⟩ := running.kept.put suited member gathered first stores
        have stored : store disk (.ofItems items) v.package (v.fresh o ps layout) w' =
            { w' with files := fs' } := by
          unfold store
          rw [same_files, written]
        rw [if_pos storable, stored]
        exact ⟨_, _, rfl, rfl, options.trans running.options, honest, kept⟩
      · have idle : v.stores o ps layout = false := by
          rw [Visit.stores, Bool.eq_false_iff.2 storable, Bool.and_false]
        rw [if_neg storable]
        refine ⟨_, _, rfl, rfl, options.trans running.options, honest, ?_⟩
        rw [same_files]
        exact running.kept.skip (.inl idle)

/-- What the package of a visit is answered, after the visits of a history. -/
def Visit.answer (o : Options) (ps : Packages) (layout : Layout) (history : List Visit)
    (v : Visit) : List Stability.Summary × List String :=
  if v.package.checked then
    (((keeper o ps layout history v.package).getD v).fresh o ps layout).contents
  else ([], [])

theorem Suited.analyzeTarget_spec (suited : Suited o ps layout disk files place visits) {v : Visit}
    (member : v ∈ visits) {w : Work μ φ}
    (running : InRun o ps layout disk files place visits v.targets history w) :
    ∃ r w', analyzeTarget ps layout (markersOfAll v.targets).source v.package w = (.ok r, w') ∧
      r.contents = v.answer o ps layout history ∧
      InRun o ps layout disk files place visits v.targets (history ++ [v]) w' := by
  unfold analyzeTarget Visit.answer
  cases checked : v.package.checked with
  | false =>
      have idle : v.stores o ps layout = false := by rw [Visit.stores, checked, Bool.false_and]
      exact ⟨_, _, rfl, rfl, running.options, running.honest, running.kept.skip (.inl idle)⟩
  | true =>
      obtain ⟨r, w', analyzed, contents, running'⟩ :=
        suited.analyzePackage_spec member checked running
      rw [analyzed]
      exact ⟨_, w', rfl, contents, running'⟩

/-- Visits of one run leave the same result. -/
theorem Suited.answer_in_run (suited : Suited o ps layout disk files place visits)
    {targets done : List Package} (visited : ∀ p ∈ done, ⟨targets, p⟩ ∈ visits) {p : Package}
    (member : ⟨targets, p⟩ ∈ visits) :
    Visit.answer o ps layout (history ++ done.map (⟨targets, ·⟩)) ⟨targets, p⟩ =
      Visit.answer o ps layout history ⟨targets, p⟩ := by
  have same : (keeper o ps layout (history ++ done.map (⟨targets, ·⟩)) p).getD ⟨targets, p⟩ =
      (keeper o ps layout history p).getD ⟨targets, p⟩ := by
    have either : keeper o ps layout (history ++ done.map (⟨targets, ·⟩)) p =
        (keeper o ps layout history p).or (keeper o ps layout (done.map (⟨targets, ·⟩)) p) :=
      List.find?_append
    rw [either]
    cases keeper o ps layout history p with
    | some first => rfl
    | none =>
        -- the package stands in the run more than once, and its first visit was stored
        cases found : keeper o ps layout (done.map (⟨targets, ·⟩)) p with
        | none => rfl
        | some first =>
            obtain ⟨among, id⟩ := keeper_stores found
            obtain ⟨q, earlier, rfl⟩ := List.mem_map.1 among
            have package : q = p := suited.distinct _ (visited q earlier) _ member id
            rw [package]
            rfl
  unfold Visit.answer
  dsimp only
  rw [same]

/-! ## A run -/

/-- The packages of a run are answered for as before the run, with what the run adds kept. -/
theorem Suited.analyzeTargets_spec (suited : Suited o ps layout disk files place visits)
    {targets done rest : List Package} (visited : ∀ p ∈ done, ⟨targets, p⟩ ∈ visits)
    (coming : ∀ p ∈ rest, ⟨targets, p⟩ ∈ visits) {w : Work μ φ}
    (running : InRun o ps layout disk files place visits targets
      (history ++ done.map (⟨targets, ·⟩)) w) :
    ∃ results w',
      analyzeTargets ps layout (markersOfAll targets).source rest w = (.ok results, w') ∧
      results.map (·.contents) = rest.map (fun p => Visit.answer o ps layout history ⟨targets, p⟩) ∧
      InRun o ps layout disk files place visits targets
        (history ++ (done ++ rest).map (⟨targets, ·⟩)) w' := by
  induction rest generalizing done w with
  | nil => exact ⟨[], w, rfl, rfl, by rw [List.append_nil]; exact running⟩
  | cons p rest ih =>
      have member := coming p List.mem_cons_self
      obtain ⟨r, between, first, contents, running'⟩ :=
        suited.analyzeTarget_spec (v := ⟨targets, p⟩) member running
      have visited' : ∀ q ∈ done ++ [p], (⟨targets, q⟩ : Visit) ∈ visits := by
        intro q among
        rcases List.mem_append.1 among with earlier | now
        · exact visited q earlier
        · rw [List.mem_singleton.1 now]
          exact member
      have running_on : InRun o ps layout disk files place visits targets
          (history ++ (done ++ [p]).map (⟨targets, ·⟩)) between := by
        rw [List.map_append, ← List.append_assoc]
        exact running'
      obtain ⟨results, w', later, others, finished⟩ := ih visited'
        (fun q among => coming q (List.mem_cons_of_mem p among)) running_on
      refine ⟨r :: results, w', ?_, ?_, ?_⟩
      · dsimp only at first
        rw [analyzeTargets, first]
        dsimp only
        rw [later]
        rfl
      · rw [List.map_cons, List.map_cons, others, contents, suited.answer_in_run visited member]
      · rw [List.append_assoc, List.singleton_append] at finished
        exact finished

/-- A run on kept results. -/
theorem Suited.analyze_spec (suited : Suited o ps layout disk files place visits)
    (blank : stores.Blank) {targets : List Package} (coming : visitsOf targets ⊆ visits)
    (kept : Kept o ps layout disk files place visits history fs) :
    ∃ results w',
      analyze ps layout targets (.start stores { o with disk := some disk } fs) =
        (.ok results, w') ∧
      results.map (·.contents) =
        targets.map (fun p => Visit.answer o ps layout history ⟨targets, p⟩) ∧
      Kept o ps layout disk files place visits (history ++ visitsOf targets) w'.files := by
  have running : InRun o ps layout disk files place visits targets
      (history ++ [].map (⟨targets, ·⟩)) (.start stores { o with disk := some disk } fs) := by
    refine ⟨rfl, State.new_honest blank _, ?_⟩
    rw [List.map_nil, List.append_nil]
    exact kept
  obtain ⟨results, w', analyzed, contents, finished⟩ := suited.analyzeTargets_spec
    (fun p none => absurd none List.not_mem_nil)
    (fun p among => coming (List.mem_map.2 ⟨p, among, rfl⟩)) running
  exact ⟨results, w', analyzed, contents, finished.kept⟩

/-- After several runs, what is kept is what the first visits left. -/
theorem Suited.filesAfter_kept (suited : Suited o ps layout disk files place visits)
    (blank : stores.Blank) {runs : List (List Package)} (coming : runs.flatMap visitsOf ⊆ visits) :
    Kept o ps layout disk files place visits (runs.flatMap visitsOf)
      (filesAfter stores { o with disk := some disk } ps layout files runs) := by
  induction runs using List.reverseRecOn with
  | nil => exact suited.kept_nil
  | append_singleton runs targets ih =>
      rw [List.flatMap_append, List.flatMap_singleton] at coming ⊢
      have kept := ih fun v member => coming (List.mem_append_left _ member)
      obtain ⟨results, w', analyzed, -, kept'⟩ := suited.analyze_spec blank
        (fun v member => coming (List.mem_append_right _ member)) kept
      rw [filesAfter, List.foldl_append, List.foldl_cons, List.foldl_nil, ← filesAfter, analyzed]
      exact kept'

/-- A run without stored results, from a session that was at work before, finds what new sessions
find. -/
theorem analyzeTargets_plain {packages targets rest : List Package}
    (coherent : Coherent ps (knownIn ps layout packages)) (coming : ∀ p ∈ rest, p ∈ packages)
    {w : Work μ φ} (options : w.state.options = { o with disk := none })
    (honest : w.state.Honest ps (markersOfAll targets).source (knownIn ps layout packages)) :
    ∃ results w',
      analyzeTargets ps layout (markersOfAll targets).source rest w = (.ok results, w') ∧
      results.map (·.contents) = rest.map (fun p => Visit.answer o ps layout [] ⟨targets, p⟩) := by
  induction rest generalizing w with
  | nil => exact ⟨[], w, rfl, rfl⟩
  | cons p rest ih =>
      have member := coming p List.mem_cons_self
      have later := fun q among => coming q (List.mem_cons_of_mem p among)
      have alike : w.state.options.Alike o := by
        rw [options]
        exact ⟨rfl, rfl⟩
      obtain ⟨r, between, first, contents, options', honest'⟩ : ∃ r between,
          analyzeTarget ps layout (markersOfAll targets).source p w = (.ok r, between) ∧
            r.contents = Visit.answer o ps layout [] ⟨targets, p⟩ ∧
            between.state.options = { o with disk := none } ∧
            between.state.Honest ps (markersOfAll targets).source (knownIn ps layout packages) := by
        unfold analyzeTarget Visit.answer
        cases checked : p.checked with
        | false => exact ⟨_, w, rfl, rfl, options, honest⟩
        | true =>
            have disabled : w.state.options.disk = none := by rw [options]
            obtain ⟨w', analyzed, -, honest', options'⟩ := analyzeFresh_spec
              (v := ⟨targets, p⟩) coherent member alike honest
            dsimp only at analyzed
            rw [analyzePackage, disabled, analyzed]
            exact ⟨_, w', rfl, rfl, options'.trans options, honest'⟩
      obtain ⟨results, w', analyzed, others⟩ := ih later options' honest'
      refine ⟨r :: results, w', ?_, ?_⟩
      · rw [analyzeTargets, first]
        dsimp only
        rw [analyzed]
        rfl
      · rw [List.map_cons, List.map_cons, others, contents]

/-- A new session without stored results finds what a new session for each package finds. -/
theorem analyze_plain (blank : stores.Blank) {targets : List Package}
    (coherent : Coherent ps (knownIn ps layout targets)) (checked : ∀ p ∈ targets, p.checked)
    (unaided : o.disk = none) (files : FileSystem) :
    ∃ results w, analyze ps layout targets (.start stores o files) = (.ok results, w) ∧
      results.map (·.contents) =
        targets.map fun p => (Visit.fresh o ps layout ⟨targets, p⟩).contents := by
  have options : o = { o with disk := none } := by rw [← unaided]
  obtain ⟨results, w, analyzed, answers⟩ := Session.analyzeTargets_plain coherent
    (fun _ member => member) (w := .start stores o files) options (State.new_honest blank o)
  refine ⟨results, w, analyzed, answers.trans (List.map_congr_left fun p member => ?_)⟩
  rw [Visit.answer, if_pos (checked p member)]
  rfl

theorem Suited.analyzeTargets_plain (suited : Suited o ps layout disk files place visits)
    {targets rest : List Package} (coming : ∀ p ∈ rest, ⟨targets, p⟩ ∈ visits) {w : Work μ φ}
    (options : w.state.options = { o with disk := none })
    (honest : w.state.Honest ps (markersOfAll targets).source
      (knownIn ps layout (visits.map (·.package)))) :
    ∃ results w',
      analyzeTargets ps layout (markersOfAll targets).source rest w = (.ok results, w') ∧
      results.map (·.contents) = rest.map (fun p => Visit.answer o ps layout [] ⟨targets, p⟩) :=
  Session.analyzeTargets_plain suited.coherent
    (fun p among => List.mem_map.2 ⟨_, coming p among, rfl⟩) options honest

/-- A run that shares stored results with earlier runs succeeds, and so does the same run without
stored results.  They give the same summaries and ignored functions if and only if, for each
package, the first run that stored a result for it would find the same as this run. -/
theorem run_unchanged_iff (blank : stores.Blank) (past : List (List Package))
    (targets : List Package)
    (suited : Suited o ps layout disk files place ((past ++ [targets]).flatMap visitsOf)) :
    ∃ results plain w w',
      analyze ps layout targets (.start stores { o with disk := some disk }
        (filesAfter stores { o with disk := some disk } ps layout files past)) =
          (.ok results, w) ∧
      analyze ps layout targets (.start stores { o with disk := none }
        (filesAfter stores { o with disk := none } ps layout files past)) = (.ok plain, w') ∧
      (results.map (·.contents) = plain.map (·.contents) ↔
        ∀ p ∈ targets, p.checked → ∀ first,
          keeper o ps layout (past.flatMap visitsOf) p = some first →
            (first.fresh o ps layout).contents =
              (Visit.fresh o ps layout ⟨targets, p⟩).contents) := by
  rw [List.flatMap_append, List.flatMap_singleton] at suited
  have kept := suited.filesAfter_kept blank (List.subset_append_left _ _)
  obtain ⟨results, w, analyzed, contents, -⟩ :=
    suited.analyze_spec blank (List.subset_append_right _ _) kept
  obtain ⟨plain, w', unaided, contents'⟩ := suited.analyzeTargets_plain
    (w := .start stores { o with disk := none }
      (filesAfter stores { o with disk := none } ps layout files past))
    (fun p member => List.mem_append_right _ (List.mem_map.2 ⟨p, member, rfl⟩))
    rfl (State.new_honest blank _)
  refine ⟨results, plain, w, w', analyzed, unaided, ?_⟩
  rw [contents, contents', List.map_inj_left]
  refine forall₂_congr fun p member => ?_
  unfold Visit.answer
  by_cases checked : p.checked
  · simp only [checked, if_true]
    cases keeper o ps layout (past.flatMap visitsOf) p with
    | none => simp [keeper]
    | some first => simp [keeper]
  · simp [checked]

end

/-! ## A program of two packages -/

namespace Demo

/-- An interface that is marked stable. -/
def theme : Package where
  path := "ex/theme"
  name := "theme"
  types := [⟨"Theme",
    .defined [] (.interface [⟨"Color", ⟨[], [⟨"", .basic "int"⟩], false⟩⟩] []) []⟩]
  files := [{
    name := "theme.go", base := 1, size := 72, lines := [0, 14, 15, 36], packageName := "theme"
    package := 1
    decls := [.types (some [⟨16, "//stableguard:stable"⟩]) false [⟨⟨42, "Theme"⟩, none⟩]] }]
  sources := ["/src/theme.go"]

/-- A function that is given the interface. -/
def screen : Source.FuncDecl where
  keyword := 158
  doc := some [⟨133, "//stableguard:composable"⟩]
  name := ⟨163, "Screen"⟩
  params := [⟨[⟨170, "t"⟩], .named "ex/theme" "Theme" [], ⟨172, "theme.Theme"⟩⟩]
  body := some []
  openBrace := 185
  closeBrace := 186

def ui : Package where
  path := "ex/ui"
  name := "ui"
  imports := ["ex/theme"]
  files := [{
    name := "ui.go", base := 101, size := 87, lines := [0, 11, 12, 31, 32, 57], packageName := "ui"
    package := 101, decls := [.func screen] }]
  sources := ["/src/ui.go"]

/-- The packages, their files, and an empty directory. -/
def program : Packages := [theme, ui]

@[inherit_doc program]
def programFiles : FileSystem where
  entries := [(["cache"], .dir), (["src"], .dir),
    (["src", "theme.go"], .file (Text.toBytes
      "package theme\n\n//stableguard:stable\ntype Theme interface\x7b Color() int \x7d\n")),
    (["src", "ui.go"], .file (Text.toBytes
      ("package ui\n\nimport \"ex/theme\"\n\n" ++
        "//stableguard:composable\nfunc Screen(t theme.Theme) \x7b\x7d\n")))]

@[inherit_doc program]
def programLayout : Layout := program.flatMap (·.files)

/-- The function as analysis sees it. -/
def screenFunction : Composable.Function Program.Ty :=
  program.describe "ex/ui" screen { composable := true }

theorem theme_classified (targets : List Package) (markers : TypeGraph.Markers)
    (marked : (markersOfAll targets).get "ex/theme" "Theme" = markers)
    (shown : markers.has .runtime = false) (unserialized : markers.has .serializable = false) :
    TypeGraph.classify (program.graph (markersOfAll targets).source) []
        (some (.named "ex/theme" "Theme" [])) =
      .ok (if markers.declareStable then .stable "theme.Theme is declared stable"
        else .unknown "theme.Theme") := by
  have answered : (markersOfAll targets).source "ex/theme" "Theme" = .ok markers :=
    congrArg Except.ok marked
  refine TypeGraph.classify_interface ?_ answered rfl ?_ ?_ unserialized
  · show program.namedKind _ (fun path name args => .ok (program.isEnum path name args))
      "ex/theme" "Theme" [] = .ok .interface
    rw [Program.Packages.namedKind, answered]
    simp only [bind, Except.bind, shown]
    rfl
  · show TypeGraph.isKnownStable [] (program.nameOf (.named "ex/theme" "Theme" [])) = false
    decide +kernel
  · show program.nameOf (.named "ex/theme" "Theme" []) ∉ _ ∧
      program.nameOf (.named "ex/theme" "Theme" []) ∉ _
    decide +kernel

theorem examined_ui : Unit.examined ⟨program, programLayout, ui.path, ui.files⟩
    (State.new .bounded {}).options.behavior = [screen] :=
  rfl

theorem screen_directives : Directive.ofFunction (screen.doc.getD []) =
    ({ composable := true }, []) := by
  decide +kernel

/-- A new session finds one function, with the verdict on the interface. -/
theorem ui_fresh {targets : List Package} {verdict : Stability.Verdict}
    (classified : TypeGraph.classify (program.graph (markersOfAll targets).source) []
      (some (.named "ex/theme" "Theme" [])) = .ok verdict) :
    Visit.fresh {} program programLayout ⟨targets, ui⟩ =
      { path := "ex/ui"
        entries := [⟨Composable.summarize false screenFunction [] [⟨verdict, "theme.Theme"⟩],
          { composable := true }, some screen⟩] } := by
  obtain ⟨after, asked⟩ : ∃ after, (State.new .bounded {}).summarize program
      (markersOfAll targets).source (programLayout.describe screen.pos) screenFunction =
        (.ok (Composable.summarize false screenFunction [] [⟨verdict, "theme.Theme"⟩]), after) := by
    have received : screenFunction.receivers = [] := rfl
    have passed : screenFunction.params = [("t", some (.named "ex/theme" "Theme" []))] := rfl
    have told : (program.graph (markersOfAll targets).source).key
        (.named "ex/theme" "Theme" []) = .ok "ex/theme.Theme" := rfl
    simp only [State.summarize, State.new, Stores.bounded, Recency.empty, State.analyze,
      Composable.analyze, received, passed, List.map_nil, List.map_cons, Composable.askAll,
      Composable.Classifier.judge, Composable.Classifier.memoizing,
      TypeGraph.classifyMemo, told, verdictMemo, classified]
    exact ⟨_, rfl⟩
  have found := examine_answered (u := ⟨program, programLayout, ui.path, ui.files⟩)
    (f := screen) screen_directives rfl rfl rfl asked
  rw [Visit.fresh, State.analyzeUnit, examined_ui]
  simp only [Composable.askAll, found]
  rfl

theorem screen_known {packages : List Package} (among : ∀ p ∈ packages, p = ui ∨ p = theme)
    {place : String} {fn : Composable.Function Program.Ty}
    (known : knownIn program programLayout packages place fn) : fn = screenFunction := by
  obtain ⟨p, member, file, in_files, f, in_functions, -, -, -, rfl⟩ := known
  rcases among p member with rfl | rfl
  · obtain rfl := List.mem_singleton.1 in_files
    obtain rfl : f = screen := List.mem_singleton.1 in_functions
    rw [directivesOf, screen_directives]
    rfl
  · obtain rfl := List.mem_singleton.1 in_files
    exact absurd in_functions List.not_mem_nil

theorem program_coherent {packages : List Package} (among : ∀ p ∈ packages, p = ui ∨ p = theme) :
    Coherent program (knownIn program programLayout packages) := by
  refine Coherent.of_single (.named "ex/theme" "Theme" [])
    (fun _ _ known => screen_known among known) fun t given => ?_
  exact Option.some.inj (List.mem_singleton.1 given)

/-- The directory of stored results. -/
def programDisk : Cache.Disk := ⟨"/cache"⟩

theorem program_empty : programDisk.Empty programFiles ["cache"] := by
  refine ⟨FileSystem.grounded_of_entries (by decide +kernel), ⟨Path.kept_cleaned _, ?_, ?_⟩, ?_, ?_⟩
  · decide +kernel
  · decide +kernel
  · exact fun key whole => programDisk.entryPath_sound whole (by decide +kernel) (by decide +kernel)
      (by decide +kernel)
  · exact FileSystem.vacant_of_entries (by decide +kernel)

/-- First the function alone, then with the interface. -/
def programRuns : List (List Package) := [[ui]] ++ [[ui, theme]]

theorem ui_alone : TypeGraph.classify (program.graph (markersOfAll [ui]).source) []
    (some (.named "ex/theme" "Theme" [])) = .ok (.unknown "theme.Theme") :=
  theme_classified [ui] Flags.empty rfl rfl rfl

theorem ui_with_theme : TypeGraph.classify (program.graph (markersOfAll [ui, theme]).source) []
    (some (.named "ex/theme" "Theme" [])) = .ok (.stable "theme.Theme is declared stable") :=
  theme_classified [ui, theme] _ rfl (by decide +kernel) (by decide +kernel)

theorem program_keys :
    ∃ items items', keyItems {} program programFiles ui = .ok items ∧
      keyItems {} program programFiles theme = .ok items' ∧
      Cache.Key.ofItems items ≠ Cache.Key.ofItems items' := by
  have gathered : ((keyItems {} program programFiles ui).toOption.bind fun items =>
      (keyItems {} program programFiles theme).toOption.map fun items' =>
        decide (Cache.Key.ofItems items = Cache.Key.ofItems items')) = some false := by
    decide +kernel
  cases first : keyItems {} program programFiles ui with
  | error failure => simp [first, Except.toOption] at gathered
  | ok items =>
      cases second : keyItems {} program programFiles theme with
      | error failure => simp [second, Except.toOption] at gathered
      | ok items' =>
          refine ⟨items, items', rfl, rfl, ?_⟩
          simpa [first, second, Except.toOption] using gathered

theorem program_visits {v : Visit} (member : v ∈ programRuns.flatMap visitsOf) :
    v = ⟨[ui], ui⟩ ∨ v = ⟨[ui, theme], ui⟩ ∨ v = ⟨[ui, theme], theme⟩ := by
  simpa [programRuns, visitsOf] using member

theorem program_suited : Suited {} program programLayout programDisk programFiles ["cache"]
    (programRuns.flatMap visitsOf) := by
  obtain ⟨items, items', gathered, gathered', differ⟩ := program_keys
  have packages {v : Visit} (member : v ∈ programRuns.flatMap visitsOf) :
      v.package = ui ∨ v.package = theme := by
    rcases program_visits member with rfl | rfl | rfl
    · exact .inl rfl
    · exact .inl rfl
    · exact .inr rfl
  have ids : ui.id ≠ theme.id := by decide
  refine ⟨program_coherent ?_, ?_, ?_, ?_, ?_, ?_, program_empty⟩
  · intro p among
    obtain ⟨v, member, rfl⟩ := List.mem_map.1 among
    exact packages member
  · intro v member w member' same
    rcases packages member with first | first <;> rcases packages member' with second | second <;>
      rw [first, second] at same ⊢
    · exact absurd same ids
    · exact absurd same ids.symm
  · intro v member
    rcases packages member with first | first <;> rw [first] <;> decide
  · intro v member checked
    rcases packages member with first | first <;> rw [first]
    · exact ⟨items, gathered⟩
    · exact ⟨items', gathered'⟩
  · intro v member w member' found found' one other collide
    rcases packages member with first | first <;> rcases packages member' with second | second <;>
      simp only [first, second, gathered, gathered', Except.ok.injEq] at one other <;>
      subst one other
    · rfl
    · exact absurd collide differ
    · exact absurd collide.symm differ
    · rfl
  · intro v member stores
    rcases program_visits member with rfl | rfl | rfl
    · rw [ui_fresh ui_alone]
      decide +kernel
    · rw [ui_fresh ui_with_theme]
      decide +kernel
    · decide +kernel

theorem theme_run_changed :
    Suited {} program programLayout programDisk programFiles ["cache"]
        (([[ui]] ++ [[ui, theme]]).flatMap visitsOf) ∧
      ∃ results plain w w',
        analyze program programLayout [ui, theme] (.start .bounded { disk := some programDisk }
          (filesAfter .bounded { disk := some programDisk } program programLayout programFiles
            [[ui]])) = (.ok results, w) ∧
        analyze program programLayout [ui, theme] (.start .bounded {}
          (filesAfter .bounded {} program programLayout programFiles [[ui]])) = (.ok plain, w') ∧
        results.map (·.contents) ≠ plain.map (·.contents) := by
  obtain ⟨results, plain, w, w', stored, unaided, unchanged⟩ :=
    run_unchanged_iff Stores.bounded_blank [[ui]] [ui, theme] program_suited
  refine ⟨program_suited, results, plain, w, w', stored, unaided, fun same => ?_⟩
  have answered := unchanged.1 same ui List.mem_cons_self rfl ⟨[ui], ui⟩ ?_
  · rw [ui_fresh ui_alone, ui_fresh ui_with_theme] at answered
    have skippable := congrArg (fun contents => contents.1.map (·.skippable)) answered
    exact absurd skippable (by decide +kernel)
  · have stores : Visit.stores {} program programLayout ⟨[ui], ui⟩ = true := by
      rw [Visit.stores, ui_fresh ui_alone]
      rfl
    simp [keeper, visitsOf, stores]

end Demo

end ComposeStability.Session
