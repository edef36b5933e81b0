/-
# Proofs.Config.Search -- the nearest configuration

A search starts in the directory that a path leads to, be it relative, with steps
up or with empty ones (`startOf_eq`, `startPlace_of_locate`): the absolute form of
a path names the place that it leads to (`absolute_eq`).  From there it goes up
by one name at a time (`search_pathOf`), so it asks about the file in each
directory in turn until the answer is not that there is no such file (`ask_eq`).
-/
import ComposeStability.Proofs.Config.Settings
import ComposeStability.Proofs.FileSystem.Directories

namespace ComposeStability.Config

set_option autoImplicit false

open FileSystem (Place Failure Node Refusal Refusals pathOf)
open ComposeStability.Path (Step Settled Cleaned takeStep)

/-! ## Where a search starts -/

/-- Where a step leads from a place, whatever is there. -/
def goStep (place : Place) (step : String) : Place :=
  if step = ".." then place.dropLast else place ++ [step]

/-- Where steps lead from a place, whatever is there. -/
def goAlong (place : Place) (steps : List String) : Place := steps.foldl goStep place

/-- Where a path leads from a place, whatever is there. -/
def goTo (place : Place) (path : String) : Place :=
  goAlong (if Path.isAbsolute path then [] else place) (Path.steps path)

/-- The directory in which a search starts. -/
def startPlace (fs : FileSystem) (start : String) : Place := goTo (goTo [] fs.workingPath) start

theorem goAlong_append (place : Place) (first later : List String) :
    goAlong place (first ++ later) = goAlong (goAlong place first) later :=
  List.foldl_append

/-- Steps down lead below. -/
theorem goAlong_down {names : List String} (start : Place)
    (down : ∀ name ∈ names, name ≠ "..") :
    goAlong start names = start ++ names := by
  induction names generalizing start with
  | nil => exact (List.append_nil start).symm
  | cons name names ih =>
      show goAlong (goStep start name) names = start ++ name :: names
      rw [ih _ fun other member => down other (List.mem_cons_of_mem name member), goStep,
        if_neg (down name List.mem_cons_self), List.append_assoc, List.singleton_append]

theorem takeStep_rooted {taken : List String} (settled : Settled true taken) (step : String) :
    (takeStep true taken step).reverse = goStep taken.reverse step := by
  unfold takeStep goStep
  by_cases up : step = ".."
  · subst up
    cases taken with
    | nil => rfl
    | cons last earlier =>
        have down : last ≠ ".." := fun again => Bool.noConfusion (settled.2 again).1
        simp [down]
  · simp [up]

/-- From the root, the steps that cleaning leaves are the names on the way to where they lead. -/
theorem foldl_takeStep_rooted {taken : List String} (settled : Settled true taken)
    (names : List String) :
    (names.foldl (takeStep true) taken).reverse = goAlong taken.reverse names := by
  induction names generalizing taken with
  | nil => rfl
  | cons name names ih =>
      rw [List.foldl_cons, ih (Path.takeStep_settled settled name), takeStep_rooted settled]
      rfl

theorem kept_of_absolute {path : String} (absolute : Path.isAbsolute path = true) :
    Path.kept path = goAlong [] (Path.steps path) := by
  have start : Settled true [] := trivial
  rw [Path.kept, absolute]
  exact foldl_takeStep_rooted start _

theorem isAbsolute_workingPath (fs : FileSystem) : Path.isAbsolute fs.workingPath = true :=
  (Path.isAbsolute_iff _).2 (by simp [FileSystem.workingPath, pathOf])

/-- The absolute form of a path is a path that is cleaned. -/
theorem absolute_cleaned (fs : FileSystem) (path : String) :
    ∃ seen, Path.isAbsolute seen = true ∧ Path.absolute fs.workingPath path = Path.clean seen ∧
      Path.kept seen = startPlace fs path := by
  cases absolute : Path.isAbsolute path with
  | true =>
      refine ⟨path, absolute, by rw [Path.absolute, if_pos absolute], ?_⟩
      rw [kept_of_absolute absolute, startPlace, goTo, absolute]
      rfl
  | false =>
      -- A path that is not absolute is seen from the working directory.
      have filled : fs.workingPath ≠ "" := by simp [FileSystem.workingPath, pathOf]
      have working : goTo [] fs.workingPath = goAlong [] (Path.steps fs.workingPath) := by
        simp [goTo]
      have seen : Path.isAbsolute (fs.workingPath ++ "/" ++ path) = true := by
        rw [String.append_assoc, Path.isAbsolute_append filled]
        exact isAbsolute_workingPath fs
      refine ⟨_, seen, ?_, ?_⟩
      · simp [Path.absolute, absolute, Path.join, filled, String.intercalate_cons_cons]
      · rw [kept_of_absolute seen, Path.steps_append, goAlong_append, startPlace, working, goTo,
          absolute]
        rfl

/-- The absolute form of a path names the place that the path leads to. -/
theorem absolute_eq (fs : FileSystem) (path : String) :
    Path.absolute fs.workingPath path = pathOf (startPlace fs path) := by
  obtain ⟨seen, absolute, same, kept⟩ := absolute_cleaned fs path
  rw [same, Path.clean_eq_render, absolute, kept]
  rfl

theorem startPlace_cleaned (fs : FileSystem) (start : String) :
    Cleaned true (startPlace fs start) := by
  obtain ⟨seen, absolute, -, kept⟩ := absolute_cleaned fs start
  rw [← kept, ← absolute]
  exact Path.kept_cleaned seen

theorem startPlace_startPath (fs : FileSystem) (start : String) :
    startPlace fs (startPath start) = startPlace fs start := by
  rw [startPath]
  by_cases nothing : start = ""
  · -- Nothing is as good as `.`.
    subst nothing
    rfl
  · rw [if_neg (by simpa using nothing)]

/-- Nobody can tell where a relative path starts from. -/
def Lost (start : String) (refusals : Refusals) (refusal : Refusal) : Prop :=
  Path.isAbsolute start = false ∧ refusals.workingDir = some refusal

theorem isAbsolute_startPath (start : String) :
    Path.isAbsolute (startPath start) = Path.isAbsolute start := by
  rw [startPath]
  by_cases nothing : start = ""
  · subst nothing
    decide
  · rw [if_neg (by simpa using nothing)]

theorem startOf_cases (fs : FileSystem) (start : String) (refusals : Refusals) :
    (∃ refusal, Lost start refusals refusal ∧ startOf fs start refusals = .error (.start refusal)) ∨
      (∀ refusal, ¬ Lost start refusals refusal) ∧
        startOf fs start refusals = .ok (pathOf (startPlace fs start)) := by
  rw [startOf, isAbsolute_startPath, absolute_eq, startPlace_startPath]
  cases absolute : Path.isAbsolute start <;> cases refused : refusals.workingDir <;>
    simp [Lost, absolute, refused]

/-- Steps that lead from directory to directory do so by their names alone. -/
theorem goAlong_of_walk {fs : FileSystem} {here place : Place} {names : List String}
    (moves : ∀ name ∈ names, name ≠ ".") (reached : names.foldlM fs.step here = .ok place) :
    goAlong here names = place := by
  induction names generalizing here with
  | nil => exact Except.ok.inj reached
  | cons name names ih =>
      rw [List.foldlM_cons, bind_eq_ok] at reached
      obtain ⟨next, stepped, later⟩ := reached
      have there : goStep here name = next := by
        by_cases up : name = ".."
        · subst up
          exact (FileSystem.step_up stepped).2.symm
        · rw [goStep, if_neg up]
          exact (FileSystem.step_down (moves name List.mem_cons_self) up stepped).symm
      show goAlong (goStep here name) names = place
      rw [there]
      exact ih (fun other member => moves other (List.mem_cons_of_mem name member)) later

/-! ## Cleaned absolute paths -/

theorem steps_pathOf {names : List String} (steps : ∀ name ∈ names, Step name) :
    Path.steps (pathOf names) = names := by
  by_cases none : names = []
  · subst none
    decide
  · have rendered : Path.steps (Path.render true names) = names := Path.steps_render none steps
    exact rendered

/-- Two spellings have one absolute form exactly if they lead to the same place. -/
theorem absolute_eq_iff (fs : FileSystem) (path path' : String) :
    Path.absolute fs.workingPath path = Path.absolute fs.workingPath path' ↔
      startPlace fs path = startPlace fs path' := by
  rw [absolute_eq, absolute_eq]
  constructor
  · intro same
    have steps := congrArg Path.steps same
    rwa [steps_pathOf (startPlace_cleaned fs path).steps,
      steps_pathOf (startPlace_cleaned fs path').steps] at steps
  · intro same
    rw [same]

/-- An absolute path with the steps of a cleaned one is cleaned to it. -/
theorem clean_eq_pathOf {path : String} {names : List String} (cleaned : Cleaned true names)
    (absolute : Path.isAbsolute path = true) (same : Path.steps path = names) :
    Path.clean path = pathOf names := by
  have cleaned_path : Cleaned (Path.isAbsolute path) names := by rwa [absolute]
  rw [Path.clean_eq_of_cleaned cleaned_path same, absolute]
  rfl

/-- A path that leads somewhere does so by its steps alone. -/
theorem goAlong_of_locate {fs : FileSystem} {path : String} {place : Place}
    (located : fs.locate path = .ok place) :
    goAlong (if Path.isAbsolute path then [] else fs.workingDir) (Path.steps path) = place := by
  unfold FileSystem.locate FileSystem.follow at located
  split at located
  · cases located
  · have reached := FileSystem.walk_without_dots located
    rw [FileSystem.pathSteps_without_dots] at reached
    exact goAlong_of_walk (fun name member => (Path.step_of_mem_steps member).moves) reached

/-- The directory in which a search starts is the one that the path leads to. -/
theorem startPlace_of_locate {fs : FileSystem} {start : String} {place : Place}
    (working : Cleaned true fs.workingDir) (located : fs.locate start = .ok place) :
    startPlace fs start = place := by
  have top : Settled true [] := trivial
  have home : goTo [] fs.workingPath = fs.workingDir := by
    rw [goTo, isAbsolute_workingPath, FileSystem.workingPath, steps_pathOf working.steps]
    exact (foldl_takeStep_rooted top fs.workingDir).symm.trans working.foldl_eq
  rw [startPlace, home]
  exact goAlong_of_locate located

/-! ## Going up -/

theorem upwards_snoc (names : List String) (name : String) :
    upwards (names ++ [name]) = (names ++ [name]) :: upwards names := by
  have shorter : (List.range (names.length + 1)).map (names ++ [name]).take =
      (List.range (names.length + 1)).map names.take := by
    refine List.map_congr_left fun n member => ?_
    exact List.take_append_of_le_length (Nat.le_of_lt_succ (List.mem_range.1 member))
  have whole : (names ++ [name]).take (names.length + 1) = names ++ [name] :=
    List.take_of_length_le (by simp)
  simp only [upwards, List.length_append, List.length_singleton]
  rw [List.range_succ, List.map_append, shorter, List.reverse_append]
  simp [whole]

/-- The path at which a directory has its configuration. -/
def candidate (place : Place) : String := pathOf (place ++ [fileName])

theorem step_fileName : Step fileName := ⟨by decide, by decide, by decide⟩

theorem join_fileName {names : List String} (cleaned : Cleaned true names) :
    Path.join [pathOf names, fileName] = candidate names := by
  have filled : pathOf names ≠ "" := by simp [pathOf]
  have text : Path.join [pathOf names, fileName] =
      Path.clean (pathOf names ++ "/" ++ fileName) := by
    simp [Path.join, filled, String.intercalate_cons_cons]
  have absolute : Path.isAbsolute (pathOf names ++ "/" ++ fileName) = true :=
    (Path.isAbsolute_iff _).2 (by simp [pathOf])
  rw [text]
  refine clean_eq_pathOf (cleaned.snoc step_fileName (by decide)) absolute ?_
  rw [Path.steps_append, steps_pathOf cleaned.steps, Path.steps_step step_fileName]

theorem dir_pathOf_snoc {names : List String} {name : String}
    (cleaned : Cleaned true (names ++ [name])) :
    Path.dir (pathOf (names ++ [name])) = pathOf names := by
  have step : Step name := cleaned.steps name (by simp)
  by_cases none : names = []
  · subst none
    have above : Path.untilLastSlash (Path.render true [name]) = "/" :=
      Path.untilLastSlash_single step
    show Path.dir (Path.render true [name]) = "/"
    rw [Path.dir, above]
    decide
  · have up : Path.dir (Path.render true (names ++ [name])) = Path.render true names :=
      Path.dir_render none cleaned.start step
    exact up

theorem pathOf_ne_snoc {names : List String} {name : String}
    (cleaned : Cleaned true (names ++ [name])) : pathOf names ≠ pathOf (names ++ [name]) := by
  intro same
  have steps := congrArg Path.steps same
  rw [steps_pathOf cleaned.steps, steps_pathOf cleaned.start.steps] at steps
  simp at steps

/-! ## Asking about the file in each directory -/

section
variable (stat : String → Except Failure Node)

/-- Asks about paths one after the other. -/
def ask : List String → Searched
  | [] => ⟨[], .ok none⟩
  | path :: rest =>
      match stat path with
      | .ok _ => ⟨[path], .ok (some path)⟩
      | .error cause =>
          if cause.refusal = .noSuchFile then ⟨path :: (ask rest).asked, (ask rest).found⟩
          else ⟨[path], .error (.search path cause)⟩

/-- A search asks about the file in the directory it starts in and in those above it. -/
theorem search_pathOf {names : List String} (cleaned : Cleaned true names) :
    search stat (pathOf names) = ask stat ((upwards names).map candidate) := by
  -- One name less is one directory up, so the induction goes down from the root.
  induction names using List.reverseRecOn with
  | nil =>
      have root : Path.dir (pathOf []) = pathOf [] := by decide
      rw [search, root, join_fileName cleaned]
      rfl
  | append_singleton names name ih =>
      have above := cleaned.start
      rw [search, join_fileName cleaned, dir_pathOf_snoc cleaned, if_neg (pathOf_ne_snoc cleaned),
        ih above, upwards_snoc, List.map_cons]
      rfl

/-- Whether an answer ends a search: it does unless it is that there is no such file. -/
def decides : Except Failure Node → Bool
  | .ok _ => true
  | .error cause => cause.refusal != .noSuchFile

/-- The first path with an answer that ends a search. -/
def nearest (paths : List String) : Option String := paths.find? fun path => decides (stat path)

/-- What the answer at the first such path says. -/
def conclusion : Option String → Except LoadError (Option String)
  | none => .ok none
  | some path =>
      match stat path with
      | .ok _ => .ok (some path)
      | .error cause => .error (.search path cause)

theorem ask_eq (paths : List String) :
    ask stat paths =
      ⟨(paths.takeWhile fun path => !decides (stat path)) ++ (nearest stat paths).toList,
        conclusion stat (nearest stat paths)⟩ := by
  induction paths with
  | nil => rfl
  | cons path rest ih =>
      rw [ask]
      cases answer : stat path with
      | ok node => simp [nearest, conclusion, decides, answer]
      | error cause =>
          by_cases absent : cause.refusal = .noSuchFile
          · simp [nearest, decides, answer, absent, ih]
          · simp [nearest, conclusion, decides, answer, absent]

theorem nearest_eq_none_iff {paths : List String} :
    nearest stat paths = none ↔
      ∀ path ∈ paths, ∃ cause, stat path = .error cause ∧ cause.refusal = .noSuchFile := by
  rw [nearest, List.find?_eq_none]
  refine forall₂_congr fun path _ => ?_
  cases stat path <;> simp [decides]

theorem conclusion_eq_found_iff {path : String} {nearest : Option String} :
    conclusion stat nearest = .ok (some path) ↔
      nearest = some path ∧ ∃ node, stat path = .ok node := by
  cases nearest with
  | none => simp [conclusion]
  | some other =>
      rw [conclusion]
      cases answer : stat other with
      | ok node =>
          simp only [Except.ok.injEq, Option.some.injEq]
          exact ⟨fun same => ⟨same, node, same ▸ answer⟩, fun found => found.1⟩
      | error cause =>
          simp only [reduceCtorEq, Option.some.injEq, false_iff]
          rintro ⟨rfl, node, there⟩
          cases there.symm.trans answer

theorem conclusion_eq_error_iff {cause : LoadError} {nearest : Option String} :
    conclusion stat nearest = .error cause ↔
      ∃ path failure, nearest = some path ∧ stat path = .error failure ∧
        cause = .search path failure := by
  cases nearest with
  | none => simp [conclusion]
  | some path =>
      rw [conclusion]
      cases answer : stat path with
      | ok node => simp [answer]
      | error failure => simp [answer, eq_comm]

theorem conclusion_eq_nothing_iff {nearest : Option String} :
    conclusion stat nearest = .ok none ↔ nearest = none := by
  cases nearest with
  | none => simp [conclusion]
  | some path =>
      rw [conclusion]
      cases stat path <;> simp

end

/-- A search asks about the file in the directory that it starts in and in those above it, from the
innermost outwards, up to the first answer that is not that there is no such file.  If this is that
the file is there, it is the file that is found, and what is loaded comes of this file; if it is
another refusal, the search fails with it; and if there is no such answer, there is no configuration
but the default one.  Only a search from a relative path may fail before it asks anything. -/
theorem find_nearest (reader : Reader) (fs : FileSystem) (start : String) (refusals : Refusals) :
    let stat := fun path => fs.stat path refusals
    let paths := (upwards (startPlace fs start)).map candidate
    (∃ refusal, Lost start refusals refusal ∧
      find fs start refusals = .error (.start refusal) ∧
      loadFrom reader fs start refusals = .error (.start refusal)) ∨
    (∀ refusal, ¬ Lost start refusals refusal) ∧
      startOf fs start refusals = .ok (pathOf (startPlace fs start)) ∧
      (search stat (pathOf (startPlace fs start))).asked =
        (paths.takeWhile fun path => !decides (stat path)) ++ (nearest stat paths).toList ∧
      (∀ path, find fs start refusals = .ok (some path) ↔
        nearest stat paths = some path ∧ ∃ node, stat path = .ok node) ∧
      (∀ cause, find fs start refusals = .error cause ↔
        ∃ path failure, nearest stat paths = some path ∧ stat path = .error failure ∧
          cause = .search path failure) ∧
      (find fs start refusals = .ok none ↔
        ∀ path ∈ paths, ∃ cause, stat path = .error cause ∧ cause.refusal = .noSuchFile) ∧
      match nearest stat paths with
      | none => loadFrom reader fs start refusals = .ok default
      | some path =>
          match stat path with
          | .ok _ => Reading reader fs path (loadFrom reader fs start refusals)
          | .error failure => loadFrom reader fs start refusals = .error (.search path failure) := by
  intro stat paths
  obtain ⟨refusal, lost, nowhere⟩ | ⟨sure, started⟩ := startOf_cases fs start refusals
  · have failed : find fs start refusals = .error (.start refusal) := by rw [find, nowhere]; rfl
    exact .inl ⟨refusal, lost, failed, by rw [loadFrom, failed]; rfl⟩
  have searched : search stat (pathOf (startPlace fs start)) = ask stat paths :=
    search_pathOf stat (startPlace_cleaned fs start)
  rw [ask_eq] at searched
  have found : find fs start refusals = conclusion stat (nearest stat paths) := by
    rw [find, started]
    show (search stat (pathOf (startPlace fs start))).found = _
    rw [searched]
  refine .inr ⟨sure, started, by rw [searched], fun path => ?_, fun cause => ?_, ?_, ?_⟩
  · rw [found]
    exact conclusion_eq_found_iff stat
  · rw [found]
    exact conclusion_eq_error_iff stat
  · rw [found, conclusion_eq_nothing_iff]
    exact nearest_eq_none_iff stat
  · rw [loadFrom, found]
    cases nearest stat paths with
    | none => rfl
    | some path =>
        cases answer : stat path with
        | ok node =>
            simp only [conclusion, answer]
            exact load_reading reader fs path
        | error failure =>
            simp only [conclusion, answer]
            rfl

/-- A project with a configuration above the directory of its sources. -/
def project : FileSystem where
  entries := [(["w"], .dir), (["w", fileName], .file (Text.toBytes "jobs = 2\nReport-Name = \"ui\"\n")),
    (["w", "src"], .dir), (["w", "src", "ui"], .dir)]
  workingDir := ["w", "src"]

/-- The configuration two directories above the one in which the search starts. -/
theorem project_configured :
    find project "ui/../ui" = .ok (some "/w/stableguard.toml") ∧
      Reading Toml.Document.ofBytes project "/w/stableguard.toml"
        (loadFrom Toml.Document.ofBytes project "ui/../ui") ∧
      (loadFrom Toml.Document.ofBytes project "ui/../ui").toOption =
        some { default with jobs := 2, reportName := "ui", path := "/w/stableguard.toml" } := by
  obtain ⟨refusal, ⟨-, gone⟩, -⟩ | ⟨-, -, -, found, -, -, loaded⟩ :=
    find_nearest Toml.Document.ofBytes project "ui/../ui" {}
  · cases gone
  have place : startPlace project "ui/../ui" = ["w", "src", "ui"] := by decide +kernel
  have here : nearest (fun path => project.stat path {})
      ((upwards (startPlace project "ui/../ui")).map candidate) = some "/w/stableguard.toml" := by
    rw [place]
    decide +kernel
  have there : project.stat "/w/stableguard.toml" {} =
      .ok (.file (Text.toBytes "jobs = 2\nReport-Name = \"ui\"\n")) := by decide +kernel
  rw [here] at loaded
  simp only [there] at loaded
  have read : (loadFrom Toml.Document.ofBytes project "ui/../ui").toOption =
      some { default with jobs := 2, reportName := "ui", path := "/w/stableguard.toml" } := by
    decide +kernel
  have chosen : find project "ui/../ui" = .ok (some "/w/stableguard.toml") :=
    (found "/w/stableguard.toml").2 ⟨here, _, there⟩
  exact ⟨chosen, loaded, read⟩

end ComposeStability.Config
