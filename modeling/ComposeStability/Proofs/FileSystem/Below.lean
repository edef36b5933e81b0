/-
# Proofs.FileSystem.Below -- files below a directory

If cleaned steps lead to a directory (`Leads`), a name below it is found there
(`Leads.locate_child`), a directory can be made there (`Leads.makeDirs_child`)
and a file can be put there (`Leads.replaceFile_child`); nothing else changes.
-/
import ComposeStability.Proofs.FileSystem.Path
import ComposeStability.Proofs.FileSystem.Places

namespace ComposeStability.FileSystem

set_option autoImplicit false

open ComposeStability.Path (render Cleaned Step)

/-- A name that is a step down, and not too long. -/
structure Child (name : String) : Prop where
  step : Step name
  down : name ≠ ".."
  short : name.utf8ByteSize ≤ nameLimit

/-- Cleaned steps lead to a directory. -/
structure Leads (fs : FileSystem) (rooted : Bool) (names : List String) (place : Place) :
    Prop where
  cleaned : Cleaned rooted names
  reached : names.foldlM fs.step (if rooted then [] else fs.workingDir) = .ok place
  directory : fs.at? place = some .dir

/-! ## Acceptable paths -/

theorem pathFault?_eq_none_iff (path : String) :
    pathFault? path = none ↔
      path ≠ "" ∧ '\x00' ∉ path.toList ∧ path.utf8ByteSize < pathLimit := by
  unfold pathFault?
  by_cases empty : path = ""
  · simp [empty]
  · by_cases nul : '\x00' ∈ path.toList
    · simp [empty, nul]
    · by_cases long : pathLimit ≤ path.utf8ByteSize
      · simp [empty, nul, long]
      · simp [empty, nul, long]
        omega

/-- What an acceptable path starts with is acceptable. -/
theorem pathFault?_start {before after : String} (filled : before ≠ "")
    (sound : pathFault? (before ++ after) = none) : pathFault? before = none := by
  rw [pathFault?_eq_none_iff] at sound ⊢
  obtain ⟨-, no_nul, short⟩ := sound
  rw [String.utf8ByteSize_append] at short
  refine ⟨filled, fun nul => no_nul ?_, by omega⟩
  simp [nul]

theorem sound_of_located {fs : FileSystem} {path : String} {place : Place}
    (located : fs.locate path = .ok place) :
    pathFault? path = none := by
  cases fault : pathFault? path with
  | none => rfl
  | some refusal => simp [locate, follow, fault] at located

theorem locate_of_sound {fs : FileSystem} {path : String} (sound : pathFault? path = none) :
    fs.locate path =
      (pathSteps path).foldlM fs.step (if Path.isAbsolute path then [] else fs.workingDir) := by
  rw [locate, follow, sound]

/-! ## One step below -/

section
variable {fs : FileSystem} {rooted : Bool} {names : List String} {place : Place} {name : String}

theorem step_child (directory : fs.at? place = some .dir) (child : Child name) :
    fs.step place name = .ok (place ++ [name]) := by
  have short : ¬ nameLimit < name.utf8ByteSize := Nat.not_lt.2 child.short
  simp [step, directory, child.step.moves, child.down, short]

theorem Leads.cleaned_child (leads : fs.Leads rooted names place) (child : Child name) :
    Cleaned rooted (names ++ [name]) :=
  leads.cleaned.snoc child.step child.down

theorem Leads.reached_child (leads : fs.Leads rooted names place) (child : Child name) :
    (names ++ [name]).foldlM fs.step (if rooted then [] else fs.workingDir) =
      .ok (place ++ [name]) := by
  rw [List.foldlM_append, leads.reached]
  simp [bind, Except.bind, pure, Except.pure, step_child leads.directory child]

theorem Leads.snoc (leads : fs.Leads rooted names place) (child : Child name)
    (directory : fs.at? (place ++ [name]) = some .dir) :
    fs.Leads rooted (names ++ [name]) (place ++ [name]) :=
  ⟨leads.cleaned_child child, leads.reached_child child, directory⟩

theorem Leads.locate_child (leads : fs.Leads rooted names place) (child : Child name)
    (sound : pathFault? (render rooted (names ++ [name])) = none) :
    fs.locate (render rooted (names ++ [name])) = .ok (place ++ [name]) := by
  have steps := (leads.cleaned_child child).steps
  rw [locate_of_sound sound, Path.pathSteps_render (by simp) steps,
    Path.isAbsolute_render (by simp) steps]
  exact leads.reached_child child

theorem Leads.locate_self (leads : fs.Leads rooted names place) (some_name : names ≠ [])
    (sound : pathFault? (render rooted names) = none) :
    fs.locate (render rooted names) = .ok place := by
  have steps := leads.cleaned.steps
  rw [locate_of_sound sound, Path.pathSteps_render some_name steps,
    Path.isAbsolute_render some_name steps]
  exact leads.reached

theorem Leads.mono {fs' : FileSystem} (leads : fs.Leads rooted names place)
    (kept : DirsKept fs fs') : fs'.Leads rooted names place := by
  refine ⟨leads.cleaned, ?_, kept.2 place leads.directory⟩
  rw [kept.1]
  exact walk_mono kept leads.reached

/-! ## Making a directory -/

theorem step_dot (directory : fs.at? place = some .dir) : fs.step place "." = .ok place := by
  simp [step, directory]

/-- The part of a path up to its last slash leads to the directory, if there is any. -/
theorem Leads.lookup_parent (leads : fs.Leads rooted names place) (child : Child name)
    (sound : pathFault? (render rooted (names ++ [name])) = none) :
    Path.untilLastSlash (render rooted (names ++ [name])) = "" ∨
      fs.lookup (Path.untilLastSlash (render rooted (names ++ [name]))) = .ok .dir := by
  by_cases alone : names = []
  · subst alone
    rw [List.nil_append, Path.untilLastSlash_single child.step]
    cases rooted with
    | true => exact .inr rfl
    | false => exact .inl rfl
  · right
    have steps := leads.cleaned.steps
    have filled : render rooted names ≠ "" := Path.render_ne_empty alone steps
    rw [Path.render_snoc alone] at sound
    have parent_sound : pathFault? (render rooted names ++ "/") = none :=
      pathFault?_start (by simp [filled]) sound
    have located : fs.locate (render rooted names ++ "/") = .ok place := by
      rw [locate_of_sound parent_sound, Path.pathSteps_render_slash alone steps,
        Path.isAbsolute_append filled, Path.isAbsolute_render alone steps, List.foldlM_append,
        leads.reached]
      simp [bind, Except.bind, pure, Except.pure, step_dot leads.directory]
    rw [Path.untilLastSlash_render alone child.step]
    exact lookup_eq_ok.2 ⟨place, located, leads.directory⟩

/-- A path to a name does not end in a slash. -/
theorem render_end (rooted : Bool) (names : List String) (child : Child name) :
    ∃ start last, (render rooted (names ++ [name])).toList = start ++ [last] ∧ last ≠ '/' := by
  have filled : name.toList ≠ [] := by simpa using child.step.filled
  have ends : name.toList = name.toList.dropLast ++ [name.toList.getLast filled] :=
    (List.dropLast_append_getLast filled).symm
  have no_slash : name.toList.getLast filled ≠ '/' := by
    intro slash
    exact child.step.whole (slash ▸ List.getLast_mem filled)
  by_cases alone : names = []
  · subst alone
    refine ⟨(if rooted then ['/'] else []) ++ name.toList.dropLast, name.toList.getLast filled,
      ?_, no_slash⟩
    rw [List.append_assoc, ← ends]
    cases rooted <;> simp [render]
  · refine ⟨(render rooted names).toList ++ '/' :: name.toList.dropLast,
      name.toList.getLast filled, ?_, no_slash⟩
    rw [Path.render_snoc alone, List.append_assoc, List.cons_append, ← ends]
    simp

theorem Leads.makeDir_child (leads : fs.Leads rooted names place) (child : Child name)
    (sound : pathFault? (render rooted (names ++ [name])) = none)
    (free : fs.at? (place ++ [name]) = none) (refusals : Refusals) :
    fs.makeDir (render rooted (names ++ [name])) refusals =
      match refusals.makeDir (render rooted (names ++ [name])) with
      | some refusal => .error ⟨"mkdir", render rooted (names ++ [name]), refusal⟩
      | none => .ok (fs.put (place ++ [name]) .dir) := by
  obtain ⟨start, last, shape, no_slash⟩ := render_end rooted names child
  have open_end : Text.endsWith "/" (render rooted (names ++ [name])) = false := by
    rw [Bool.eq_false_iff, Text.endsWith]
    intro ends
    obtain ⟨front, joined⟩ := List.isSuffixOf_iff_suffix.1 ends
    rw [shape] at joined
    have same := congrArg List.getLast? joined
    simp at same
    exact no_slash same.symm
  have located := leads.locate_child child sound
  rw [locate] at located
  cases refused : refusals.makeDir (render rooted (names ++ [name])) <;>
    simp [makeDir, open_end, located, free, refused, bind, Except.bind, pure, Except.pure,
      Except.mapError, throw, throwThe, MonadExceptOf.throw]

/-- Below a directory nothing else has to be made. -/
theorem Leads.makeDirs_missing (leads : fs.Leads rooted names place) (child : Child name)
    (sound : pathFault? (render rooted (names ++ [name])) = none)
    (free : fs.at? (place ++ [name]) = none) (refusals : Refusals) :
    fs.makeDirs (render rooted (names ++ [name])) refusals =
      fs.ensureDir (render rooted (names ++ [name])) refusals := by
  have missing : fs.lookup (render rooted (names ++ [name])) = .error .noSuchFile := by
    simp [lookup, leads.locate_child child sound, free, bind, Except.bind]
  have parent := leads.lookup_parent child sound
  obtain ⟨start, last, shape, no_slash⟩ := render_end rooted names child
  generalize render rooted (names ++ [name]) = path at missing parent shape
  have whole : String.ofList (path.toList.reverse.dropWhile (· == '/')).reverse = path := by
    rw [← String.toList_inj, String.toList_ofList, shape]
    simp [no_slash]
  obtain ⟨fuel, length⟩ : ∃ fuel, path.length = fuel + 1 := by
    refine ⟨start.length, ?_⟩
    rw [← String.length_toList, shape]
    simp
  rw [makeDirs, length, makeDirsFrom, missing]
  simp only [whole]
  rcases parent with empty | directory
  · simp [empty, bind, Except.bind, pure, Except.pure]
  · have there : fs.makeDirsFrom fuel (Path.untilLastSlash path) refusals = .ok fs := by
      rw [makeDirsFrom.eq_def, directory]
    by_cases empty : Path.untilLastSlash path = ""
    · simp [empty, bind, Except.bind, pure, Except.pure]
    · simp [empty, bind, Except.bind, there]

/-- A directory can be made below a directory, where nothing or a directory is. -/
theorem Leads.makeDirs_child (leads : fs.Leads rooted names place) (child : Child name)
    (sound : pathFault? (render rooted (names ++ [name])) = none)
    (free : ∀ content, fs.at? (place ++ [name]) ≠ some (.file content)) :
    ∃ fs', fs.makeDirs (render rooted (names ++ [name])) = .ok fs' ∧
      Updated fs fs' (place ++ [name]) .dir := by
  have located := leads.locate_child child sound
  cases found : fs.at? (place ++ [name]) with
  | some node =>
      cases node with
      | file content => exact absurd found (free content)
      | dir =>
          refine ⟨fs, ?_, rfl, fun other => ?_⟩
          · have there : fs.lookup (render rooted (names ++ [name])) = .ok .dir :=
              lookup_eq_ok.2 ⟨_, located, found⟩
            unfold makeDirs makeDirsFrom
            rw [there]
          · split
            · next same => rw [same, found]
            · rfl
  | none =>
      refine ⟨fs.put (place ++ [name]) .dir, ?_, rfl, at?_put (by simp) fs .dir⟩
      rw [leads.makeDirs_missing child sound found, ensureDir,
        leads.makeDir_child child sound found]

/-! ## Putting a file -/

/-- A file can be put below a directory, where no directory is. -/
theorem Leads.replaceFile_child (leads : fs.Leads rooted names place) (grounded : fs.Grounded)
    (some_name : names ≠ []) (child : Child name)
    (sound : pathFault? (render rooted (names ++ [name])) = none)
    (free : fs.at? (place ++ [name]) ≠ some .dir) (start : String) (content : List UInt8) :
    ∃ fs', fs.replaceFile (render rooted (names ++ [name])) start content = .ok fs' ∧
      Updated fs fs' (place ++ [name]) (.file content) := by
  have located := leads.locate_child child sound
  have dir_sound : pathFault? (render rooted names) = none := by
    rw [Path.render_snoc some_name, String.append_assoc] at sound
    exact pathFault?_start (Path.render_ne_empty some_name leads.cleaned.steps) sound
  have directory : fs.lookup (Path.dir (render rooted (names ++ [name]))) = .ok .dir := by
    rw [Path.dir_render some_name leads.cleaned child.step]
    exact lookup_eq_ok.2 ⟨place, leads.locate_self some_name dir_sound, leads.directory⟩
  have allowed : ({} : Refusals).Allow content := ⟨rfl, nofun, rfl, rfl⟩
  obtain ⟨fs', replaced⟩ := exists_replaced directory allowed located free start
  obtain ⟨target, same, -, updated, -⟩ := grounded.replaceFile_spec replaced
  obtain rfl := Except.ok.inj (located.symm.trans same)
  exact ⟨fs', replaced, updated⟩

end

end ComposeStability.FileSystem
