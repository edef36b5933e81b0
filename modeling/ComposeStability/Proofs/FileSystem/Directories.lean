/-
# Proofs.FileSystem.Directories -- making directories and removing what is in them

Making a directory that succeeds leaves one there (`Grounded.makeDirs_spec`), and
whether it succeeds or not, directories are made for the path and for parts of it
that lead up to a slash (`LeadingPart`, `filesAfter_makeDirsFrom`).  A path that
leads to a directory leads there in its cleaned form as well (`leads_of_lookup`),
since going up undoes a step down.  Removing what is in a directory, whether it
succeeds or fails half way, takes away places below it and no others
(`removeNames_thinned`); when it succeeds, none is left (`removeNames_vacant`).
Cleaned steps still lead to such a directory, unless they start below it at a
place that was removed (`Leads.thinned`): they pass only directories above their
start and above their end.
-/
import ComposeStability.Proofs.FileSystem.Below
import ComposeStability.Proofs.Outcome

namespace ComposeStability.FileSystem

set_option autoImplicit false

open ComposeStability.Path (Settled Step takeStep)

variable {fs fs' : FileSystem} {path : String} {start place : Place} {refusals : Refusals}

/-! ## Cleaned steps lead to the same place -/

theorem walk_append {first later : List String} :
    (first ++ later).foldlM fs.step start = .ok place ↔
      ∃ between, first.foldlM fs.step start = .ok between ∧
        later.foldlM fs.step between = .ok place := by
  rw [List.foldlM_append, bind_eq_ok]

theorem walk_snoc {names : List String} {name : String} :
    (names ++ [name]).foldlM fs.step start = .ok place ↔
      ∃ between, names.foldlM fs.step start = .ok between ∧ fs.step between name = .ok place := by
  rw [walk_append]
  simp [List.foldlM, pure, Except.pure, bind_eq_ok]

theorem step_of_dot (stepped : fs.step start "." = .ok place) : place = start := by
  unfold step at stepped
  split at stepped
  · cases stepped
  · cases stepped
  · exact (Except.ok.inj stepped).symm

theorem step_up (stepped : fs.step start ".." = .ok place) :
    fs.at? start = some .dir ∧ place = start.dropLast := by
  refine ⟨(step_ok stepped).1, ?_⟩
  rw [step, (step_ok stepped).1] at stepped
  exact (Except.ok.inj stepped).symm

theorem step_down {name : String} (moves : name ≠ ".") (down : name ≠ "..")
    (stepped : fs.step start name = .ok place) : place = start ++ [name] := by
  rw [step, (step_ok stepped).1] at stepped
  simp only [moves, down, beq_iff_eq, if_false] at stepped
  split at stepped
  · cases stepped
  · exact (Except.ok.inj stepped).symm

/-- Steps to the same place can be left out. -/
theorem walk_without_dots {names : List String}
    (reached : names.foldlM fs.step start = .ok place) :
    (names.filter (· != ".")).foldlM fs.step start = .ok place := by
  induction names generalizing start with
  | nil => exact reached
  | cons name names ih =>
      rw [List.foldlM_cons, bind_eq_ok] at reached
      obtain ⟨next, stepped, later⟩ := reached
      by_cases dot : name = "."
      · subst dot
        rw [step_of_dot stepped] at later
        simpa using ih later
      · rw [List.filter_cons_of_pos (by simpa using dot), List.foldlM_cons, bind_eq_ok]
        exact ⟨next, stepped, ih later⟩

/-- One more step, with steps down undone by steps up. -/
theorem walk_takeStep {rooted : Bool} (top : rooted = true → start = []) {taken : List String}
    (known : ∀ name ∈ taken, Step name) {here next : Place} {name : String}
    (reached : taken.reverse.foldlM fs.step start = .ok here)
    (stepped : fs.step here name = .ok next) :
    (takeStep rooted taken name).reverse.foldlM fs.step start = .ok next := by
  have pushed : (name :: taken).reverse.foldlM fs.step start = .ok next := by
    rw [List.reverse_cons, walk_snoc]
    exact ⟨here, reached, stepped⟩
  unfold takeStep
  split
  · next up =>
    obtain rfl : name = ".." := by simpa using up
    obtain ⟨-, above⟩ := step_up stepped
    cases taken with
    | nil =>
        cases rooted with
        | false => exact pushed
        | true =>
            obtain rfl : start = here := Except.ok.inj reached
            rw [above, top rfl]
            rfl
    | cons last earlier =>
        dsimp only
        split
        · exact pushed
        · next down =>
          rw [List.reverse_cons, walk_snoc] at reached
          obtain ⟨between, before, stepped_down⟩ := reached
          have moves := (known last List.mem_cons_self).moves
          rw [step_down moves (by simpa using down) stepped_down, List.dropLast_concat] at above
          rw [above]
          exact before
  · exact pushed

theorem walk_foldl_takeStep {rooted : Bool} (top : rooted = true → start = [])
    {names taken : List String} (known : ∀ name ∈ taken, Step name)
    (new : ∀ name ∈ names, Step name) {here : Place}
    (reached : taken.reverse.foldlM fs.step start = .ok here)
    (onward : names.foldlM fs.step here = .ok place) :
    (names.foldl (takeStep rooted) taken).reverse.foldlM fs.step start = .ok place := by
  induction names generalizing taken here with
  | nil =>
      obtain rfl : here = place := Except.ok.inj onward
      exact reached
  | cons name names ih =>
      rw [List.foldlM_cons, bind_eq_ok] at onward
      obtain ⟨next, stepped, later⟩ := onward
      exact ih (Path.takeStep_steps known (new name List.mem_cons_self))
        (fun other member => new other (List.mem_cons_of_mem name member))
        (walk_takeStep top known reached stepped) later

theorem pathSteps_without_dots (path : String) :
    (pathSteps path).filter (· != ".") = Path.steps path := by
  have kept : (fun name : String => name != "." && name != "") =
      fun name => name != "" && name != "." := by
    funext name
    exact Bool.and_comm _ _
  rw [pathSteps, List.filter_append, List.filter_filter, kept]
  split <;> simp [Path.steps]

/-- A path that leads to a directory leads there in its cleaned form. -/
theorem leads_of_lookup (found : fs.lookup path = .ok .dir) :
    ∃ place, fs.locate path = .ok place ∧ fs.at? place = some .dir ∧
      fs.Leads (Path.isAbsolute path) (Path.kept path) place := by
  obtain ⟨place, located, directory⟩ := lookup_eq_ok.1 found
  refine ⟨place, located, directory, Path.kept_cleaned path, ?_, directory⟩
  unfold locate follow at located
  split at located
  · cases located
  · have reached := walk_without_dots located
    rw [pathSteps_without_dots] at reached
    refine walk_foldl_takeStep ?_ (by simp) (fun _ => Path.step_of_mem_steps) rfl reached
    intro absolute
    simp [absolute]

/-! ## Making directories -/

/-- A slash at the end of a path is a step of its own. -/
theorem pathSteps_of_slash (ends : Text.endsWith "/" path = true) :
    pathSteps path = (Text.split '/' path).filter (· != "") ++ ["."] := by
  obtain ⟨front, shape⟩ := List.isSuffixOf_iff_suffix.1 ends
  have text : path = String.ofList front ++ "/" ++ "" := by
    rw [← String.toList_inj, ← shape]
    simp
  have pieces := Path.split_append (String.ofList front) ""
  rw [← text] at pieces
  have empty : Text.split '/' "" = [""] := rfl
  simp [pathSteps, pieces, empty]

/-- A relative path has a name in it. -/
theorem names_of_relative (filled : path ≠ "") (relative : Path.isAbsolute path = false) :
    (Text.split '/' path).filter (· != "") ≠ [] := by
  have some_text : path.toList ≠ [] := by simpa using filled
  obtain ⟨c, rest, shape⟩ := List.exists_cons_of_ne_nil some_text
  have no_slash : c ≠ '/' := by
    rintro rfl
    have absolute := (Path.isAbsolute_iff path).2 (by simp [shape])
    rw [relative] at absolute
    cases absolute
  obtain ⟨piece, divided, member⟩ := Text.mem_piece no_slash (shape ▸ List.mem_cons_self)
  have some_char : piece ≠ [] := List.ne_nil_of_mem member
  refine List.ne_nil_of_mem (List.mem_filter.2 ⟨List.mem_map.2 ⟨piece, divided, rfl⟩, ?_⟩)
  simpa [← String.toList_inj] using some_char

/-- Steps that make a directory when they lead to nothing: a slash at the end does not count. -/
theorem makeDir_eq_ok {fs' : FileSystem} (made : fs.makeDir path refusals = .ok fs') :
    ∃ names place, (pathSteps path = names ∨ pathSteps path = names ++ ["."]) ∧
      pathFault? path = none ∧
      names.foldlM fs.step (if Path.isAbsolute path then [] else fs.workingDir) = .ok place ∧
      fs.at? place = none ∧ fs' = fs.put place .dir ∧
      (names = [] → Path.isAbsolute path = true) := by
  unfold makeDir at made
  dsimp only at made
  generalize steps : (if Text.endsWith "/" path then (pathSteps path).dropLast
    else pathSteps path) = names at made
  obtain ⟨place, followed, free, same⟩ : ∃ place, fs.follow path names = .ok place ∧
      fs.at? place = none ∧ fs' = fs.put place .dir := by
    cases followed : fs.follow path names with
    | error refusal => simp [followed, bind, Except.bind, Except.mapError] at made
    | ok place =>
        rw [followed] at made
        cases found : fs.at? place with
        | some node =>
            simp [found, bind, Except.bind, Except.mapError, throw, throwThe,
              MonadExceptOf.throw] at made
        | none =>
            cases refused : refusals.makeDir path with
            | some refusal =>
                simp [found, refused, bind, Except.bind, Except.mapError, throw, throwThe,
                  MonadExceptOf.throw] at made
            | none =>
                refine ⟨place, rfl, found, ?_⟩
                simpa [found, refused, bind, Except.bind, Except.mapError, pure, Except.pure,
                  eq_comm] using made
  have sound : pathFault? path = none := by
    cases fault : pathFault? path with
    | none => rfl
    | some refusal => simp [follow, fault] at followed
  rw [follow, sound] at followed
  refine ⟨names, place, ?_, sound, followed, free, same, fun none => ?_⟩
  · split at steps
    · next ends =>
      rw [pathSteps_of_slash ends, List.dropLast_concat] at steps
      rw [← steps]
      exact .inr (pathSteps_of_slash ends)
    · exact .inl steps
  · by_contra relative
    have filled := ((pathFault?_eq_none_iff path).1 sound).1
    have named := names_of_relative filled (by simpa using relative)
    split at steps
    · next ends =>
      rw [pathSteps_of_slash ends, List.dropLast_concat] at steps
      exact named (steps.trans none)
    · exact pathSteps_ne_nil path (steps.trans none)

/-- Making a directory changes the place that the path leads to, and no other. -/
theorem Grounded.makeDir_updated (grounded : fs.Grounded)
    (made : fs.makeDir path refusals = .ok fs') :
    ∃ place, fs.at? place = none ∧ Updated fs fs' place .dir ∧ fs'.locate path = .ok place ∧
      fs'.Grounded := by
  obtain ⟨names, place, steps, sound, reached, free, rfl, alone⟩ := makeDir_eq_ok made
  have no_dir : fs.at? place ≠ some .dir := by simp [free]
  have some_step : names ≠ [] := by
    rintro rfl
    rw [if_pos (alone rfl)] at reached
    obtain rfl : [] = place := Except.ok.inj reached
    cases free
  obtain ⟨last, name, rfl, above⟩ := grounded.parent_of_walk some_step reached no_dir
  have updated : Updated fs (fs.put (last ++ [name]) .dir) (last ++ [name]) .dir :=
    ⟨rfl, at?_put (by simp) fs .dir⟩
  have reached' := walk_mono (updated.dirsKept fun _ => rfl) reached
  refine ⟨last ++ [name], free, updated, ?_, updated.grounded grounded above fun _ => rfl⟩
  rw [locate_of_sound sound]
  rcases steps with same | dotted
  · rw [same]
    exact reached'
  · rw [dotted, walk_snoc]
    exact ⟨_, reached', step_dot updated.here⟩

/-- Making a directory leaves one there. -/
theorem Grounded.makeDir_spec (grounded : fs.Grounded)
    (made : fs.makeDir path refusals = .ok fs') :
    fs'.Grounded ∧ fs'.lookup path = .ok .dir := by
  obtain ⟨place, -, updated, located, grounded'⟩ := grounded.makeDir_updated made
  exact ⟨grounded', lookup_eq_ok.2 ⟨place, located, updated.here⟩⟩

/-! ## Directories on the way -/

/-- A path up to one of its slashes, or the whole path. -/
def LeadingPart (part path : String) : Prop :=
  part = path ∨ ∃ front rest, part = front ++ "/" ∧ path = part ++ rest

theorem LeadingPart.trans {part whole : String} (first : LeadingPart part path)
    (later : LeadingPart path whole) : LeadingPart part whole := by
  rcases first with rfl | ⟨front, rest, ends, shape⟩
  · exact later
  · rcases later with rfl | ⟨-, rest', -, shape'⟩
    · exact .inr ⟨front, rest, ends, shape⟩
    · refine .inr ⟨front, rest ++ rest', ends, ?_⟩
      rw [shape', shape, String.append_assoc]

theorem LeadingPart.isAbsolute {part : String} (leading : LeadingPart part path) :
    Path.isAbsolute part = Path.isAbsolute path := by
  rcases leading with rfl | ⟨front, rest, ends, shape⟩
  · rfl
  · have filled : part ≠ "" := by simp [ends]
    rw [shape, Path.isAbsolute_append filled]

/-- The part of a path above its last name, where directories are made first, ends in a slash. -/
theorem leading_above (path : String) (filled : Path.untilLastSlash
      (String.ofList (path.toList.reverse.dropWhile (· == '/')).reverse) ≠ "") :
    LeadingPart (Path.untilLastSlash
      (String.ofList (path.toList.reverse.dropWhile (· == '/')).reverse)) path := by
  have trimmed : (path.toList.reverse.dropWhile (· == '/')).reverse <+: path.toList := by
    simpa using List.reverse_prefix.2 (List.dropWhile_suffix (l := path.toList.reverse) (· == '/'))
  obtain ⟨more, shape⟩ := trimmed
  generalize (path.toList.reverse.dropWhile (· == '/')).reverse = start at filled shape ⊢
  obtain ⟨empty, -⟩ | ⟨front, rest, above, whole, -⟩ :=
    Path.untilLastSlash_cases (String.ofList start)
  · exact absurd empty filled
  · refine .inr ⟨front, rest ++ String.ofList more, above, ?_⟩
    rw [above, ← String.append_assoc, ← whole, ← String.ofList_append, shape, String.ofList_toList]

/-- The files after an operation of several steps, whether it failed or not. -/
def filesAfter {ε : Type} (outcome : Except (Stopped ε) FileSystem) : FileSystem :=
  match outcome with
  | .ok fs => fs
  | .error stopped => stopped.files

/-- A directory that could not be made may be there for all that. -/
theorem ensureDir_eq_ok (made : fs.ensureDir path refusals = .ok fs') :
    fs.makeDir path refusals = .ok fs' ∨ fs' = fs ∧ fs.lookup path = .ok .dir := by
  unfold ensureDir at made
  split at made
  · next done =>
    obtain rfl := Except.ok.inj made
    exact .inl done
  · split at made
    · next there => exact .inr ⟨(Except.ok.inj made).symm, there⟩
    · cases made

theorem filesAfter_ensureDir :
    filesAfter (fs.ensureDir path refusals) = fs ∨
      fs.makeDir path refusals = .ok (filesAfter (fs.ensureDir path refusals)) := by
  unfold ensureDir
  cases made : fs.makeDir path refusals with
  | ok after => exact .inr rfl
  | error failure =>
      left
      dsimp only
      split <;> rfl

/-- How directories come to be made: the path leads to one already, or one is made there after those
above it, whose path leads up to a slash. -/
theorem makeDirsFrom_cases {fuel : Nat} (made : fs.makeDirsFrom fuel path refusals = .ok fs') :
    (fs' = fs ∧ fs.lookup path = .ok .dir) ∨
      ∃ middle, (middle = fs ∨ ∃ less parent, fuel = less + 1 ∧ LeadingPart parent path ∧
          fs.makeDirsFrom less parent refusals = .ok middle) ∧
        (middle.makeDir path refusals = .ok fs' ∨ fs' = middle ∧ middle.lookup path = .ok .dir) := by
  rw [makeDirsFrom.eq_def] at made
  split at made
  · next there => exact .inl ⟨(Except.ok.inj made).symm, there⟩
  · cases made
  · right
    dsimp only at made
    have leading := leading_above path
    generalize Path.untilLastSlash _ = parent at made leading
    split at made
    · exact ⟨fs, .inl rfl, ensureDir_eq_ok made⟩
    · next less =>
      split at made
      · exact ⟨fs, .inl rfl, ensureDir_eq_ok made⟩
      · next filled =>
        obtain ⟨middle, above, made⟩ := bind_eq_ok.1 made
        exact ⟨middle, .inr ⟨less, parent, rfl, leading (by simpa using filled), above⟩,
          ensureDir_eq_ok made⟩

/-- Whether it fails or not, making directories changes something at the end of the path at most,
after what it changes above. -/
theorem filesAfter_makeDirsFrom (fs : FileSystem) (path : String) (refusals : Refusals) (fuel : Nat) :
    ∃ middle, (middle = fs ∨ ∃ less parent, fuel = less + 1 ∧ LeadingPart parent path ∧
        middle = filesAfter (fs.makeDirsFrom less parent refusals)) ∧
      (filesAfter (fs.makeDirsFrom fuel path refusals) = middle ∨
        middle.makeDir path refusals = .ok (filesAfter (fs.makeDirsFrom fuel path refusals))) := by
  rw [makeDirsFrom.eq_def]
  split
  · exact ⟨fs, .inl rfl, .inl rfl⟩
  · exact ⟨fs, .inl rfl, .inl rfl⟩
  · dsimp only
    have leading := leading_above path
    generalize Path.untilLastSlash _ = parent at leading
    split
    · exact ⟨fs, .inl rfl, filesAfter_ensureDir⟩
    · next less =>
      split
      · exact ⟨fs, .inl rfl, filesAfter_ensureDir⟩
      · next filled =>
        refine ⟨_, .inr ⟨less, parent, rfl, leading (by simpa using filled), rfl⟩, ?_⟩
        cases fs.makeDirsFrom less parent refusals with
        | error stopped => exact .inl rfl
        | ok middle => exact filesAfter_ensureDir

/-- Making directories leaves one at the end of the path. -/
theorem Grounded.makeDirsFrom_spec (grounded : fs.Grounded) {fuel : Nat}
    (made : fs.makeDirsFrom fuel path refusals = .ok fs') :
    fs'.Grounded ∧ fs'.lookup path = .ok .dir := by
  induction fuel using Nat.strongRecOn generalizing fs path fs' with
  | ind fuel ih =>
      obtain ⟨rfl, there⟩ | ⟨middle, above, here⟩ := makeDirsFrom_cases made
      · exact ⟨grounded, there⟩
      · have middle_grounded : middle.Grounded := by
          obtain rfl | ⟨less, parent, rfl, -, made_above⟩ := above
          · exact grounded
          · exact (ih less (Nat.lt_succ_self less) grounded made_above).1
        obtain made_here | ⟨rfl, there⟩ := here
        · exact middle_grounded.makeDir_spec made_here
        · exact ⟨middle_grounded, there⟩

theorem Grounded.makeDirs_spec (grounded : fs.Grounded)
    (made : fs.makeDirs path refusals = .ok fs') :
    fs'.Grounded ∧ fs'.lookup path = .ok .dir :=
  grounded.makeDirsFrom_spec made

/-- Where no part of a path can be made, nothing changes. -/
theorem filesAfter_unmade
    (unmade : ∀ part, LeadingPart part path → ∃ failure, fs.makeDir part refusals = .error failure)
    (fuel : Nat) : filesAfter (fs.makeDirsFrom fuel path refusals) = fs := by
  induction fuel using Nat.strongRecOn generalizing path with
  | ind fuel ih =>
      obtain ⟨middle, above, here⟩ := filesAfter_makeDirsFrom fs path refusals fuel
      have same : middle = fs := by
        obtain rfl | ⟨less, parent, rfl, leading, rfl⟩ := above
        · rfl
        · exact ih less (Nat.lt_succ_self less) fun part first => unmade part (first.trans leading)
      subst same
      rcases here with kept | made
      · exact kept
      · obtain ⟨failure, failed⟩ := unmade path (.inl rfl)
        rw [failed] at made
        cases made

theorem makeDirs_unmade (missing : fs.lookup path ≠ .ok .dir)
    (unmade : ∀ part, LeadingPart part path → ∃ failure, fs.makeDir part refusals = .error failure) :
    ∃ stopped, fs.makeDirs path refusals = .error stopped ∧ stopped.files = fs := by
  have kept : filesAfter (fs.makeDirs path refusals) = fs := filesAfter_unmade unmade _
  cases made : fs.makeDirs path refusals with
  | error stopped =>
      rw [made] at kept
      exact ⟨stopped, rfl, kept⟩
  | ok fs' =>
      obtain ⟨-, there⟩ | ⟨middle, above, here⟩ := makeDirsFrom_cases made
      · exact absurd there missing
      have same : middle = fs := by
        obtain rfl | ⟨less, parent, -, leading, made_above⟩ := above
        · rfl
        · have kept_above := filesAfter_unmade
            (fun part first => unmade part (first.trans leading)) less
          rwa [made_above] at kept_above
      subst same
      obtain made_here | ⟨-, there⟩ := here
      · obtain ⟨failure, failed⟩ := unmade path (.inl rfl)
        rw [failed] at made_here
        cases made_here
      · exact absurd there missing

/-- A slash divides the steps of a path. -/
theorem pathSteps_append (front rest : String) :
    pathSteps (front ++ "/" ++ rest) = (Text.split '/' front).filter (· != "") ++ pathSteps rest := by
  have ends : (Text.split '/' front ++ Text.split '/' rest).getLast? =
      (Text.split '/' rest).getLast? :=
    List.getLast?_append_of_ne_nil _ (by simpa [Text.split] using Text.splitChar_ne_nil '/' rest.toList)
  rw [pathSteps, pathSteps, Path.split_append, List.filter_append, ends, List.append_assoc]

/-- What a path passes before its end is a directory. -/
theorem locate_leading {front rest : String}
    (reached : (pathSteps (front ++ "/" ++ rest)).foldlM fs.step
      (if Path.isAbsolute (front ++ "/" ++ rest) then [] else fs.workingDir) = .ok place)
    (sound : pathFault? (front ++ "/") = none) :
    ∃ between, fs.locate (front ++ "/") = .ok between ∧ fs.at? between = some .dir ∧
      (pathSteps rest).foldlM fs.step between = .ok place := by
  rw [pathSteps_append, Path.isAbsolute_append (by simp), walk_append] at reached
  obtain ⟨between, before, onward⟩ := reached
  have directory : fs.at? between = some .dir := by
    obtain ⟨name, names, steps⟩ := List.exists_cons_of_ne_nil (pathSteps_ne_nil rest)
    rw [steps, List.foldlM_cons, bind_eq_ok] at onward
    obtain ⟨next, stepped, -⟩ := onward
    exact (step_ok stepped).1
  have steps : pathSteps (front ++ "/") = (Text.split '/' front).filter (· != "") ++ ["."] := by
    have last : pathSteps "" = ["."] := rfl
    simpa [last] using pathSteps_append front ""
  refine ⟨between, ?_, directory, onward⟩
  rw [locate_of_sound sound, steps, walk_snoc]
  exact ⟨between, before, step_dot directory⟩

/-- Nothing is made where a directory is. -/
theorem makeDir_there (there : fs.lookup path = .ok .dir) :
    ∃ failure, fs.makeDir path refusals = .error failure := by
  cases made : fs.makeDir path refusals with
  | error failure => exact ⟨failure, rfl⟩
  | ok fs' =>
      obtain ⟨names, place, steps, sound, reached, free, -, -⟩ := makeDir_eq_ok made
      obtain ⟨found, located, directory, -⟩ := leads_of_lookup there
      rw [locate_of_sound sound] at located
      rcases steps with same | dotted
      · rw [same, reached] at located
        obtain rfl := Except.ok.inj located
        rw [free] at directory
        cases directory
      · rw [dotted, walk_snoc] at located
        obtain ⟨between, before, stepped⟩ := located
        rw [reached] at before
        obtain rfl := Except.ok.inj before
        have here := (step_ok stepped).1
        rw [free] at here
        cases here

/-- Nothing is made at a path that is not acceptable, nor above it if its steps lead somewhere. -/
theorem makeDirs_faulty {refusal : Refusal} (fault : pathFault? path = some refusal)
    (leads : ∃ place, (pathSteps path).foldlM fs.step
      (if Path.isAbsolute path then [] else fs.workingDir) = .ok place) :
    ∃ stopped, fs.makeDirs path refusals = .error stopped ∧ stopped.files = fs := by
  obtain ⟨place, reached⟩ := leads
  have unmade (part : String) (leading : LeadingPart part path) :
      ∃ failure, fs.makeDir part refusals = .error failure := by
    cases part_fault : pathFault? part with
    | some refusal =>
        cases made : fs.makeDir part refusals with
        | error failure => exact ⟨failure, rfl⟩
        | ok fs' =>
            obtain ⟨-, -, -, sound, -⟩ := makeDir_eq_ok made
            rw [part_fault] at sound
            cases sound
    | none =>
        rcases leading with rfl | ⟨front, rest, rfl, rfl⟩
        · rw [fault] at part_fault
          cases part_fault
        · obtain ⟨between, located, directory, -⟩ := locate_leading reached part_fault
          exact makeDir_there (lookup_eq_ok.2 ⟨between, located, directory⟩)
  refine makeDirs_unmade ?_ unmade
  simp [lookup, locate, follow, fault, bind, Except.bind]

/-- Below a directory a directory is there or is made, unless the path is not acceptable, a file is
in the way, or the system refuses. -/
theorem Leads.makeDirs_cases {rooted : Bool} {names : List String} {name : String}
    (leads : fs.Leads rooted names place) (child : Child name) (refusals : Refusals) :
    (∃ stopped, fs.makeDirs (Path.render rooted (names ++ [name])) refusals = .error stopped ∧
        stopped.files = fs) ∨
      ∃ fs', fs.makeDirs (Path.render rooted (names ++ [name])) refusals = .ok fs' ∧
        Updated fs fs' (place ++ [name]) .dir ∧
        ∀ content, fs.at? (place ++ [name]) ≠ some (.file content) := by
  cases fault : pathFault? (Path.render rooted (names ++ [name])) with
  | some refusal =>
      have steps := (leads.cleaned_child child).steps
      refine .inl (makeDirs_faulty fault ⟨place ++ [name], ?_⟩)
      rw [Path.pathSteps_render (by simp) steps, Path.isAbsolute_render (by simp) steps]
      exact leads.reached_child child
  | none =>
      have located := leads.locate_child child fault
      cases found : fs.at? (place ++ [name]) with
      | some node =>
          have there : fs.lookup (Path.render rooted (names ++ [name])) = .ok node :=
            lookup_eq_ok.2 ⟨_, located, found⟩
          rw [makeDirs, makeDirsFrom.eq_def, there]
          cases node with
          | file content => exact .inl ⟨_, rfl, rfl⟩
          | dir => exact .inr ⟨fs, rfl, .of_there found, fun content => by simp⟩
      | none =>
          have missing : fs.lookup (Path.render rooted (names ++ [name])) = .error .noSuchFile := by
            simp [lookup, located, found, bind, Except.bind]
          rw [leads.makeDirs_missing child fault found, ensureDir,
            leads.makeDir_child child fault found, missing]
          cases refusals.makeDir (Path.render rooted (names ++ [name])) with
          | some refusal => exact .inl ⟨_, rfl, rfl⟩
          | none => exact .inr ⟨_, rfl, ⟨rfl, at?_put (by simp) fs .dir⟩, fun content => by simp⟩

/-! ## Without a working directory -/

section
variable (gone : fs.at? fs.workingDir = none) (relative : Path.isAbsolute path = false)
include gone relative

/-- Relative paths lead nowhere if there is no working directory. -/
theorem locate_gone_of_sound (sound : pathFault? path = none) :
    fs.locate path = .error .noSuchFile := by
  obtain ⟨name, names, steps⟩ := List.exists_cons_of_ne_nil (pathSteps_ne_nil path)
  have stuck : fs.step fs.workingDir name = .error .noSuchFile := by rw [step, gone]
  rw [locate_of_sound sound, steps]
  simp [relative, stuck, bind, Except.bind]

theorem locate_gone : ∃ refusal, fs.locate path = .error refusal := by
  cases fault : pathFault? path with
  | none => exact ⟨_, locate_gone_of_sound gone relative fault⟩
  | some refusal => exact ⟨refusal, by simp [locate, follow, fault]⟩

theorem lookup_gone : ∃ refusal, fs.lookup path = .error refusal := by
  obtain ⟨refusal, nowhere⟩ := locate_gone gone relative
  exact ⟨refusal, by simp [lookup, nowhere, bind, Except.bind]⟩

theorem makeDir_gone : ∃ failure, fs.makeDir path refusals = .error failure := by
  cases made : fs.makeDir path refusals with
  | error failure => exact ⟨failure, rfl⟩
  | ok fs' =>
      obtain ⟨names, place, -, -, reached, -, -, absolute⟩ := makeDir_eq_ok made
      have some_step : names ≠ [] := by
        intro none
        rw [absolute none] at relative
        cases relative
      obtain ⟨name, rest, rfl⟩ := List.exists_cons_of_ne_nil some_step
      have stuck : fs.step fs.workingDir name = .error .noSuchFile := by rw [step, gone]
      simp [relative, stuck, bind, Except.bind] at reached

theorem makeDirs_gone : ∃ stopped, fs.makeDirs path refusals = .error stopped ∧
    stopped.files = fs := by
  obtain ⟨refusal, nowhere⟩ := lookup_gone gone relative
  exact makeDirs_unmade (by simp [nowhere]) fun part leading =>
    makeDir_gone gone (leading.isAbsolute.trans relative)

end

/-! ## Removing what is in a directory -/

/-- Some of what is below a place was removed, and nothing else was changed. -/
structure Thinned (place : Place) (fs fs' : FileSystem) : Prop extends Beside place fs fs' where
  known : ∀ other node, fs'.at? other = some node → fs.at? other = some node
  grounded : fs.Grounded → fs'.Grounded

theorem Thinned.refl (place : Place) (fs : FileSystem) : Thinned place fs fs :=
  ⟨.refl place fs, fun _ _ found => found, fun grounded => grounded⟩

theorem Thinned.trans {middle : FileSystem} (first : Thinned place fs middle)
    (later : Thinned place middle fs') : Thinned place fs fs' where
  toBeside := first.toBeside.trans later.toBeside
  known other node found := first.known other node (later.known other node found)
  grounded grounded := later.grounded (first.grounded grounded)

theorem Thinned.none (thinned : Thinned place fs fs') {other : Place} (gone : fs.at? other = none) :
    fs'.at? other = Option.none := by
  cases found : fs'.at? other with
  | none => rfl
  | some node => cases gone.symm.trans (thinned.known other node found)

/-- What is kept of a file system is in order if directories are kept with what is in them. -/
theorem keep_thinned {stays : Place → Bool}
    (outside : ∀ other, Outside place other → stays other = true)
    (above : ∀ other name, stays (other ++ [name]) = true → stays other = true) :
    Thinned place fs (fs.keep stays) where
  workingDir := rfl
  at? other apart := by rw [at?_keep, if_pos (.inr (outside other apart))]
  known other node found := by
    rw [at?_keep] at found
    split at found
    · exact found
    · cases found
  grounded grounded := by
    intro other name node found
    rw [at?_keep] at found ⊢
    split at found
    · next kept =>
      have parent := above other name (kept.resolve_left (by simp))
      rw [if_pos (.inr parent)]
      exact grounded other name node found
    · cases found

/-- Removing a place thins the directory that it is in. -/
theorem removeAll_thinned (fs : FileSystem) (path : String) (place : Place) (name : String)
    (refusals : Refusals) :
    Thinned place fs (fs.removeAll path (place ++ [name]) refusals).2 := by
  unfold removeAll
  dsimp only
  generalize fs.refusedBelow (place ++ [name]) refusals = refused
  have left : Thinned place fs (fs.keep fun p =>
      !(place ++ [name]).isPrefixOf p || refused.any fun r => p.isPrefixOf r.1) := by
    refine keep_thinned (fun other apart => ?_) fun other last kept => ?_
    · have elsewhere : (place ++ [name]).isPrefixOf other = false := by
        rw [Bool.eq_false_iff, ne_eq, List.isPrefixOf_iff_prefix]
        rintro ⟨rest, rfl⟩
        rw [List.append_assoc] at apart
        exact not_outside_append place (by simp) apart
      rw [elsewhere]
      rfl
    · simp only [Bool.or_eq_true, Bool.not_eq_true', Bool.eq_false_iff, ne_eq,
        List.isPrefixOf_iff_prefix, List.any_eq_true] at kept ⊢
      rcases kept with elsewhere | ⟨r, listed, under⟩
      · exact .inl fun inside => elsewhere (inside.trans (List.prefix_append _ _))
      · exact .inr ⟨r, listed, (List.prefix_append _ _).trans under⟩
  split <;> exact left

/-- When a place was removed, nothing is left there and below it. -/
theorem removeAll_gone (fs : FileSystem) {path : String} (below : place ≠ [])
    (removed : (fs.removeAll path place refusals).1 = .ok ()) {other : Place}
    (under : place <+: other) : (fs.removeAll path place refusals).2.at? other = none := by
  unfold removeAll at removed ⊢
  dsimp only at removed ⊢
  cases refused : fs.refusedBelow place refusals with
  | cons first others => simp [refused] at removed
  | nil =>
      have filled : other ≠ [] := by
        rintro rfl
        exact below (List.prefix_nil.1 under)
      simp only [List.head?_nil]
      rw [at?_keep, if_neg (by simp [filled, under])]

theorem removeNames_thinned (dir : String) (place : Place) (refusals : Refusals)
    (fs : FileSystem) (names : List String) :
    Thinned place fs (removeNames dir place refusals fs names).2 := by
  induction names generalizing fs with
  | nil => exact .refl place fs
  | cons name names ih =>
      have first := removeAll_thinned fs (Path.join [dir, name]) place name refusals
      rw [removeNames]
      split
      · next here =>
        rw [here] at first
        exact first
      · next here =>
        rw [here] at first
        exact first.trans (ih _)

/-- When names in a directory were removed, nothing is left of any of them. -/
theorem removeNames_gone {dir : String} {names : List String}
    (removed : (removeNames dir place refusals fs names).1 = .ok ()) {name : String}
    (member : name ∈ names) {other : Place} (under : place ++ [name] <+: other) :
    (removeNames dir place refusals fs names).2.at? other = none := by
  induction names generalizing fs with
  | nil => cases member
  | cons first names ih =>
      rw [removeNames] at removed ⊢
      split at removed
      · cases removed
      · next left here =>
        rcases List.mem_cons.1 member with rfl | later
        · have gone := fs.removeAll_gone (by simp) (congrArg Prod.fst here) under
          rw [here] at gone
          exact (removeNames_thinned dir place refusals left names).none gone
        · exact ih removed later

/-- When all names in a directory were removed, nothing is left in it. -/
theorem Grounded.removeNames_vacant (grounded : fs.Grounded) {dir : String}
    (removed : (removeNames dir place refusals fs (fs.names place)).1 = .ok ()) :
    (removeNames dir place refusals fs (fs.names place)).2.Vacant place := by
  intro other inside
  obtain ⟨⟨below, rfl⟩, deeper⟩ := not_not.1 inside
  obtain ⟨name, rest, rfl⟩ := List.exists_cons_of_ne_nil (show below ≠ [] by simpa using deeper)
  have thinned := removeNames_thinned dir place refusals fs (fs.names place)
  by_cases listed : name ∈ fs.names place
  · exact removeNames_gone removed listed ⟨rest, by simp⟩
  · exact thinned.none (grounded.none_below (at?_of_not_mem_names listed) ⟨rest, by simp⟩)

/-- Places above a place are not below it. -/
theorem outside_of_above {other : Place} (above : other <+: place) : Outside place other :=
  fun below => below.2 (above.eq_of_length_le below.1.length_le)

/-! ## The way to a directory that was thinned -/

/-- Going up leads to places above the start. -/
theorem walk_up {names : List String} (up : ∀ name ∈ names, name = "..")
    (reached : names.foldlM fs.step start = .ok place) : place <+: start := by
  induction names generalizing start with
  | nil =>
      obtain rfl : start = place := Except.ok.inj reached
      exact List.prefix_refl _
  | cons name names ih =>
      rw [List.foldlM_cons, bind_eq_ok] at reached
      obtain ⟨next, stepped, later⟩ := reached
      rw [up name List.mem_cons_self] at stepped
      have higher := ih (fun other member => up other (List.mem_cons_of_mem name member)) later
      rw [(step_up stepped).2] at higher
      exact higher.trans (List.dropLast_prefix start)

/-- Cleaned steps pass only directories above their start and above their end. -/
theorem walk_settled {rooted : Bool} {taken : List String} (settled : Settled rooted taken)
    (known : ∀ name ∈ taken, Step name) (same : ∀ other, other <+: start ∨ other <+: place →
      fs.at? other = some .dir → fs'.at? other = some .dir)
    (reached : taken.reverse.foldlM fs.step start = .ok place) :
    taken.reverse.foldlM fs'.step start = .ok place := by
  induction taken generalizing place with
  | nil => exact reached
  | cons last earlier ih =>
      rw [List.reverse_cons, walk_snoc] at reached ⊢
      obtain ⟨between, before, stepped⟩ := reached
      have above : between <+: start ∨ between <+: place := by
        by_cases up : last = ".."
        · refine .inl (walk_up (fun name member => ?_) before)
          exact (settled.2 up).2 name (List.mem_reverse.1 member)
        · have moves := (known last List.mem_cons_self).moves
          rw [step_down moves up stepped]
          exact .inr (List.prefix_append _ _)
      have here := (step_ok stepped).1
      have known' : ∀ name ∈ earlier, Step name :=
        fun name member => known name (List.mem_cons_of_mem last member)
      refine ⟨between, ih settled.1 known' (fun other passed => same other ?_) before, ?_⟩
      · exact passed.elim .inl fun shorter => above.imp shorter.trans shorter.trans
      · rw [step_congr ((same between above here).trans here.symm), stepped]

/-- Cleaned steps still lead to a directory if those above it and above their start are kept. -/
theorem Leads.of_kept {rooted : Bool} {names : List String} (leads : fs.Leads rooted names place)
    (workingDir : fs'.workingDir = fs.workingDir)
    (kept : ∀ other, other <+: (if rooted then [] else fs.workingDir) ∨ other <+: place →
      fs.at? other = some .dir → fs'.at? other = some .dir) : fs'.Leads rooted names place := by
  refine ⟨leads.cleaned, ?_, kept place (.inr (List.prefix_refl _)) leads.directory⟩
  have settled := leads.cleaned.settled
  have known : ∀ name ∈ names.reverse, Step name :=
    fun name member => leads.cleaned.steps name (List.mem_reverse.1 member)
  have reached := leads.reached
  rw [workingDir]
  rw [← List.reverse_reverse names] at reached ⊢
  exact walk_settled settled known kept reached

/-- Cleaned steps still lead to a directory of which some was removed, if their start is still
there. -/
theorem Leads.thinned {rooted : Bool} {names : List String} (leads : fs.Leads rooted names place)
    (grounded : fs.Grounded) (thinned : Thinned place fs fs')
    (there : rooted = false → fs'.at? fs.workingDir ≠ none) : fs'.Leads rooted names place := by
  refine leads.of_kept thinned.workingDir fun other passed directory => ?_
  rcases passed with above | above
  · cases rooted with
    | true =>
        obtain rfl := List.prefix_nil.1 above
        exact directory
    | false =>
        obtain ⟨node, found⟩ := Option.ne_none_iff_exists'.1 (there rfl)
        obtain ⟨below, same⟩ := above
        rw [if_neg Bool.false_ne_true] at same
        by_cases here : below = []
        · rw [here, List.append_nil] at same
          rw [← same] at found
          rw [found, ← thinned.known other node found, directory]
        · rw [← same] at found
          exact (thinned.grounded grounded).above here found
  · rw [thinned.at? other (outside_of_above above), directory]

end ComposeStability.FileSystem
