/-
# Proofs.FileSystem.Replacement -- files are stored as a whole

An entry of the cache and a report are stored alike: directories are made on the
way, a file is written beside the target, and it is moved there.  Whatever is in
the way and whatever the system refuses, the target holds the whole new content
afterwards (`Replaced`), or every file is as it was (`Untouched`); the first
exactly if nothing is in the way and nothing is refused (`Storable`).  The file
beside the target is gone in both cases: what is new elsewhere are directories on
the way (`MadeOn`).

That the target of a failed attempt is as it was takes an argument, since a path
may have `..` after directories that were missing.  A path that leads to a file,
or to a place where nothing is, has its directory there already
(`Grounded.dir_leads`), and then no directory is made.
-/
import ComposeStability.Cache.Disk
import ComposeStability.Report.Store
import ComposeStability.Proofs.FileSystem.Directories

namespace ComposeStability.FileSystem

set_option autoImplicit false

variable {fs before middle after : FileSystem} {path : String} {place : Place}
  {refusals : Refusals}

/-! ## Directories on the way -/

/-- A directory where nothing was before, on the way of a path. -/
structure MadeOn (path : String) (before after : FileSystem) (place : Place) : Prop where
  missing : before.at? place = none
  directory : after.at? place = some .dir
  onWay : ∃ part, LeadingPart part path ∧ after.locate part = .ok place

/-- Nothing is new but directories on the way of a path, and all else is as it was. -/
structure Grown (path : String) (before after : FileSystem) : Prop where
  workingDir : after.workingDir = before.workingDir
  at? : ∀ place, after.at? place = before.at? place ∨ MadeOn path before after place

theorem Grown.refl (path : String) (fs : FileSystem) : Grown path fs fs :=
  ⟨rfl, fun _ => .inl rfl⟩

theorem Grown.dirsKept (grown : Grown path before after) : DirsKept before after := by
  refine ⟨grown.workingDir, fun place directory => ?_⟩
  rcases grown.at? place with same | made
  · rw [same, directory]
  · exact made.directory

theorem Grown.file_iff (grown : Grown path before after) (place : Place) (content : List UInt8) :
    after.at? place = some (.file content) ↔ before.at? place = some (.file content) := by
  rcases grown.at? place with same | made
  · rw [same]
  · simp [made.missing, made.directory]

theorem MadeOn.mono (made : MadeOn path before middle place) (kept : DirsKept middle after) :
    MadeOn path before after place := by
  obtain ⟨part, leading, located⟩ := made.onWay
  exact ⟨made.missing, kept.2 place made.directory, part, leading, locate_mono kept located⟩

theorem Grown.trans (first : Grown path before middle) (later : Grown path middle after) :
    Grown path before after := by
  refine ⟨later.workingDir.trans first.workingDir, fun place => ?_⟩
  rcases first.at? place with same | made
  · rcases later.at? place with same' | made'
    · exact .inl (same'.trans same)
    · exact .inr ⟨same.symm.trans made'.missing, made'.directory, made'.onWay⟩
  · exact .inr (made.mono later.dirsKept)

theorem Grown.of_leading {part : String} (grown : Grown part before after)
    (leading : LeadingPart part path) : Grown path before after := by
  refine ⟨grown.workingDir, fun place => (grown.at? place).imp_right fun made => ?_⟩
  obtain ⟨first, start, located⟩ := made.onWay
  exact ⟨made.missing, made.directory, first, start.trans leading, located⟩

theorem Grounded.makeDir_grown (grounded : before.Grounded)
    (made : before.makeDir path refusals = .ok after) : Grown path before after ∧ after.Grounded := by
  obtain ⟨place, free, updated, located, grounded'⟩ := grounded.makeDir_updated made
  refine ⟨⟨updated.workingDir, fun other => ?_⟩, grounded'⟩
  by_cases here : other = place
  · subst here
    exact .inr ⟨free, updated.here, path, .inl rfl, located⟩
  · exact .inl (updated.elsewhere here)

/-- Making directories makes nothing but directories on the way, also when it fails. -/
theorem Grounded.makeDirs_grown (grounded : fs.Grounded) (path : String) (refusals : Refusals) :
    Grown path fs (filesAfter (fs.makeDirs path refusals)) ∧
      (filesAfter (fs.makeDirs path refusals)).Grounded := by
  suffices ∀ fuel, Grown path fs (filesAfter (fs.makeDirsFrom fuel path refusals)) ∧
      (filesAfter (fs.makeDirsFrom fuel path refusals)).Grounded from this _
  intro fuel
  induction fuel using Nat.strongRecOn generalizing path with
  | ind fuel ih =>
      obtain ⟨middle, above, here⟩ := filesAfter_makeDirsFrom fs path refusals fuel
      have first : Grown path fs middle ∧ middle.Grounded := by
        obtain rfl | ⟨less, parent, rfl, leading, rfl⟩ := above
        · exact ⟨.refl path _, grounded⟩
        · obtain ⟨grown, grounded'⟩ := ih less (Nat.lt_succ_self less) parent
          exact ⟨grown.of_leading leading, grounded'⟩
      rcases here with kept | made
      · rw [kept]
        exact first
      · obtain ⟨grown, grounded'⟩ := first.2.makeDir_grown made
        exact ⟨first.1.trans grown, grounded'⟩

/-! ## The directory of a path that leads somewhere -/

/-- A path that leads somewhere starts from a directory. -/
theorem start_of_located (located : fs.locate path = .ok place) :
    fs.at? (if Path.isAbsolute path then [] else fs.workingDir) = some .dir := by
  rw [locate_of_sound (sound_of_located located)] at located
  obtain ⟨name, names, steps⟩ := List.exists_cons_of_ne_nil (pathSteps_ne_nil path)
  rw [steps, List.foldlM_cons, bind_eq_ok] at located
  obtain ⟨next, stepped, -⟩ := located
  exact (step_ok stepped).1

/-- A text without a slash is a single step. -/
theorem pathSteps_plain {text : String} (plain : '/' ∉ text.toList) :
    ∃ name, pathSteps text = [name] := by
  by_cases empty : text = ""
  · subst empty
    exact ⟨".", rfl⟩
  · exact ⟨text, by simp [pathSteps, Path.split_step plain, empty]⟩

/-- The directory of a path that leads to something else than a directory is there. -/
theorem Grounded.dir_leads (grounded : fs.Grounded) (located : fs.locate path = .ok place)
    (no_dir : fs.at? place ≠ some .dir) :
    ∃ last name, place = last ++ [name] ∧
      fs.Leads (Path.isAbsolute (Path.untilLastSlash path))
        (Path.kept (Path.untilLastSlash path)) last := by
  have sound := sound_of_located located
  rw [locate_of_sound sound] at located
  obtain ⟨above, plain⟩ | ⟨front, rest, above, shape, plain⟩ := Path.untilLastSlash_cases path
  · have relative := Path.isAbsolute_plain plain
    obtain ⟨name, steps⟩ := pathSteps_plain plain
    rw [relative, steps, ← List.nil_append [name], walk_snoc] at located
    obtain ⟨last, here, stepped⟩ := located
    obtain ⟨rfl, directory⟩ := grounded.step_below stepped no_dir
    rw [above]
    exact ⟨last, name, rfl, Path.kept_cleaned "", here, directory⟩
  · subst shape
    obtain ⟨between, there, directory, onward⟩ :=
      locate_leading located (pathFault?_start (by simp) sound)
    obtain ⟨name, steps⟩ := pathSteps_plain plain
    rw [steps, ← List.nil_append [name], walk_snoc] at onward
    obtain ⟨last, here, stepped⟩ := onward
    obtain rfl : between = last := Except.ok.inj here
    obtain ⟨rfl, -⟩ := grounded.step_below stepped no_dir
    obtain ⟨same, there', -, leads⟩ := leads_of_lookup (lookup_eq_ok.2 ⟨_, there, directory⟩)
    rw [there] at there'
    obtain rfl := Except.ok.inj there'
    rw [above]
    exact ⟨between, name, rfl, leads⟩

/-- No directory is made where one is. -/
theorem Leads.makeDirs_there {text : String}
    (leads : fs.Leads (Path.isAbsolute text) (Path.kept text) place) (refusals : Refusals) :
    filesAfter (fs.makeDirs (Path.clean text) refusals) = fs := by
  have reached : (pathSteps (Path.clean text)).foldlM fs.step
      (if Path.isAbsolute (Path.clean text) then [] else fs.workingDir) = .ok place := by
    have reached := leads.reached
    have directory := leads.directory
    rw [Path.clean_eq_render]
    by_cases alone : Path.kept text = []
    · rw [alone] at reached ⊢
      obtain rfl := Except.ok.inj reached
      have steps (rooted : Bool) : pathSteps (Path.render rooted []) = ["."] := by
        cases rooted <;> rfl
      have absolute (rooted : Bool) : Path.isAbsolute (Path.render rooted []) = rooted := by
        cases rooted <;> rfl
      rw [steps, absolute, ← List.nil_append ["."], walk_snoc]
      exact ⟨_, rfl, step_dot directory⟩
    · rw [Path.pathSteps_render alone leads.cleaned.steps,
        Path.isAbsolute_render alone leads.cleaned.steps]
      exact reached
  cases fault : pathFault? (Path.clean text) with
  | some refusal =>
      obtain ⟨stopped, failed, kept⟩ := makeDirs_faulty fault ⟨place, reached⟩
      rw [failed]
      exact kept
  | none =>
      have there : fs.lookup (Path.clean text) = .ok .dir :=
        lookup_eq_ok.2 ⟨place, (locate_of_sound fault).trans reached, leads.directory⟩
      rw [makeDirs, makeDirsFrom.eq_def, there]
      rfl

/-! ## Reading the target -/

/-- Cleaned steps that lead from a directory to a directory did so before other directories were
made. -/
theorem Grown.leads_back (grown : Grown path before after) (grounded : before.Grounded)
    {rooted : Bool} {names : List String} (leads : after.Leads rooted names place)
    (start : before.at? (if rooted then [] else before.workingDir) = some .dir)
    (directory : before.at? place = some .dir) : before.Leads rooted names place := by
  refine leads.of_kept grown.workingDir.symm fun other above _ => ?_
  rw [grown.workingDir] at above
  rcases above with above_start | above_end
  · exact grounded.dir_above above_start start
  · exact grounded.dir_above above_end directory

/-- No directory is made that relative paths start from. -/
theorem Grounded.start_unmade (grounded : fs.Grounded)
    (there : (filesAfter (fs.makeDirs path refusals)).at?
      (if Path.isAbsolute path then [] else fs.workingDir) = some .dir) :
    fs.at? (if Path.isAbsolute path then [] else fs.workingDir) = some .dir := by
  cases absolute : Path.isAbsolute path with
  | true => rfl
  | false =>
      rw [absolute] at there
      change (filesAfter (fs.makeDirs path refusals)).at? fs.workingDir = some .dir at there
      rcases (grounded.makeDirs_grown path refusals).1.at? fs.workingDir with same | made
      · exact same.symm.trans there
      · obtain ⟨stopped, failed, kept⟩ := makeDirs_gone made.missing absolute
        rw [failed] at there
        change stopped.files.at? fs.workingDir = some .dir at there
        rw [kept] at there
        exact there

/-- If making the directory of a path leaves a file at its end, then the directory was there. -/
theorem Grounded.unmade_of_read (grounded : fs.Grounded) {content : List UInt8}
    (read : (filesAfter (fs.makeDirs (Path.dir path) refusals)).read path = .ok content) :
    filesAfter (fs.makeDirs (Path.dir path) refusals) = fs := by
  obtain ⟨grown, grounded'⟩ := grounded.makeDirs_grown (Path.dir path) refusals
  obtain ⟨place, located, file⟩ := read_eq_ok.1 read
  have start := start_of_located located
  rw [grown.workingDir, ← Path.isAbsolute_dir] at start
  have start_before := grounded.start_unmade start
  rw [Path.isAbsolute_dir, ← Path.isAbsolute_untilLastSlash] at start_before
  obtain ⟨last, name, rfl, leads⟩ := grounded'.dir_leads located (by simp [file])
  have directory : fs.at? last = some .dir :=
    grounded last name _ ((grown.file_iff _ content).1 file)
  have leads_before := grown.leads_back grounded leads start_before directory
  exact leads_before.makeDirs_there refusals

/-! ## Outcomes -/

/-- Nothing is in the way of a file, and nothing that it takes is refused. -/
structure Storable (fs : FileSystem) (path : String) (content : List UInt8) (refusals : Refusals) :
    Prop where
  allowed : refusals.Allow content
  free : ∃ middle target, fs.makeDirs (Path.dir path) refusals = .ok middle ∧
    middle.locate path = .ok target ∧ middle.at? target ≠ some .dir

/-- Nothing was stored at a path. -/
structure Untouched (before : FileSystem) (path : String) (after : FileSystem) : Prop where
  files : ∀ place content,
    after.at? place = some (.file content) ↔ before.at? place = some (.file content)
  target : ∀ target, before.locate path = .ok target →
    after.locate path = .ok target ∧ after.at? target = before.at? target
  read : ∀ content, after.read path = .ok content ↔ before.read path = .ok content
  elsewhere : ∀ place,
    after.at? place = before.at? place ∨ MadeOn (Path.dir path) before after place

/-- A file with the content was stored at a path, and nothing else. -/
structure Replaced (before : FileSystem) (path : String) (content : List UInt8)
    (after : FileSystem) : Prop where
  read : after.read path = .ok content
  target : ∃ target, after.locate path = .ok target ∧
    after.at? target = some (.file content) ∧ before.at? target ≠ some .dir ∧
    ∀ place, place ≠ target →
      after.at? place = before.at? place ∨ MadeOn (Path.dir path) before after place

theorem Grounded.untouched (grounded : fs.Grounded) (path : String) (refusals : Refusals) :
    Untouched fs path (filesAfter (fs.makeDirs (Path.dir path) refusals)) := by
  obtain ⟨grown, -⟩ := grounded.makeDirs_grown (Path.dir path) refusals
  refine ⟨grown.file_iff, fun target located => ⟨locate_mono grown.dirsKept located, ?_⟩,
    fun content => ⟨fun read => ?_, fun read => ?_⟩, grown.at?⟩
  · rcases grown.at? target with same | made
    · exact same
    · obtain ⟨last, name, -, leads⟩ := grounded.dir_leads located (by simp [made.missing])
      rw [Path.dir, leads.makeDirs_there refusals]
  · rwa [grounded.unmade_of_read read] at read
  · obtain ⟨place, located, file⟩ := read_eq_ok.1 read
    exact read_eq_ok.2
      ⟨place, locate_mono grown.dirsKept located, (grown.file_iff place content).2 file⟩

section
variable {start : String} {content : List UInt8}

/-- After the directory of a path was made, a file is put at its end as a whole. -/
theorem Grounded.replaced (grounded : fs.Grounded)
    (made : fs.makeDirs (Path.dir path) refusals = .ok middle)
    (moved : middle.replaceFile path start content refusals = .ok after) :
    Storable fs path content refusals ∧ Replaced fs path content after := by
  obtain ⟨grown, grounded'⟩ := grounded.makeDirs_grown (Path.dir path) refusals
  rw [made] at grown grounded'
  change Grown (Path.dir path) fs middle at grown
  obtain ⟨target, located, no_dir, updated, -⟩ := grounded'.replaceFile_spec moved
  have kept := updated.dirsKept fun blocked => absurd blocked no_dir
  have located' := locate_mono kept located
  refine ⟨⟨allow_of_replaced moved, middle, target, made, located, no_dir⟩,
    read_eq_ok.2 ⟨target, located', updated.here⟩, target, located', updated.here,
    fun blocked => no_dir (grown.dirsKept.2 target blocked), fun place differ => ?_⟩
  rw [updated.elsewhere differ]
  exact (grown.at? place).imp_right fun made => made.mono kept

/-- A file that was not put at the end of a path was not put anywhere. -/
theorem Grounded.not_replaced (grounded : fs.Grounded)
    (made : fs.makeDirs (Path.dir path) refusals = .ok middle) {stopped : Stopped ReplaceFault}
    (failed : middle.replaceFile path start content refusals = .error stopped) :
    ¬ Storable fs path content refusals ∧ Untouched fs path stopped.files := by
  have grounded' := (grounded.makeDirs_grown (Path.dir path) refusals).2
  have untouched := grounded.untouched path refusals
  rw [made] at grounded' untouched
  obtain rfl := grounded'.replaceFile_stopped failed
  refine ⟨?_, untouched⟩
  rintro ⟨allowed, other, target, made', located, free⟩
  obtain rfl := Except.ok.inj (made.symm.trans made')
  have directory := (grounded.makeDirs_spec made).2
  obtain ⟨after, moved⟩ := exists_replaced directory allowed located free start
  rw [failed] at moved
  cases moved

end

/-- How a file comes to be stored, or not: directories are made first, then the file is put there. -/
theorem Grounded.store_cases (grounded : fs.Grounded) (path start : String) (content : List UInt8)
    (refusals : Refusals) :
    (∃ stopped, fs.makeDirs (Path.dir path) refusals = .error stopped ∧
      ¬ Storable fs path content refusals ∧ Untouched fs path stopped.files) ∨
    ∃ middle, fs.makeDirs (Path.dir path) refusals = .ok middle ∧
      ((∃ stopped, middle.replaceFile path start content refusals = .error stopped ∧
          ¬ Storable fs path content refusals ∧ Untouched fs path stopped.files) ∨
        ∃ after, middle.replaceFile path start content refusals = .ok after ∧
          Storable fs path content refusals ∧ Replaced fs path content after) := by
  have untouched := grounded.untouched path refusals
  cases made : fs.makeDirs (Path.dir path) refusals with
  | error stopped =>
      rw [made] at untouched
      refine .inl ⟨stopped, rfl, ?_, untouched⟩
      rintro ⟨-, middle, target, made', -⟩
      rw [made] at made'
      cases made'
  | ok middle =>
      refine .inr ⟨middle, rfl, ?_⟩
      cases moved : middle.replaceFile path start content refusals with
      | error stopped => exact .inl ⟨stopped, rfl, grounded.not_replaced made moved⟩
      | ok after => exact .inr ⟨after, rfl, grounded.replaced made moved⟩

/-! ## Entries and reports -/

/-- The file of an entry, which is stored at the current version. -/
def entryContent (e : Cache.Entry) : List UInt8 :=
  { e with schema := Cache.schemaVersion }.encode

/-- The file of a report. -/
def reportContent (summaries : List Stability.Summary) : List UInt8 :=
  Text.toBytes (Report.write summaries)

/-- Storing an entry of the cache, or a report, succeeds exactly if nothing is in the way and nothing
is refused, and then its file holds exactly the new content.  If it fails, every file is as it was.
In both cases all that is new elsewhere are directories on the way to the file. -/
theorem stored_or_untouched (grounded : fs.Grounded) (refusals : Refusals) :
    (∀ (d : Cache.Disk) (key : Cache.Key) (e : Cache.Entry),
      (Storable fs (d.entryPath key) (entryContent e) refusals ∧
        ∃ after, d.put fs key e refusals = (.ok (), after) ∧
          Replaced fs (d.entryPath key) (entryContent e) after) ∨
      (¬ Storable fs (d.entryPath key) (entryContent e) refusals ∧
        ∃ cause after, d.put fs key e refusals = (.error cause, after) ∧
          Untouched fs (d.entryPath key) after)) ∧
    ∀ (path : String) (summaries : List Stability.Summary),
      (Storable fs path (reportContent summaries) refusals ∧
        ∃ after, Report.store fs path summaries refusals = .ok after ∧
          Replaced fs path (reportContent summaries) after) ∨
      (¬ Storable fs path (reportContent summaries) refusals ∧
        ∃ stopped, Report.store fs path summaries refusals = .error stopped ∧
          Untouched fs path stopped.files) := by
  constructor
  · intro d key e
    unfold Cache.Disk.put
    rw [← entryContent]
    obtain ⟨stopped, unmade, blocked, untouched⟩ | ⟨middle, made, outcome⟩ :=
      grounded.store_cases (d.entryPath key) "tmp-" (entryContent e) refusals
    · simp only [unmade]
      exact .inr ⟨blocked, _, _, rfl, untouched⟩
    · obtain ⟨stopped, failed, blocked, untouched⟩ | ⟨after, moved, storable, replaced⟩ := outcome
      · simp only [made, failed]
        exact .inr ⟨blocked, _, _, rfl, untouched⟩
      · simp only [made, moved]
        exact .inl ⟨storable, after, rfl, replaced⟩
  · intro path summaries
    unfold Report.store
    rw [← reportContent]
    obtain ⟨stopped, unmade, blocked, untouched⟩ | ⟨middle, made, outcome⟩ :=
      grounded.store_cases path ".stability-" (reportContent summaries) refusals
    · simp only [unmade]
      exact .inr ⟨blocked, _, rfl, untouched⟩
    · obtain ⟨stopped, failed, blocked, untouched⟩ | ⟨after, moved, storable, replaced⟩ := outcome
      · simp only [made, failed]
        exact .inr ⟨blocked, _, rfl, untouched⟩
      · simp only [made, moved]
        exact .inl ⟨storable, after, rfl, replaced⟩

namespace Demo

/-- A directory with a report in it. -/
def files : FileSystem := { entries := [(["out"], .dir), (["out", "ui.json"], .file [123, 125])] }

/-- Where entries are kept below a file. -/
def disk : Cache.Disk := ⟨"/out/ui.json"⟩

def key : Cache.Key := ⟨List.replicate 32 0⟩

def entry : Cache.Entry := { schema := 0, path := "ex/ui", functions := none }

/-- Nothing can be moved. -/
def unmovable : Refusals := { rename := some .permissionDenied }

theorem replaced_unless_refused :
    files.Grounded ∧
      (Storable files "/out/ui.json" (reportContent []) {} ∧
        ∃ after, Report.store files "/out/ui.json" [] = .ok after ∧
          Replaced files "/out/ui.json" (reportContent []) after) ∧
      (¬ Storable files "/out/ui.json" (reportContent []) unmovable ∧
        ∃ stopped, Report.store files "/out/ui.json" [] unmovable = .error stopped ∧
          Untouched files "/out/ui.json" stopped.files) ∧
      ¬ Storable files (disk.entryPath key) (entryContent entry) {} ∧
        ∃ cause after, disk.put files key entry = (.error cause, after) ∧
          Untouched files (disk.entryPath key) after := by
  have grounded : files.Grounded := grounded_of_entries (by decide +kernel)
  have stored : (Report.store files "/out/ui.json" []).isOk = true := by decide +kernel
  have refused : (Report.store files "/out/ui.json" [] unmovable).isOk = false := by decide +kernel
  have blocked : (disk.put files key entry).1.isOk = false := by decide +kernel
  obtain ⟨entries, reports⟩ := stored_or_untouched grounded {}
  obtain ⟨-, unmoved⟩ := stored_or_untouched grounded unmovable
  refine ⟨grounded, ?_, ?_, ?_⟩
  · obtain done | ⟨-, stopped, failed, -⟩ := reports "/out/ui.json" []
    · exact done
    · rw [failed] at stored
      cases stored
  · obtain ⟨-, after, done, -⟩ | failed := unmoved "/out/ui.json" []
    · rw [done] at refused
      cases refused
    · exact failed
  · obtain ⟨-, after, done, -⟩ | failed := entries disk key entry
    · rw [done] at blocked
      cases blocked
    · exact failed

end Demo

end ComposeStability.FileSystem
