/-
# Proofs.Instrument.Overlay -- copies are not mixed up

The place of a copy is that of the output directory followed by the names on the
way to the source (`place_of_target`), so copies of different sources are
different files.  A call writes to the copy of its source or to no file at all
(`Attempted`), and the overlay has one entry for each source with a call that
succeeded (`Sound`), whatever the spelling of the sources and the order of the
calls.

A copy is written in place.  So it holds the content of the last call that
succeeded, until a later call for the same source opens it and fails: then it holds
what that call could write, and its entry stays (`cut_copy_listed`).
-/
import ComposeStability.Instrument.Overlay
import ComposeStability.Proofs.Config.Search
import ComposeStability.Proofs.FileSystem.Replacement
import Mathlib.Data.List.Dedup

namespace ComposeStability.Instrument.Overlay

set_option autoImplicit false

open ComposeStability.Path (Cleaned)
open ComposeStability.Config (goAlong startPlace absolute_eq startPlace_cleaned)
open FileSystem (Place DirsKept filesAfter pathOf locate_mono read_eq_ok)

/-! ## Calls -/

/-- A call that writes a copy. -/
structure WriteCall where
  source : String
  content : List UInt8
  refusals : FileSystem.Refusals := {}

/-- A call, the absolute path of its source, and why it failed if it did. -/
structure Attempt where
  call : WriteCall
  source : String
  failure : Option OverlayError

/-- What a call that fails leaves in the copy: the bytes that it could write, once the copy is open. -/
def Attempt.cut? (a : Attempt) : Option (List UInt8) :=
  match a.failure with
  | some (.file cause) =>
      if cause.operation = "open" then none else some (a.call.refusals.accepted a.call.content)
  | _ => none

/-- What a call puts into the copy: its content if it succeeds. -/
def Attempt.left? (a : Attempt) : Option (List UInt8) :=
  if a.failure.isNone then some a.call.content else a.cut?

/-- The files and the overlay after some calls. -/
structure Copying where
  files : FileSystem
  overlay : Overlay := {}
  attempts : List Attempt := []

/-- One more call.  If it fails, the overlay is the one from before. -/
def Copying.write (dir : String) (c : Copying) (call : WriteCall) : Copying :=
  let source := Path.absolute c.files.workingPath call.source
  match c.overlay.writeFile c.files dir call.source call.content call.refusals with
  | (.ok overlay, files) => ⟨files, overlay, c.attempts ++ [⟨call, source, none⟩]⟩
  | (.error cause, files) => ⟨files, c.overlay, c.attempts ++ [⟨call, source, some cause⟩]⟩

/-- Calls with one output directory, one after the other. -/
def copyAll (fs : FileSystem) (dir : String) (calls : List WriteCall) : Copying :=
  calls.foldl (Copying.write dir) { files := fs }

/-- What the copy of a source holds after some calls, if one of them has opened it. -/
def held? (attempts : List Attempt) (source : String) : Option (List UInt8) :=
  ((attempts.filter (·.source = source)).filterMap Attempt.left?).getLast?

/-- What the last of some calls that failed left in the copy of a source. -/
def cutLast? (attempts : List Attempt) (source : String) : Option (List UInt8) :=
  ((attempts.filter (·.source = source)).filterMap Attempt.cut?).getLast?

/-! ## Where copies are -/

section
variable {fs : FileSystem} {names others : List String} {place : Place}

/-- The path of a copy has the steps of the output directory and then those of the source.  Without
an output directory, copies have the paths of their sources. -/
theorem targetOf_pathOf (dir : String) (cleaned : Cleaned true names) :
    Path.isAbsolute (targetOf dir (pathOf names)) = (dir == "" || Path.isAbsolute dir) ∧
      Path.steps (targetOf dir (pathOf names)) = Path.kept dir ++ names := by
  have own : Path.steps (pathOf names) = names := Config.steps_pathOf cleaned.steps
  have filled : pathOf names ≠ "" := by simp [pathOf]
  have absolute : Path.isAbsolute (pathOf names) = true :=
    (Path.isAbsolute_iff _).2 (by simp [pathOf])
  by_cases empty : dir = ""
  · subst empty
    have text : targetOf "" (pathOf names) = Path.clean (pathOf names) := by
      simp [targetOf, Path.join, filled]
    rw [text, Path.isAbsolute_clean, Path.steps_clean, Path.kept, own, absolute, cleaned.foldl_eq]
    exact ⟨rfl, rfl⟩
  · have text : targetOf dir (pathOf names) = Path.clean (dir ++ "/" ++ pathOf names) := by
      simp [targetOf, Path.join, empty, String.intercalate_cons_cons]
    have front : Path.isAbsolute (dir ++ "/" ++ pathOf names) = Path.isAbsolute dir := by
      rw [String.append_assoc, Path.isAbsolute_append empty]
    constructor
    · simp [text, Path.isAbsolute_clean, front, empty]
    · rw [text, Path.steps_clean, Path.kept, front, Path.steps_append, own, List.foldl_append,
        Path.foldl_takeStep_down cleaned.down, List.reverse_append, List.reverse_reverse]
      rfl

/-- Where the output directory is, if it is there. -/
def outputPlace (fs : FileSystem) (dir : String) : Place :=
  goAlong (if dir == "" || Path.isAbsolute dir then [] else fs.workingDir) (Path.kept dir)

theorem place_of_target {dir : String} (cleaned : Cleaned true names)
    (located : fs.locate (targetOf dir (pathOf names)) = .ok place) :
    place = outputPlace fs dir ++ names := by
  obtain ⟨absolute, steps⟩ := targetOf_pathOf dir cleaned
  have reached := Config.goAlong_of_locate located
  rw [absolute, steps, Config.goAlong_append, Config.goAlong_down _ cleaned.down] at reached
  exact reached.symm

/-- Copies at one place have the same source. -/
theorem names_eq_of_target {dir : String} (cleaned : Cleaned true names)
    (cleaned' : Cleaned true others)
    (located : fs.locate (targetOf dir (pathOf names)) = .ok place)
    (located' : fs.locate (targetOf dir (pathOf others)) = .ok place) : names = others := by
  have below := place_of_target cleaned located
  rw [place_of_target cleaned' located'] at below
  exact (List.append_cancel_left below).symm

end

/-! ## What a call does -/

/-- What a call does to the files: it writes to the copy of its source, or to no file. -/
inductive Effect (before after : FileSystem) (target : String) : Option (List UInt8) → Prop where
  | none (same : ∀ place content,
      after.at? place = some (.file content) ↔ before.at? place = some (.file content)) :
      Effect before after target none
  | copy {bytes : List UInt8} {copy : Place} (located : after.locate target = .ok copy)
      (holds : after.at? copy = some (.file bytes))
      (elsewhere : ∀ place, place ≠ copy → ∀ content,
        after.at? place = some (.file content) ↔ before.at? place = some (.file content)) :
      Effect before after target (some bytes)

/-- What a call does. -/
structure Attempted (dir : String) (c : Copying) (a : Attempt) (c' : Copying) : Prop where
  source : a.source = Path.absolute c.files.workingPath a.call.source
  attempts : c'.attempts = c.attempts ++ [a]
  overlay : c'.overlay =
    if a.failure.isNone then c.overlay.insert a.source (targetOf dir a.source) else c.overlay
  grounded : c'.files.Grounded
  dirsKept : DirsKept c.files c'.files
  effect : Effect c.files c'.files (targetOf dir a.source) a.left?

/-- A call fails before the copy is open, or it writes to the copy after making its directory. -/
theorem writeFile_cases (o : Overlay) (fs : FileSystem) (dir source : String)
    (content : List UInt8) (refusals : FileSystem.Refusals) {seen target : String}
    (absolute : Path.absolute fs.workingPath source = seen) (copy : targetOf dir seen = target) :
    (∃ cause files, o.writeFile fs dir source content refusals = (.error cause, files) ∧
      (∀ failure, cause = .file failure → failure.operation = "open") ∧
      (files = fs ∨ files = filesAfter (fs.makeDirs (Path.dir target) refusals))) ∨
    ∃ middle files, fs.makeDirs (Path.dir target) refusals = .ok middle ∧
      middle.write target (refusals.accepted content) = .ok files ∧
      o.writeFile fs dir source content refusals =
        match refusals.fault? target content with
        | some failure => (.error (.file failure), files)
        | none => (.ok (o.insert seen target), files) := by
  unfold writeFile
  split
  · exact .inl ⟨_, fs, rfl, nofun, .inl rfl⟩
  · simp only [absolute, copy]
    cases made : fs.makeDirs (Path.dir target) refusals with
    | error stopped => exact .inl ⟨.directory stopped.cause, stopped.files, rfl, nofun, .inr rfl⟩
    | ok middle =>
        obtain ⟨failure, failed, early⟩ | ⟨files, outcome, written⟩ :=
          FileSystem.overwrite_cases middle target content refusals
        · simp only [failed]
          refine .inl ⟨.file failure, middle, rfl, ?_, .inr rfl⟩
          rintro _ ⟨rfl⟩
          exact early
        · simp only [outcome]
          refine .inr ⟨middle, files, rfl, written, ?_⟩
          cases refusals.fault? target content <;> rfl

/-- A call that fails before the copy is open leaves nothing in it. -/
theorem left?_early {call : WriteCall} {source : String} {cause : OverlayError}
    (early : ∀ failure, cause = .file failure → failure.operation = "open") :
    Attempt.left? ⟨call, source, some cause⟩ = none := by
  cases cause with
  | file failure => exact if_pos (early failure rfl)
  | source | directory | save => rfl

theorem Copying.write_attempted {c : Copying} (grounded : c.files.Grounded) (dir : String)
    (call : WriteCall) : ∃ a, a.call = call ∧ Attempted dir c a (c.write dir call) := by
  have onWay := grounded.makeDirs_grown
    (Path.dir (targetOf dir (Path.absolute c.files.workingPath call.source))) call.refusals
  unfold Copying.write
  obtain ⟨cause, files, failed, early, left⟩ | ⟨middle, files, made, written, outcome⟩ :=
    writeFile_cases c.overlay c.files dir call.source call.content call.refusals rfl rfl
  · have kept : files.Grounded ∧ DirsKept c.files files ∧ ∀ place content,
        files.at? place = some (.file content) ↔ c.files.at? place = some (.file content) := by
      rcases left with same | same
      · rw [same]
        exact ⟨grounded, .refl _, fun _ _ => Iff.rfl⟩
      · rw [same]
        exact ⟨onWay.2, onWay.1.dirsKept, onWay.1.file_iff⟩
    refine ⟨⟨call, Path.absolute c.files.workingPath call.source, some cause⟩, rfl, ?_⟩
    simp only [failed]
    refine ⟨rfl, rfl, rfl, kept.1, kept.2.1, ?_⟩
    rw [left?_early early]
    exact .none kept.2.2
  · rw [made] at onWay
    obtain ⟨grown, grounded'⟩ : FileSystem.Grown _ c.files middle ∧ middle.Grounded := onWay
    obtain ⟨grounded'', kept, place, located, updated⟩ := grounded'.write_spec written
    have dirsKept := grown.dirsKept.trans kept
    have elsewhere (other : Place) (differ : other ≠ place) (content : List UInt8) :
        files.at? other = some (.file content) ↔ c.files.at? other = some (.file content) := by
      rw [updated.elsewhere differ]
      exact grown.file_iff other content
    have effect := Effect.copy located updated.here elsewhere
    cases fault : call.refusals.fault?
        (targetOf dir (Path.absolute c.files.workingPath call.source)) call.content with
    | none =>
        rw [FileSystem.Refusals.accepted_of_faultless fault] at effect
        rw [fault] at outcome
        refine ⟨⟨call, Path.absolute c.files.workingPath call.source, none⟩, rfl, ?_⟩
        simp only [outcome]
        exact ⟨rfl, rfl, rfl, grounded'', dirsKept, effect⟩
    | some failure =>
        have late := FileSystem.Refusals.fault?_operation fault
        rw [fault] at outcome
        refine ⟨⟨call, Path.absolute c.files.workingPath call.source, some (.file failure)⟩, rfl, ?_⟩
        simp only [outcome]
        refine ⟨rfl, rfl, rfl, grounded'', dirsKept, ?_⟩
        show Effect _ _ _ (if failure.operation = "open" then none else _)
        rw [if_neg late]
        exact effect

/-! ## Entries -/

theorem mem_insert (o : Overlay) (source target : String) (e : String × String) :
    e ∈ (o.insert source target).replace ↔
      e = (source, target) ∨ e ∈ o.replace ∧ e.1 ≠ source := by
  simp [insert]

theorem nodup_insert {o : Overlay} (nodup : (o.replace.map (·.1)).Nodup)
    (source target : String) :
    ((o.insert source target).replace.map (·.1)).Nodup := by
  have kept : ((o.replace.filter fun e => e.1 != source).map (·.1)).Nodup :=
    nodup.sublist (List.filter_sublist.map _)
  refine List.nodup_cons.2 ⟨?_, kept⟩
  intro again
  obtain ⟨e, listed, same⟩ := List.mem_map.1 again
  have differ : e.1 ≠ source := by simpa using (List.mem_filter.1 listed).2
  exact differ same

/-! ## What a copy holds -/

theorem held?_append (attempts : List Attempt) (a : Attempt) (source : String) :
    held? (attempts ++ [a]) source =
      if a.source = source then a.left?.or (held? attempts source)
      else held? attempts source := by
  unfold held?
  by_cases same : a.source = source
  · cases written : a.left? <;> simp [same, written]
  · simp [same]

theorem source_of_held? {attempts : List Attempt} {source : String} {bytes : List UInt8}
    (last : held? attempts source = some bytes) : ∃ a ∈ attempts, a.source = source := by
  have written := List.mem_of_getLast? last
  obtain ⟨a, listed, -⟩ := List.mem_filterMap.1 written
  obtain ⟨member, same⟩ := List.mem_filter.1 listed
  exact ⟨a, member, by simpa using same⟩

/-- Of the calls for a source that succeeded, the last one. -/
theorem exists_last_done {attempts : List Attempt} {a : Attempt} (listed : a ∈ attempts)
    (done : a.failure = none) : ∃ before last after, attempts = before ++ last :: after ∧
      last.source = a.source ∧ last.failure = none ∧
      ∀ b ∈ after, b.source = a.source → b.failure ≠ none := by
  let fits (b : Attempt) : Bool := b.source = a.source && b.failure.isNone
  obtain ⟨last, found⟩ := Option.isSome_iff_exists.1
    (List.find?_isSome.2 ⟨a, List.mem_reverse.2 listed, by simp [fits, done]⟩ :
      (attempts.reverse.find? fits).isSome)
  obtain ⟨own, after, before, shape, none_later⟩ := List.find?_eq_some_iff_append.1 found
  simp only [fits, Bool.and_eq_true, decide_eq_true_eq, Option.isNone_iff_eq_none] at own
  refine ⟨before.reverse, last, after.reverse, ?_, own.1, own.2, fun b later same succeeded => ?_⟩
  · simpa using congrArg List.reverse shape
  · simpa [fits, same, succeeded] using none_later b (List.mem_reverse.1 later)

/-- A copy holds the content of the last call that succeeded, unless a later one has cut it. -/
theorem held?_since {before after : List Attempt} {last : Attempt} (done : last.failure = none)
    (failed : ∀ a ∈ after, a.source = last.source → a.failure ≠ none) :
    held? (before ++ last :: after) last.source =
      some ((cutLast? after last.source).getD last.call.content) := by
  have own : last.left? = some last.call.content := by rw [Attempt.left?, done]; rfl
  have later : (after.filter (·.source = last.source)).filterMap Attempt.left? =
      (after.filter (·.source = last.source)).filterMap Attempt.cut? := by
    refine List.filterMap_congr fun a member => ?_
    obtain ⟨listed, same⟩ := List.mem_filter.1 member
    rw [Attempt.left?, if_neg (by simpa using failed a listed (by simpa using same))]
  rw [held?, cutLast?, List.filter_append, List.filter_cons_of_pos (by simp),
    List.filterMap_append, List.filterMap_cons_some own, later, List.getLast?_append,
    List.getLast?_cons, Option.some_or]

/-! ## Runs -/

/-- What holds after each call. -/
structure Sound (fs : FileSystem) (dir : String) (calls : List WriteCall) (c : Copying) :
    Prop where
  grounded : c.files.Grounded
  workingDir : c.files.workingDir = fs.workingDir
  attempts : c.attempts.map (fun a => (a.call, a.source)) =
    calls.map fun call => (call, Path.absolute fs.workingPath call.source)
  nodup : (c.overlay.replace.map (·.1)).Nodup
  recorded : ∀ e, e ∈ c.overlay.replace ↔
    e.2 = targetOf dir e.1 ∧ ∃ a ∈ c.attempts, a.failure = none ∧ a.source = e.1
  copies : ∀ source bytes, held? c.attempts source = some bytes →
    c.files.read (targetOf dir source) = .ok bytes

section
variable {fs : FileSystem} {dir : String} {calls : List WriteCall} {c c' : Copying}

/-- The source of a call is the path of a place. -/
theorem Sound.exists_names (sound : Sound fs dir calls c) {a : Attempt} (listed : a ∈ c.attempts) :
    ∃ names, Cleaned true names ∧ a.source = pathOf names := by
  have paired : (a.call, a.source) ∈ c.attempts.map fun a => (a.call, a.source) :=
    List.mem_map.2 ⟨a, listed, rfl⟩
  rw [sound.attempts] at paired
  obtain ⟨call, -, same⟩ := List.mem_map.1 paired
  obtain ⟨-, source⟩ := Prod.mk.inj same
  exact ⟨startPlace fs call.source, startPlace_cleaned fs call.source,
    source.symm.trans (absolute_eq fs call.source)⟩

theorem Sound.copies_step (sound : Sound fs dir calls c) {a : Attempt}
    (attempted : Attempted dir c a c') {source : String} {bytes : List UInt8}
    (last : held? c'.attempts source = some bytes) :
    c'.files.read (targetOf dir source) = .ok bytes := by
  rw [attempted.attempts, held?_append] at last
  have effect := attempted.effect
  generalize a.left? = written at effect last
  cases effect with
  | none same =>
      rw [Option.none_or, ite_self] at last
      obtain ⟨place, located, file⟩ := read_eq_ok.1 (sound.copies source bytes last)
      exact read_eq_ok.2
        ⟨place, locate_mono attempted.dirsKept located, (same place bytes).2 file⟩
  | @copy _ copy located holds elsewhere =>
      by_cases own : a.source = source
      · subst own
        rw [if_pos rfl, Option.some_or] at last
        obtain rfl := Option.some.inj last
        exact read_eq_ok.2 ⟨copy, located, holds⟩
      · rw [if_neg own] at last
        obtain ⟨place, located', file⟩ := read_eq_ok.1 (sound.copies source bytes last)
        have still := locate_mono attempted.dirsKept located'
        -- The copy of another source is another file.
        have differ : place ≠ copy := by
          rintro rfl
          obtain ⟨b, listed, rfl⟩ := source_of_held? last
          obtain ⟨others, cleaned', source'⟩ := sound.exists_names listed
          have named := attempted.source.trans (absolute_eq c.files a.call.source)
          have cleaned := startPlace_cleaned c.files a.call.source
          rw [named] at located
          rw [source'] at still
          have same := names_eq_of_target cleaned cleaned' located still
          exact own (by rw [named, source', same])
        exact read_eq_ok.2 ⟨place, still, (elsewhere place differ bytes).2 file⟩

theorem Sound.recorded_step (sound : Sound fs dir calls c) {a : Attempt}
    (attempted : Attempted dir c a c') (e : String × String) :
    e ∈ c'.overlay.replace ↔
      e.2 = targetOf dir e.1 ∧ ∃ b ∈ c'.attempts, b.failure = none ∧ b.source = e.1 := by
  rw [attempted.overlay, attempted.attempts]
  cases failure : a.failure with
  | none =>
      rw [Option.isNone_none, if_pos rfl, mem_insert, sound.recorded]
      constructor
      · rintro (rfl | ⟨⟨target, b, listed, done, same⟩, -⟩)
        · exact ⟨rfl, a, by simp, failure, rfl⟩
        · exact ⟨target, b, List.mem_append_left _ listed, done, same⟩
      · rintro ⟨target, b, listed, done, same⟩
        by_cases own : e.1 = a.source
        · rw [own] at target
          exact .inl (Prod.ext own target)
        · rcases List.mem_append.1 listed with earlier | new
          · exact .inr ⟨⟨target, b, earlier, done, same⟩, own⟩
          · rw [List.mem_singleton.1 new] at same
            exact absurd same.symm own
  | some cause =>
      rw [Option.isNone_some, if_neg Bool.false_ne_true, sound.recorded]
      constructor
      · rintro ⟨target, b, listed, done, same⟩
        exact ⟨target, b, List.mem_append_left _ listed, done, same⟩
      · rintro ⟨target, b, listed, done, same⟩
        rcases List.mem_append.1 listed with earlier | new
        · exact ⟨target, b, earlier, done, same⟩
        · rw [List.mem_singleton.1 new, failure] at done
          cases done

theorem Sound.step (sound : Sound fs dir calls c) (call : WriteCall) :
    Sound fs dir (calls ++ [call]) (c.write dir call) := by
  obtain ⟨a, rfl, attempted⟩ := c.write_attempted sound.grounded dir call
  have source : a.source = Path.absolute fs.workingPath a.call.source := by
    rw [attempted.source, FileSystem.workingPath, sound.workingDir]
    rfl
  constructor
  · exact attempted.grounded
  · exact attempted.dirsKept.1.trans sound.workingDir
  · rw [attempted.attempts, List.map_append, List.map_append, sound.attempts, List.map_singleton,
      List.map_singleton, source]
  · rw [attempted.overlay]
    split
    · exact nodup_insert sound.nodup _ _
    · exact sound.nodup
  · exact sound.recorded_step attempted
  · intro source bytes last
    exact sound.copies_step attempted last

theorem copyAll_snoc (fs : FileSystem) (dir : String) (calls : List WriteCall) (call : WriteCall) :
    copyAll fs dir (calls ++ [call]) = (copyAll fs dir calls).write dir call := by
  simp [copyAll]

theorem copyAll_sound (grounded : fs.Grounded) (dir : String) (calls : List WriteCall) :
    Sound fs dir calls (copyAll fs dir calls) := by
  induction calls using List.reverseRecOn with
  | nil =>
      refine ⟨grounded, rfl, rfl, List.nodup_nil, fun e => ⟨nofun, ?_⟩, nofun⟩
      rintro ⟨-, a, listed, -⟩
      cases listed
  | append_singleton calls call ih =>
      rw [copyAll_snoc]
      exact ih.step call

/-! ## Copies and sources -/

/-- The entries are those of the sources with a call that succeeded. -/
theorem Sound.sources (sound : Sound fs dir calls c) :
    (c.overlay.replace.map (·.1)).Perm
      ((c.attempts.filter (·.failure.isNone)).map (·.source)).dedup := by
  refine (List.perm_ext_iff_of_nodup sound.nodup (List.nodup_dedup _)).2 fun source => ?_
  rw [List.mem_dedup, List.mem_map, List.mem_map]
  constructor
  · rintro ⟨e, listed, rfl⟩
    obtain ⟨-, a, member, done, same⟩ := (sound.recorded e).1 listed
    exact ⟨a, List.mem_filter.2 ⟨member, by simp [done]⟩, same⟩
  · rintro ⟨a, member, rfl⟩
    obtain ⟨listed, done⟩ := List.mem_filter.1 member
    refine ⟨(a.source, targetOf dir a.source), (sound.recorded _).2 ⟨rfl, a, listed, ?_, rfl⟩, rfl⟩
    simpa using done

/-- An entry is that of a copy.  It holds the content of the last call for its source that succeeded,
unless a later call has cut it. -/
structure EntryOf (dir : String) (c : Copying) (e : String × String) (before : List Attempt)
    (last : Attempt) (after : List Attempt) : Prop where
  target : e.2 = targetOf dir e.1
  attempts : c.attempts = before ++ last :: after
  source : last.source = e.1
  done : last.failure = none
  failed : ∀ a ∈ after, a.source = e.1 → a.failure ≠ none
  holds : c.files.read e.2 = .ok ((cutLast? after e.1).getD last.call.content)

theorem Sound.entry (sound : Sound fs dir calls c) {e : String × String}
    (listed : e ∈ c.overlay.replace) : ∃ before last after, EntryOf dir c e before last after := by
  obtain ⟨target, a, member, done, same⟩ := (sound.recorded e).1 listed
  obtain ⟨before, last, after, shape, own, succeeded, failed⟩ := exists_last_done member done
  rw [same] at own failed
  refine ⟨before, last, after, target, shape, own, succeeded, failed, ?_⟩
  rw [target, ← own] at *
  refine sound.copies last.source _ ?_
  rw [shape]
  exact held?_since succeeded failed

/-- Entries of different sources are different files. -/
theorem Sound.entries_apart (sound : Sound fs dir calls c) {e e' : String × String}
    (listed : e ∈ c.overlay.replace) (listed' : e' ∈ c.overlay.replace) (differ : e.1 ≠ e'.1) :
    c.files.locate e.2 ≠ c.files.locate e'.2 := by
  intro same
  obtain ⟨target, a, member, -, source⟩ := (sound.recorded e).1 listed
  obtain ⟨target', a', member', -, source'⟩ := (sound.recorded e').1 listed'
  obtain ⟨before, last, after, entry⟩ := sound.entry listed
  obtain ⟨place, located, -⟩ := read_eq_ok.1 entry.holds
  have located' := same.symm.trans located
  obtain ⟨names, cleaned, named⟩ := sound.exists_names member
  obtain ⟨others, cleaned', named'⟩ := sound.exists_names member'
  rw [target, ← source, named] at located
  rw [target', ← source', named'] at located'
  have names_same := names_eq_of_target cleaned cleaned' located located'
  exact differ (by rw [← source, ← source', named, named', names_same])

/-- Copies are written with one output directory, of sources in any spelling and order, and writing
may be refused at any point.  There is one entry for the absolute path of each source with a call
that succeeded, and its target is the copy of that source.  The copy holds the content of the last
call that succeeded, exactly if no later call has opened it and left other bytes.  Copies of
different sources are different files.  A call that fails leaves the overlay as it is.  Two spellings
have one absolute path exactly if they lead to the same place. -/
theorem copies_apart (grounded : fs.Grounded) (working : Cleaned true fs.workingDir) (dir : String)
    (calls : List WriteCall) :
    let done := copyAll fs dir calls
    done.attempts.map (fun a => (a.call, a.source)) =
        calls.map (fun call => (call, Path.absolute fs.workingPath call.source)) ∧
      (done.overlay.replace.map (·.1)).Perm
        ((done.attempts.filter (·.failure.isNone)).map (·.source)).dedup ∧
      (∀ e ∈ done.overlay.replace, ∃ before last after, EntryOf dir done e before last after ∧
        (done.files.read e.2 = .ok last.call.content ↔
          ∀ bytes, cutLast? after e.1 = some bytes → bytes = last.call.content)) ∧
      (∀ e ∈ done.overlay.replace, ∀ e' ∈ done.overlay.replace, e.1 ≠ e'.1 →
        e.2 ≠ e'.2 ∧ done.files.locate e.2 ≠ done.files.locate e'.2) ∧
      (∀ call a, (copyAll fs dir (calls ++ [call])).attempts.getLast? = some a →
        a.failure ≠ none → (copyAll fs dir (calls ++ [call])).overlay = done.overlay) ∧
      ∀ path path' place place', fs.locate path = .ok place → fs.locate path' = .ok place' →
        (Path.absolute fs.workingPath path = Path.absolute fs.workingPath path' ↔
          place = place') := by
  intro done
  have sound : Sound fs dir calls done := copyAll_sound grounded dir calls
  refine ⟨sound.attempts, sound.sources, fun e listed => ?_, ?_, ?_, ?_⟩
  · obtain ⟨before, last, after, entry⟩ := sound.entry listed
    refine ⟨before, last, after, entry, ?_⟩
    rw [entry.holds, Except.ok.injEq]
    cases cutLast? after e.1 <;> simp
  · intro e listed e' listed' differ
    have apart := sound.entries_apart listed listed' differ
    exact ⟨fun same => apart (congrArg done.files.locate same), apart⟩
  · intro call a last failed
    obtain ⟨b, -, attempted⟩ := done.write_attempted sound.grounded dir call
    rw [copyAll_snoc] at last ⊢
    have own := attempted.attempts ▸ last
    rw [List.getLast?_concat, Option.some_inj] at own
    subst own
    have stopped : b.failure.isNone = false := by
      cases failure : b.failure with
      | none => exact absurd failure failed
      | some cause => rfl
    rw [attempted.overlay, stopped]
    rfl
  · intro path path' place place' located located'
    rw [Config.absolute_eq_iff, Config.startPlace_of_locate working located,
      Config.startPlace_of_locate working located']

end

/-- A working directory, with a directory in the way of one copy. -/
def checkout : FileSystem where
  entries := [(["w"], .dir), (["w", "a.go"], .file [97]), (["w", "out"], .dir),
    (["w", "out", "w"], .dir), (["w", "out", "w", "c.go"], .dir)]
  workingDir := ["w"]

/-- One file in two spellings, one that is cut later, and one whose copy is a directory. -/
def spellings : List WriteCall :=
  [⟨"../w/a.go", [1, 2], {}⟩, ⟨"b.go", [3], {}⟩, ⟨"/w/.//a.go", [4], {}⟩, ⟨"c.go", [5], {}⟩,
    ⟨"/w/b.go", [6, 7], { write := some (1, .noSpace) }⟩]

theorem spellings_apart :
    checkout.Grounded ∧ Cleaned true checkout.workingDir ∧
      Path.absolute checkout.workingPath "../w/a.go" =
        Path.absolute checkout.workingPath "/w/.//a.go" ∧
      (copyAll checkout "out" spellings).overlay.replace.length = 2 ∧
      ∃ before last after, EntryOf "out" (copyAll checkout "out" spellings)
        ("/w/a.go", "out/w/a.go") before last after := by
  have grounded : checkout.Grounded := FileSystem.grounded_of_entries (by decide +kernel)
  have working : Cleaned true checkout.workingDir := by
    have plain : Path.Step "w" := ⟨by decide, by decide, by decide⟩
    exact ⟨⟨trivial, by decide⟩, by simpa [checkout] using plain⟩
  obtain ⟨-, sources, entries, -, -, spelled⟩ := copies_apart grounded working "out" spellings
  obtain ⟨count, listed⟩ :
      (((copyAll checkout "out" spellings).attempts.filter (·.failure.isNone)).map
        (·.source)).dedup.length = 2 ∧
      (copyAll checkout "out" spellings).overlay.replace =
        [("/w/a.go", "out/w/a.go"), ("/w/b.go", "out/w/b.go")] := by
    decide +kernel
  obtain ⟨before, last, after, entry, -⟩ := entries ("/w/a.go", "out/w/a.go") (by simp [listed])
  have same : Path.absolute checkout.workingPath "../w/a.go" =
      Path.absolute checkout.workingPath "/w/.//a.go" :=
    (spelled _ _ ["w", "a.go"] ["w", "a.go"] (by decide +kernel)
      (by decide +kernel)).2 rfl
  refine ⟨grounded, working, same, ?_, before, last, after, entry⟩
  have paired := sources.length_eq
  rw [List.length_map, count] at paired
  exact paired

/-- A rewrite that fails when the disk is full cuts the copy, and its entry stays.  The only call for
the source that succeeded wrote other bytes. -/
theorem cut_copy_listed :
    let done := copyAll checkout "out" spellings
    (done.attempts.filter (·.source = "/w/b.go")).map (fun a => (a.call.content, a.failure.isNone)) =
        [([3], true), ([6, 7], false)] ∧
      ("/w/b.go", "out/w/b.go") ∈ done.overlay.replace ∧
      done.files.read "out/w/b.go" = .ok [6] := by
  decide +kernel

end ComposeStability.Instrument.Overlay
