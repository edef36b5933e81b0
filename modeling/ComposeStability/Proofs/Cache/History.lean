/-
# Proofs.Cache.History -- a directory of entries over many operations

Entries are stored, looked up and removed in one directory, in any order, with
whatever else is in the directory or in its way, and whatever the system refuses.
What is found under a key follows from what became of it (`Disk.fate`): the entry
that was stored last is found, unless all entries were removed since, and
operations on other keys have no part in it (`get_after`).  Removing all entries
may fail half way; then each of them is found as before or not at all.  If
removing the entries removes the working directory as well, a directory with a
relative path is lost (`Disk.Lost`): nothing can be stored in it any more, and
nothing is found.
-/
import ComposeStability.Proofs.Cache.Disk
import ComposeStability.Proofs.FileSystem.Directories

namespace ComposeStability.Cache

set_option autoImplicit false

open FileSystem (Place Refusals)

/-! ## Operations -/

/-- A use of a directory of entries, with what the system refuses meanwhile. -/
inductive Operation where
  | put (key : Key) (e : Entry) (refusals : Refusals)
  | get (key : Key)
  | clear (refusals : Refusals)

/-- Keys are as hashing gives them, and entries are within the bounds of the format. -/
def Operation.Proper : Operation → Prop
  | .put key e _ => key.Whole ∧ e.Fits
  | .get key => key.Whole
  | .clear _ => True

/-- What became of the entry of a key. -/
inductive Fate where
  | untouched
  | cleared
  | stored (e : Entry)

namespace Disk

/-- The files after an operation. -/
def perform (d : Disk) (fs : FileSystem) : Operation → FileSystem
  | .put key e refusals => (d.put fs key e refusals).2
  | .get _ => fs
  | .clear refusals => (d.clear fs refusals).2

/-- The files after several operations. -/
def after (d : Disk) (fs : FileSystem) (ops : List Operation) : FileSystem :=
  ops.foldl d.perform fs

/-- What an operation makes of the entry of a key.  Only operations that succeed count, except that
removing all entries may fail after this one was removed. -/
def turn (d : Disk) (fs : FileSystem) (key : Key) (now : Fate) : Operation → Fate
  | .put other e refusals =>
      if other = key ∧ (d.put fs other e refusals).1.isOk then .stored e else now
  | .get _ => now
  | .clear refusals =>
      match d.clear fs refusals with
      | (.ok _, _) => .cleared
      | (.error _, left) =>
          match d.get left key with
          | .ok none => .cleared
          | _ => now

/-- What became of the entry of a key after several operations. -/
def fate (d : Disk) (key : Key) : FileSystem → Fate → List Operation → Fate
  | _, now, [] => now
  | fs, now, op :: ops => d.fate key (d.perform fs op) (d.turn fs key now op) ops

/-! ## Storing, whether it succeeds or not -/

section
variable {d : Disk} {fs fs' : FileSystem} {place : Place} {key : Key}

/-- Storing an entry either fails and changes nothing that is found, or it changes what is found
under its key and no other. -/
theorem Opened.put_cases (opened : d.Opened fs place) (whole : key.Whole) (e : Entry)
    (refusals : Refusals) :
    d.Opened (d.put fs key e refusals).2 place ∧
      (((d.put fs key e refusals).1.isOk = false ∧
          ∀ other : Key, other.Whole → d.get (d.put fs key e refusals).2 other = d.get fs other) ∨
        ((d.put fs key e refusals).1.isOk = true ∧
          d.get (d.put fs key e refusals).2 key =
            entryOf { e with schema := schemaVersion }.encode ∧
          ∀ other : Key, other.Whole → other ≠ key →
            d.get (d.put fs key e refusals).2 other = d.get fs other)) := by
  generalize stored : d.put fs key e refusals = outcome
  unfold put at stored
  dsimp only at stored
  rw [d.dir_entryPath whole] at stored
  obtain ⟨stopped, unmade, kept⟩ | ⟨middle, made, shard_updated, free⟩ :=
    opened.leads.makeDirs_cases (shard_child whole) refusals
  · rw [unmade] at stored
    dsimp only at stored
    rw [kept] at stored
    subst stored
    exact ⟨opened, .inl ⟨rfl, fun _ _ => rfl⟩⟩
  · obtain ⟨middle_opened, same⟩ := opened.shard_made shard_updated free
    rw [made] at stored
    dsimp only at stored
    cases written : middle.replaceFile (d.entryPath key) "tmp-"
        { e with schema := schemaVersion }.encode refusals with
    | error stopped =>
        rw [written] at stored
        dsimp only at stored
        rw [middle_opened.grounded.replaceFile_stopped written] at stored
        subst stored
        exact ⟨middle_opened, .inl ⟨rfl, same⟩⟩
    | ok fs' =>
        rw [written] at stored
        subst stored
        obtain ⟨target, located, no_dir, updated, -⟩ :=
          middle_opened.grounded.replaceFile_spec written
        have sound := FileSystem.sound_of_located located
        rw [middle_opened.locate_entry whole sound shard_updated.here, Except.ok.injEq] at located
        subst located
        obtain ⟨opened', here, elsewhere⟩ :=
          middle_opened.entry_put whole sound shard_updated.here updated no_dir
        exact ⟨opened', .inr ⟨rfl, here, fun other other_whole differ =>
          (elsewhere other other_whole differ).trans (same other other_whole)⟩⟩

/-! ## Removing all entries -/

/-- A directory whose path starts from a working directory that is not there any more. -/
structure Lost (d : Disk) (fs : FileSystem) : Prop where
  relative : Path.isAbsolute d.dir = false
  gone : fs.at? fs.workingDir = none

/-- Removing all entries takes away some of what is in the directory, or all if it succeeds. -/
theorem Opened.clear_thinned (opened : d.Opened fs place) (refusals : Refusals) :
    FileSystem.Thinned place fs (d.clear fs refusals).2 ∧
      ((d.clear fs refusals).1.isOk = true → (d.clear fs refusals).2.Vacant place) := by
  unfold clear
  split
  · exact ⟨.refl place fs, nofun⟩
  · exact ⟨.refl place fs, nofun⟩
  · next found =>
    obtain ⟨there, located, -, leads⟩ := FileSystem.leads_of_lookup found
    obtain rfl : place = there := Except.ok.inj (opened.leads.reached.symm.trans leads.reached)
    rw [located]
    refine ⟨FileSystem.removeNames_thinned d.dir place refusals fs _, fun removed => ?_⟩
    refine opened.grounded.removeNames_vacant ?_
    dsimp only at removed
    cases outcome : (FileSystem.removeNames d.dir place refusals fs (fs.names place)).1 with
    | ok _ => rfl
    | error cause =>
        rw [outcome] at removed
        cases removed

/-- Nothing is found in an empty directory. -/
theorem Opened.get_vacant (opened : d.Opened fs place) (vacant : fs.Vacant place)
    (whole : key.Whole) {found : Option Entry} (got : d.get fs key = .ok found) : found = none := by
  rw [opened.get_eq whole, vacant _ (FileSystem.not_outside_append place (by simp)),
    vacant _ (entryPlace_below place key)] at got
  unfold answer at got
  split at got
  · split at got
    · exact (Except.ok.inj got).symm
    · cases got
  · exact (Except.ok.inj got).symm

/-- A directory of which some was removed is still there, or it is lost. -/
theorem Opened.thinned (opened : d.Opened fs place) (thinned : FileSystem.Thinned place fs fs') :
    d.Opened fs' place ∨ d.Lost fs' := by
  by_cases lost : Path.isAbsolute d.dir = false ∧ fs'.at? fs.workingDir = none
  · exact .inr ⟨lost.1, thinned.workingDir ▸ lost.2⟩
  · exact .inl ⟨thinned.grounded opened.grounded,
      opened.leads.thinned opened.grounded thinned fun relative gone => lost ⟨relative, gone⟩⟩

theorem isAbsolute_entryPath (d : Disk) (whole : key.Whole) :
    Path.isAbsolute (d.entryPath key) = Path.isAbsolute d.dir := by
  have cleaned := ((Path.kept_cleaned d.dir).snoc (shard_child whole).step
    (shard_child whole).down).snoc (fileName_child whole).step (fileName_child whole).down
  rw [d.entryPath_eq whole]
  exact Path.isAbsolute_render (by simp) cleaned.steps

theorem Lost.get_eq_none (lost : d.Lost fs) (whole : key.Whole) {found : Option Entry}
    (got : d.get fs key = .ok found) : found = none := by
  obtain ⟨refusal, nowhere⟩ := FileSystem.lookup_gone lost.gone
    ((d.isAbsolute_entryPath whole).trans lost.relative)
  rw [get, FileSystem.read, nowhere] at got
  dsimp only at got
  split at got
  · exact (Except.ok.inj got).symm
  · cases got

/-- A path that is not acceptable is refused whatever files there are. -/
theorem get_of_fault {refusal : FileSystem.Refusal}
    (fault : FileSystem.pathFault? (d.entryPath key) = some refusal) :
    d.get fs' key = d.get fs key := by
  simp [get, FileSystem.read, FileSystem.lookup, FileSystem.locate, FileSystem.follow, fault, bind,
    Except.bind]

theorem Lost.get_of_sound (lost : d.Lost fs) (whole : key.Whole)
    (sound : FileSystem.pathFault? (d.entryPath key) = none) : d.get fs key = .ok none := by
  have nowhere := FileSystem.locate_gone_of_sound lost.gone
    ((d.isAbsolute_entryPath whole).trans lost.relative) sound
  simp [get, FileSystem.read, FileSystem.lookup, nowhere, bind, Except.bind]

/-- Where some of the files were removed, an entry is found as before or not at all. -/
theorem Opened.get_thinned (opened : d.Opened fs place)
    (thinned : FileSystem.Thinned place fs fs') (whole : key.Whole) :
    d.get fs' key = d.get fs key ∨ d.get fs' key = .ok none := by
  cases fault : FileSystem.pathFault? (d.entryPath key) with
  | some refusal => exact .inl (get_of_fault fault)
  | none =>
      obtain opened' | lost := opened.thinned thinned
      · rw [opened'.get_eq whole, opened.get_eq whole]
        simp only [answer, fault]
        cases folder : fs'.at? (place ++ [shard key]) with
        | none =>
            have gone : fs'.at? (entryPlace place key) = none :=
              opened'.grounded.none_below folder (List.prefix_append _ _)
            rw [gone]
            exact .inr rfl
        | some node =>
            rw [thinned.known _ node folder]
            cases entry : fs'.at? (entryPlace place key) with
            | some file =>
                rw [thinned.known _ file entry]
                exact .inl rfl
            | none =>
                cases node with
                | file content => exact .inl rfl
                | dir => exact .inr rfl
      · exact .inr (lost.get_of_sound whole fault)

theorem Lost.put_fails (lost : d.Lost fs) (whole : key.Whole) (e : Entry) (refusals : Refusals) :
    ∃ cause, d.put fs key e refusals = (.error cause, fs) := by
  have child := shard_child whole
  have relative : Path.isAbsolute (Path.dir (d.entryPath key)) = false := by
    rw [d.dir_entryPath whole, Path.isAbsolute_render (by simp)
      ((Path.kept_cleaned d.dir).snoc child.step child.down).steps]
    exact lost.relative
  obtain ⟨stopped, unmade, kept⟩ : ∃ stopped,
      fs.makeDirs (Path.dir (d.entryPath key)) refusals = .error stopped ∧ stopped.files = fs :=
    FileSystem.makeDirs_gone lost.gone relative
  refine ⟨.put stopped.cause, ?_⟩
  unfold put
  dsimp only
  rw [unmade]
  dsimp only
  rw [kept]

theorem Lost.clear_fails (lost : d.Lost fs) (refusals : Refusals) :
    ∃ cause, d.clear fs refusals = (.error cause, fs) := by
  obtain ⟨refusal, nowhere⟩ := FileSystem.lookup_gone lost.gone lost.relative
  rw [clear, nowhere]
  exact ⟨_, rfl⟩

/-! ## Many operations -/

/-- What is found under a key is what became of it. -/
def Bears (d : Disk) (start fs : FileSystem) (key : Key) : Fate → Prop
  | .untouched => d.get fs key = d.get start key
  | .cleared => ∀ found, d.get fs key = .ok found → found = none
  | .stored e => d.get fs key = .ok (some { e with schema := schemaVersion }.readBack)

theorem Bears.of_get_eq {start : FileSystem} {now : Fate} (bears : d.Bears start fs key now)
    (same : d.get fs' key = d.get fs key) : d.Bears start fs' key now := by
  cases now with
  | untouched => exact Eq.trans same bears
  | cleared => exact fun found got => bears found (same.symm.trans got)
  | stored e => exact Eq.trans same bears

theorem Bears.of_get_none {start : FileSystem} (gone : d.get fs key = .ok none) :
    d.Bears start fs key .cleared :=
  fun _ got => (Except.ok.inj (gone.symm.trans got)).symm

theorem Bears.of_entryOf {start : FileSystem} {e : Entry} (fits : e.Fits)
    (here : d.get fs key = entryOf { e with schema := schemaVersion }.encode) :
    d.Bears start fs key (.stored e) := by
  have small : schemaVersion < 65536 := by decide
  refine here.trans (entryOf_encode ?_ rfl)
  exact { fits with schema := small }

/-- A directory in the middle of several operations. -/
structure Midway (d : Disk) (place : Place) (start fs : FileSystem) (key : Key) (now : Fate) :
    Prop where
  there : d.Opened fs place ∨ d.Lost fs
  bears : d.Bears start fs key now

section
variable {start : FileSystem} {now : Fate} (bears : d.Bears start fs key now)
include bears

theorem Bears.put (opened : d.Opened fs place) (whole : key.Whole) {other : Key}
    (other_whole : other.Whole) {e : Entry} (fits : e.Fits) (refusals : Refusals) :
    d.Midway place start (d.put fs other e refusals).2 key
      (d.turn fs key now (.put other e refusals)) := by
  obtain ⟨opened', ⟨failed, same⟩ | ⟨succeeded, here, elsewhere⟩⟩ :=
    opened.put_cases other_whole e refusals
  · rw [turn, if_neg (by simp [failed])]
    exact ⟨.inl opened', bears.of_get_eq (same key whole)⟩
  · by_cases mine : other = key
    · subst mine
      rw [turn, if_pos ⟨rfl, succeeded⟩]
      exact ⟨.inl opened', .of_entryOf fits here⟩
    · rw [turn, if_neg fun both => mine both.1]
      exact ⟨.inl opened', bears.of_get_eq (elsewhere key whole (Ne.symm mine))⟩

theorem Bears.clear (opened : d.Opened fs place) (whole : key.Whole) (refusals : Refusals) :
    d.Midway place start (d.clear fs refusals).2 key (d.turn fs key now (.clear refusals)) := by
  obtain ⟨thinned, vacant⟩ := opened.clear_thinned refusals
  have same := opened.get_thinned thinned whole
  have there := opened.thinned thinned
  rw [turn]
  generalize d.clear fs refusals = outcome at thinned vacant same there
  obtain ⟨removed, left⟩ := outcome
  cases removed with
  | error cause =>
      dsimp only
      split
      · next gone => exact ⟨there, .of_get_none gone⟩
      · next present => exact ⟨there, bears.of_get_eq (same.resolve_right present)⟩
  | ok _ =>
      refine ⟨there, fun found got => ?_⟩
      rcases there with opened' | lost
      · exact opened'.get_vacant (vacant rfl) whole got
      · exact lost.get_eq_none whole got

/-- Nothing succeeds in a directory that is lost. -/
theorem Bears.lost (lost : d.Lost fs) {op : Operation} (proper : op.Proper) :
    d.Midway place start (d.perform fs op) key (d.turn fs key now op) := by
  cases op with
  | get other => exact ⟨.inr lost, bears⟩
  | put other e refusals =>
      obtain ⟨cause, failed⟩ := lost.put_fails proper.1 e refusals
      simp only [Disk.perform, turn, failed]
      rw [if_neg (by simp [Except.isOk, Except.toBool])]
      exact ⟨.inr lost, bears⟩
  | clear refusals =>
      obtain ⟨cause, failed⟩ := lost.clear_fails refusals
      simp only [Disk.perform, turn, failed]
      split
      · next gone => exact ⟨.inr lost, .of_get_none gone⟩
      · exact ⟨.inr lost, bears⟩

end

/-- An operation makes of the entry of a key what it is said to make of it. -/
theorem Midway.perform {start : FileSystem} {now : Fate}
    (midway : d.Midway place start fs key now) (whole : key.Whole) {op : Operation}
    (proper : op.Proper) :
    d.Midway place start (d.perform fs op) key (d.turn fs key now op) := by
  obtain ⟨opened | lost, bears⟩ := midway
  · cases op with
    | get other => exact ⟨.inl opened, bears⟩
    | put other e refusals => exact bears.put opened whole proper.1 proper.2 refusals
    | clear refusals => exact bears.clear opened whole refusals
  · exact bears.lost lost proper

theorem Midway.after {start : FileSystem} {now : Fate} (midway : d.Midway place start fs key now)
    (whole : key.Whole) {ops : List Operation} (proper : ∀ op ∈ ops, op.Proper) :
    d.Midway place start (d.after fs ops) key (d.fate key fs now ops) := by
  induction ops generalizing fs now with
  | nil => exact midway
  | cons op ops ih =>
      exact ih (midway.perform whole (proper op List.mem_cons_self))
        fun later member => proper later (List.mem_cons_of_mem op member)

/-- A directory that was opened is a directory. -/
theorem opened_of_open {env : Environment} {before : FileSystem} {dir : String}
    (grounded : before.Grounded) (opened : Disk.open env before dir = .ok (d, fs)) :
    ∃ place, d.Opened fs place := by
  obtain ⟨path, made, same⟩ : ∃ path, before.makeDirs path = .ok fs ∧ d = ⟨path⟩ := by
    have finish (path : String) (made : (do
        let fs ← (before.makeDirs path).mapError OpenError.directory
        return ((⟨path⟩ : Disk), fs)) = .ok (d, fs)) :
        ∃ path, before.makeDirs path = .ok fs ∧ d = ⟨path⟩ := by
      cases here : before.makeDirs path with
      | error failure => simp [here, Except.mapError, bind, Except.bind] at made
      | ok middle =>
          rw [here] at made
          obtain ⟨rfl, rfl⟩ := Prod.mk.inj (Except.ok.inj made)
          exact ⟨path, here, rfl⟩
    unfold Disk.open at opened
    dsimp only at opened
    split at opened
    · obtain ⟨path, -, made⟩ := bind_eq_ok.1 opened
      exact finish path made
    · obtain ⟨path, -, made⟩ := bind_eq_ok.1 opened
      exact finish path made
  subst same
  obtain ⟨grounded', there⟩ := grounded.makeDirs_spec made
  obtain ⟨place, -, -, leads⟩ := FileSystem.leads_of_lookup there
  exact ⟨place, grounded', leads⟩

/-- Entries are read back from their bytes, with empty lists of receivers absent.  After a directory
was opened and any operations on it, the entry that was stored last under a key is found, at the
current version; after all entries were removed nothing is found, and under a key that was not used
what was found at first, which is nothing in a new directory.  Storing an entry under another key,
whether it succeeds or not, changes nothing that is found.  All this whatever the system refuses. -/
theorem get_after {env : Environment} {before start : FileSystem} {dir : String}
    (grounded : before.Grounded) (opened : Disk.open env before dir = .ok (d, start))
    {ops : List Operation} (proper : ∀ op ∈ ops, op.Proper) (whole : key.Whole) :
    (∀ e : Entry, e.Fits → ∀ rest, Entry.decode (e.encode ++ rest) = some e.readBack) ∧
    (match d.fate key start .untouched ops with
      | .stored e =>
          d.get (d.after start ops) key = .ok (some { e with schema := schemaVersion }.readBack)
      | .cleared => ∀ found, d.get (d.after start ops) key = .ok found → found = none
      | .untouched => d.get (d.after start ops) key = d.get start key) ∧
      ∀ other : Key, other.Whole → other ≠ key → ∀ e refusals,
        d.get (d.put (d.after start ops) other e refusals).2 key =
          d.get (d.after start ops) key := by
  obtain ⟨place, there⟩ := opened_of_open grounded opened
  have first : d.Midway place start start key .untouched := ⟨.inl there, rfl⟩
  have midway : d.Midway place start (d.after start ops) key (d.fate key start .untouched ops) :=
    first.after whole proper
  refine ⟨fun e fits rest => Entry.decode_encode fits rest, ?_, ?_⟩
  · have bears := midway.bears
    cases became : d.fate key start .untouched ops <;> rw [became] at bears <;> exact bears
  · intro other other_whole differ e refusals
    obtain opened' | lost := midway.there
    · obtain ⟨-, ⟨-, same⟩ | ⟨-, -, elsewhere⟩⟩ := opened'.put_cases other_whole e refusals
      · exact same key whole
      · exact elsewhere key whole (Ne.symm differ)
    · obtain ⟨cause, failed⟩ := lost.put_fails other_whole e refusals
      rw [failed]

end

/-! ## Two entries in a new directory -/

namespace Demo

/-- A new directory, and no other files. -/
def files : FileSystem := { entries := [(["cache"], .dir)] }

@[inherit_doc files]
def disk : Disk := ⟨"/cache"⟩

/-- A key of equal bytes. -/
def evenKey (byte : UInt8) : Key := ⟨List.replicate 32 byte⟩

/-- An entry with an empty list of receivers. -/
def entry : Entry where
  schema := 0
  path := "ex/ui"
  functions := some [{
    name := "Screen", qualifiedName := "ex/ui.Screen", visibility := "public", returnType := ""
    restartable := true, skippable := true, readonly := false, strongSkipping := false
    parameters := some [⟨"t", "theme.Theme", .stable, ""⟩], receivers := some [] }]

/-- Nothing can be written. -/
def full : Refusals := { write := some (0, .noSpace) }

/-- An entry is stored and looked up, and another is not stored after it. -/
def uses : List Operation :=
  [.put (evenKey 0) entry {}, .get (evenKey 0),
   .put (evenKey 1) { entry with path := "ex/theme" } full]

theorem evenKey_whole (byte : UInt8) : (evenKey byte).Whole := List.length_replicate

theorem disk_empty : disk.Empty files ["cache"] := by
  refine ⟨FileSystem.grounded_of_entries (by decide +kernel), ⟨Path.kept_cleaned _, ?_, ?_⟩, ?_, ?_⟩
  · decide +kernel
  · decide +kernel
  · exact fun key whole => disk.entryPath_sound whole (by decide +kernel) (by decide +kernel)
      (by decide +kernel)
  · exact FileSystem.vacant_of_entries (by decide +kernel)

theorem fate_uses : disk.fate (evenKey 0) files .untouched uses = .stored entry := by
  obtain ⟨between, first, -⟩ := disk_empty.ready.put_spec (evenKey_whole 0) entry
  have differ : evenKey 1 ≠ evenKey 0 := by decide
  rw [uses, fate, fate, fate, fate, turn, turn, turn, perform, perform, first]
  simp only [differ, false_and, if_false, true_and]
  exact if_pos rfl

theorem entry_found :
    files.Grounded ∧ Disk.open {} files "/cache" = .ok (disk, files) ∧
      (∀ op ∈ uses, op.Proper) ∧ (evenKey 0).Whole ∧
      disk.get (disk.after files uses) (evenKey 0) =
        .ok (some { entry with schema := schemaVersion }.readBack) := by
  have opened : Disk.open {} files "/cache" = .ok (disk, files) := by
    have there : files.lookup "/cache" = .ok .dir := by decide +kernel
    have made : files.makeDirs "/cache" = .ok files := by
      rw [FileSystem.makeDirs, FileSystem.makeDirsFrom.eq_def, there]
    have named : "/cache".isEmpty = false := by decide
    simp [Disk.open, made, named, Except.mapError, bind, Except.bind, pure, Except.pure, disk]
  have proper : ∀ op ∈ uses, op.Proper := by
    have fits : entry.Fits := by decide +kernel
    have fits' : { entry with path := "ex/theme" }.Fits := by decide +kernel
    intro op member
    simp only [uses, List.mem_cons, List.not_mem_nil, or_false] at member
    rcases member with rfl | rfl | rfl
    · exact ⟨evenKey_whole 0, fits⟩
    · exact evenKey_whole 0
    · exact ⟨evenKey_whole 1, fits'⟩
  refine ⟨disk_empty.grounded, opened, proper, evenKey_whole 0, ?_⟩
  have all := get_after disk_empty.grounded opened proper (evenKey_whole 0)
  rw [fate_uses] at all
  exact all.2.1

end Demo

end Disk

end ComposeStability.Cache
