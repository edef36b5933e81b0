/-
# Proofs.Cache.Disk -- a directory of entries is a store

In a directory where no file is in the way (`Disk.Ready`), storing an entry
succeeds; it is found again under its key, what is found under other keys stays
the same, and nothing outside the directory changes (`Disk.Ready.put_spec`).
-/
import ComposeStability.Cache.Disk
import ComposeStability.Proofs.Cache.Entry
import ComposeStability.Proofs.FileSystem.Below

namespace ComposeStability.Cache

set_option autoImplicit false

open FileSystem (Place Node Child Leads Grounded DirsKept Vacant Outside Beside)

/-! ## Names of entries -/

/-- The digits that hexadecimal text consists of. -/
def hexDigits : List Char := (List.range 16).map Nat.digitChar

theorem hexDigits_plain : ∀ c ∈ hexDigits, c ≠ '/' ∧ c ≠ '.' ∧ c.utf8Size = 1 := by
  have all : (hexDigits.all fun c => c ≠ '/' ∧ c ≠ '.' ∧ c.utf8Size = 1) = true := by decide
  exact fun c member => of_decide_eq_true (List.all_eq_true.1 all c member)

theorem digitChar_injective :
    ∀ m < 16, ∀ n < 16, Nat.digitChar m = Nat.digitChar n → m = n := by decide

theorem mem_hexOfBytes {bytes : List UInt8} {c : Char}
    (member : c ∈ (Text.hexOfBytes bytes).toList) : c ∈ hexDigits := by
  simp only [Text.hexOfBytes, String.toList_ofList, List.mem_flatMap, List.mem_cons,
    List.not_mem_nil, or_false] at member
  obtain ⟨b, -, high | low⟩ := member
  · have small : b.toNat / 16 < 16 := by have := b.toNat_lt; omega
    exact List.mem_map.2 ⟨b.toNat / 16, List.mem_range.2 small, high.symm⟩
  · have small : b.toNat % 16 < 16 := by omega
    exact List.mem_map.2 ⟨b.toNat % 16, List.mem_range.2 small, low.symm⟩

theorem length_hexOfBytes (bytes : List UInt8) :
    (Text.hexOfBytes bytes).toList.length = 2 * bytes.length := by
  induction bytes with
  | nil => rfl
  | cons b bytes ih =>
      simp only [Text.hexOfBytes, String.toList_ofList, List.flatMap_cons, List.length_append,
        List.length_cons, List.length_nil] at ih ⊢
      omega

theorem hexOfBytes_injective {bytes others : List UInt8}
    (same : Text.hexOfBytes bytes = Text.hexOfBytes others) : bytes = others := by
  have chars := congrArg String.toList same
  simp only [Text.hexOfBytes, String.toList_ofList] at chars
  clear same
  induction bytes generalizing others with
  | nil => cases others <;> simp at chars ⊢
  | cons b bytes ih =>
      cases others with
      | nil => simp at chars
      | cons d others =>
          simp only [List.flatMap_cons, List.cons_append, List.nil_append, List.cons.injEq] at chars
          obtain ⟨high, low, rest⟩ := chars
          have bound := b.toNat_lt
          have bound' := d.toNat_lt
          have upper := digitChar_injective _ (by omega) _ (by omega) high
          have lower := digitChar_injective _ (by omega) _ (by omega) low
          have value : b.toNat = d.toNat := by omega
          rw [UInt8.toNat_inj.1 value, ih rest]

/-- The name of the directory of an entry. -/
def shard (key : Key) : String := String.ofList (key.text.toList.take 2)

/-- The name of the file of an entry. -/
def fileName (key : Key) : String := key.text ++ ".mp"

/-- A key as hashing gives it. -/
def Key.Whole (key : Key) : Prop := key.bytes.length = 32

theorem utf8ByteSize_of_single {s : String} (single : ∀ c ∈ s.toList, c.utf8Size = 1) :
    s.utf8ByteSize = s.toList.length := by
  rw [← Text.length_toBytes, Text.toBytes_eq]
  generalize s.toList = cs at single
  induction cs with
  | nil => rfl
  | cons c cs ih =>
      rw [List.flatMap_cons, List.length_append, String.length_utf8EncodeChar,
        single c List.mem_cons_self, ih fun d member => single d (List.mem_cons_of_mem c member),
        List.length_cons, Nat.add_comm]

theorem length_text {key : Key} (whole : key.Whole) : key.text.toList.length = 64 := by
  rw [Key.text, length_hexOfBytes, whole]

/-- Names of other lengths than those of the steps up and to the same place are children. -/
theorem child_of_length {name : String} (whole : '/' ∉ name.toList)
    (no_dots : '.' ∉ name.toList.take 1) (filled : name.toList ≠ [])
    (short : name.utf8ByteSize ≤ FileSystem.nameLimit) : Child name := by
  refine ⟨⟨fun empty => filled (by simp [empty]), whole, ?_⟩, ?_, short⟩
  · rintro rfl
    exact no_dots (by decide)
  · rintro rfl
    exact no_dots (by decide)

theorem mem_shard {key : Key} {c : Char} (member : c ∈ (shard key).toList) : c ∈ hexDigits := by
  rw [shard, String.toList_ofList] at member
  exact mem_hexOfBytes (List.mem_of_mem_take member)

theorem length_shard {key : Key} (whole : key.Whole) : (shard key).toList.length = 2 := by
  rw [shard, String.toList_ofList, List.length_take, length_text whole]
  rfl

theorem size_shard {key : Key} (whole : key.Whole) : (shard key).utf8ByteSize = 2 := by
  rw [utf8ByteSize_of_single fun c member => (hexDigits_plain c (mem_shard member)).2.2,
    length_shard whole]

theorem toList_fileName (key : Key) : (fileName key).toList = key.text.toList ++ ".mp".toList := by
  simp [fileName]

theorem size_fileName {key : Key} (whole : key.Whole) : (fileName key).utf8ByteSize = 67 := by
  have single : ∀ c ∈ key.text.toList, c.utf8Size = 1 :=
    fun c member => (hexDigits_plain c (mem_hexOfBytes member)).2.2
  have size : key.text.utf8ByteSize = 64 := by rw [utf8ByteSize_of_single single, length_text whole]
  rw [fileName, String.utf8ByteSize_append, size]
  decide

theorem shard_child {key : Key} (whole : key.Whole) : Child (shard key) := by
  refine child_of_length ?_ ?_ ?_ ?_
  · exact fun slash => (hexDigits_plain _ (mem_shard slash)).1 rfl
  · exact fun dot => (hexDigits_plain _ (mem_shard (List.mem_of_mem_take dot))).2.1 rfl
  · intro none
    have length := length_shard whole
    simp [none] at length
  · rw [size_shard whole]
    decide

theorem fileName_child {key : Key} (whole : key.Whole) : Child (fileName key) := by
  have length := length_text whole
  refine child_of_length ?_ ?_ ?_ ?_
  · rw [toList_fileName]
    intro slash
    rcases List.mem_append.1 slash with digit | ending
    · exact (hexDigits_plain _ (mem_hexOfBytes digit)).1 rfl
    · exact absurd ending (by decide)
  · rw [toList_fileName, List.take_append_of_le_length (by omega)]
    exact fun dot => (hexDigits_plain _ (mem_hexOfBytes (List.mem_of_mem_take dot))).2.1 rfl
  · simp [toList_fileName]
  · rw [size_fileName whole]
    decide

theorem fileName_injective {key other : Key} (same : fileName key = fileName other) :
    key = other := by
  have text : key.text = other.text := by simpa [fileName] using same
  cases key
  cases other
  exact congrArg Key.mk (hexOfBytes_injective text)

namespace Disk

/-! ## The directory -/

theorem entryPath_eq (d : Disk) {key : Key} (whole : key.Whole) :
    d.entryPath key =
      Path.render (Path.isAbsolute d.dir) (Path.kept d.dir ++ [shard key] ++ [fileName key]) := by
  rw [List.append_assoc]
  exact Path.join_below d.dir (shard_child whole).step (fileName_child whole).step
    (shard_child whole).down (fileName_child whole).down

/-- Entries have acceptable paths if the path of the directory leaves room for their names. -/
theorem entryPath_sound (d : Disk) {key : Key} (whole : key.Whole) (named : Path.kept d.dir ≠ [])
    (no_nul : '\x00' ∉ (Path.render (Path.isAbsolute d.dir) (Path.kept d.dir)).toList)
    (short : (Path.render (Path.isAbsolute d.dir) (Path.kept d.dir)).utf8ByteSize + 71 <
      FileSystem.pathLimit) : FileSystem.pathFault? (d.entryPath key) = none := by
  rw [d.entryPath_eq whole, Path.render_snoc (by simp), Path.render_snoc named,
    FileSystem.pathFault?_eq_none_iff]
  have no_nul_shard : '\x00' ∉ (shard key).toList := fun nul => absurd (mem_shard nul) (by decide)
  have no_nul_text : '\x00' ∉ key.text.toList := fun nul => absurd (mem_hexOfBytes nul) (by decide)
  refine ⟨by simp, ?_, ?_⟩
  · simp [toList_fileName, no_nul, no_nul_shard, no_nul_text]
  · have shard_size := size_shard whole
    have file_size := size_fileName whole
    have slash_size : "/".utf8ByteSize = 1 := by decide
    simp only [String.utf8ByteSize_append, shard_size, file_size, slash_size]
    omega

/-- The place of an entry in a directory. -/
def entryPlace (place : Place) (key : Key) : Place := place ++ [shard key] ++ [fileName key]

theorem entryPlace_injective {place : Place} {key other : Key}
    (same : entryPlace place key = entryPlace place other) : key = other := by
  refine fileName_injective ?_
  have last := congrArg List.getLast? same
  simpa [entryPlace] using last

theorem entryPlace_below (place : Place) (key : Key) : ¬ Outside place (entryPlace place key) := by
  rw [entryPlace, List.append_assoc]
  exact FileSystem.not_outside_append place (by simp)

/-- The entry in the bytes of a file. -/
def entryOf (bytes : List UInt8) : Except DiskError (Option Entry) :=
  match Entry.decode bytes with
  | none => .error .decode
  | some e => if e.schema = schemaVersion then .ok (some e) else .ok none

theorem entryOf_encode {e : Entry} (fits : e.Fits) (current : e.schema = schemaVersion) :
    entryOf e.encode = .ok (some e.readBack) := by
  have read := Entry.decode_encode fits []
  rw [List.append_nil] at read
  rw [entryOf, read]
  simp [Entry.readBack, current]

/-- What is found under a key, by what stands at the two places on the way to its entry. -/
def answer (d : Disk) (key : Key) (folder entry : Option Node) :
    Except DiskError (Option Entry) :=
  match FileSystem.pathFault? (d.entryPath key) with
  | some refusal =>
      if refusal = .noSuchFile then .ok none
      else .error (.get ⟨"open", d.entryPath key, refusal⟩)
  | none =>
      match folder with
      | some (.file _) => .error (.get ⟨"open", d.entryPath key, .notDirectory⟩)
      | _ =>
          match entry with
          | some (.file bytes) => entryOf bytes
          | some .dir => .error .decode
          | none => .ok none

/-! ## Any directory -/

/-- A directory at a place, whatever is in it. -/
structure Opened (d : Disk) (fs : FileSystem) (place : Place) : Prop where
  grounded : fs.Grounded
  leads : fs.Leads (Path.isAbsolute d.dir) (Path.kept d.dir) place

section
variable {d : Disk} {fs fs' : FileSystem} {place : Place} {key : Key}

theorem Opened.locate_entry (opened : d.Opened fs place) (whole : key.Whole)
    (sound : FileSystem.pathFault? (d.entryPath key) = none)
    (made : fs.at? (place ++ [shard key]) = some .dir) :
    fs.locate (d.entryPath key) = .ok (entryPlace place key) := by
  rw [d.entryPath_eq whole] at sound ⊢
  exact (opened.leads.snoc (shard_child whole) made).locate_child (fileName_child whole) sound

/-- Without a directory for it, an entry is nowhere. -/
theorem Opened.locate_unmade (opened : d.Opened fs place) (whole : key.Whole)
    (sound : FileSystem.pathFault? (d.entryPath key) = none) :
    (fs.at? (place ++ [shard key]) = none →
        fs.locate (d.entryPath key) = .error .noSuchFile) ∧
      ∀ content, fs.at? (place ++ [shard key]) = some (.file content) →
        fs.locate (d.entryPath key) = .error .notDirectory := by
  have steps := ((opened.leads.cleaned_child (shard_child whole)).snoc (fileName_child whole).step
    (fileName_child whole).down).steps
  rw [d.entryPath_eq whole] at sound ⊢
  rw [FileSystem.locate_of_sound sound, Path.pathSteps_render (by simp) steps,
    Path.isAbsolute_render (by simp) steps, List.foldlM_append,
    opened.leads.reached_child (shard_child whole)]
  constructor
  · intro unmade
    simp [bind, Except.bind, FileSystem.step, unmade]
  · intro content blocked
    simp [bind, Except.bind, FileSystem.step, blocked]

/-- What is found under a key depends on two places. -/
theorem Opened.get_eq (opened : d.Opened fs place) (whole : key.Whole) :
    d.get fs key =
      d.answer key (fs.at? (place ++ [shard key])) (fs.at? (entryPlace place key)) := by
  unfold answer
  cases fault : FileSystem.pathFault? (d.entryPath key) with
  | some refusal =>
      simp [get, FileSystem.read, FileSystem.lookup, FileSystem.locate, FileSystem.follow, fault,
        bind, Except.bind]
  | none =>
      cases made : fs.at? (place ++ [shard key]) with
      | none =>
          have nothing : fs.at? (entryPlace place key) = none :=
            opened.grounded.none_below made (List.prefix_append _ _)
          have located := (opened.locate_unmade whole fault).1 made
          simp [get, FileSystem.read, FileSystem.lookup, located, bind, Except.bind, nothing]
      | some node =>
          cases node with
          | file content =>
              have located := (opened.locate_unmade whole fault).2 content made
              simp [get, FileSystem.read, FileSystem.lookup, located, bind, Except.bind]
          | dir =>
              have located := opened.locate_entry whole fault made
              simp only [get, FileSystem.read, FileSystem.lookup, located, bind, Except.bind]
              cases found : fs.at? (entryPlace place key) with
              | none => simp
              | some node =>
                  cases node with
                  | dir => simp
                  | file bytes => rfl

/-- Making the directory for an entry changes nothing that is found. -/
theorem Opened.shard_made (opened : d.Opened fs place)
    (updated : FileSystem.Updated fs fs' (place ++ [shard key]) .dir)
    (free : ∀ content, fs.at? (place ++ [shard key]) ≠ some (.file content)) :
    d.Opened fs' place ∧ ∀ other : Key, other.Whole → d.get fs' other = d.get fs other := by
  have opened' : d.Opened fs' place :=
    ⟨updated.grounded opened.grounded opened.leads.directory fun _ => rfl,
      opened.leads.mono (updated.dirsKept fun _ => rfl)⟩
  refine ⟨opened', fun other whole => ?_⟩
  rw [opened'.get_eq whole, opened.get_eq whole, updated.at?, updated.elsewhere]
  · split
    · next same =>
      rw [same]
      unfold answer
      cases found : fs.at? (place ++ [shard key]) with
      | none => rfl
      | some node =>
          cases node with
          | dir => rfl
          | file content => exact absurd found (free content)
    · rfl
  · intro same
    have lengths := congrArg List.length same
    simp [entryPlace] at lengths

/-- Putting the file of an entry there changes what is found under its key and no other. -/
theorem Opened.entry_put (opened : d.Opened fs place) (whole : key.Whole)
    (sound : FileSystem.pathFault? (d.entryPath key) = none)
    (made : fs.at? (place ++ [shard key]) = some .dir) {bytes : List UInt8}
    (updated : FileSystem.Updated fs fs' (entryPlace place key) (.file bytes))
    (free : fs.at? (entryPlace place key) ≠ some .dir) :
    d.Opened fs' place ∧ d.get fs' key = entryOf bytes ∧
      ∀ other : Key, other.Whole → other ≠ key → d.get fs' other = d.get fs other := by
  have opened' : d.Opened fs' place :=
    ⟨updated.grounded opened.grounded made fun blocked => absurd blocked free,
      opened.leads.mono (updated.dirsKept fun blocked => absurd blocked free)⟩
  have apart (other : Key) : place ++ [shard other] ≠ entryPlace place key := by
    intro same
    have lengths := congrArg List.length same
    simp [entryPlace] at lengths
  refine ⟨opened', ?_, fun other other_whole differ => ?_⟩
  · rw [opened'.get_eq whole, updated.here, updated.elsewhere (apart key), made]
    simp only [answer, sound]
  · rw [opened'.get_eq other_whole, opened.get_eq other_whole, updated.elsewhere (apart other),
      updated.elsewhere fun same => differ (entryPlace_injective same)]

end

/-! ## Directories where no file is in the way -/

/-- A directory in which entries can be stored. -/
structure Ready (d : Disk) (fs : FileSystem) (place : Place) : Prop where
  grounded : fs.Grounded
  leads : fs.Leads (Path.isAbsolute d.dir) (Path.kept d.dir) place
  sound : ∀ key : Key, key.Whole → FileSystem.pathFault? (d.entryPath key) = none
  shard_free : ∀ key content, fs.at? (place ++ [shard key]) ≠ some (.file content)
  entry_free : ∀ key, fs.at? (entryPlace place key) ≠ some .dir

/-- A directory without entries. -/
structure Empty (d : Disk) (fs : FileSystem) (place : Place) : Prop where
  grounded : fs.Grounded
  leads : fs.Leads (Path.isAbsolute d.dir) (Path.kept d.dir) place
  sound : ∀ key : Key, key.Whole → FileSystem.pathFault? (d.entryPath key) = none
  vacant : fs.Vacant place

theorem Empty.ready {d : Disk} {fs : FileSystem} {place : Place} (empty : d.Empty fs place) :
    d.Ready fs place := by
  refine ⟨empty.grounded, empty.leads, empty.sound, fun key content => ?_, fun key => ?_⟩
  · rw [empty.vacant _ (FileSystem.not_outside_append place (by simp))]
    simp
  · rw [empty.vacant _ (entryPlace_below place key)]
    simp

theorem Ready.opened {d : Disk} {fs : FileSystem} {place : Place} (ready : d.Ready fs place) :
    d.Opened fs place :=
  ⟨ready.grounded, ready.leads⟩

theorem Ready.sound_shard {d : Disk} {fs : FileSystem} {place : Place} (ready : d.Ready fs place)
    {key : Key} (whole : key.Whole) :
    FileSystem.pathFault? (Path.render (Path.isAbsolute d.dir) (Path.kept d.dir ++ [shard key])) =
      none := by
  have sound := ready.sound key whole
  rw [d.entryPath_eq whole, Path.render_snoc (by simp), String.append_assoc] at sound
  have steps := (ready.leads.cleaned_child (shard_child whole)).steps
  exact FileSystem.pathFault?_start (Path.render_ne_empty (by simp) steps) sound

/-- What is found under a key is what is in its file. -/
theorem Ready.get_eq {d : Disk} {fs : FileSystem} {place : Place} (ready : d.Ready fs place)
    {key : Key} (whole : key.Whole) :
    d.get fs key =
      match fs.at? (entryPlace place key) with
      | some (.file bytes) => entryOf bytes
      | _ => .ok none := by
  rw [ready.opened.get_eq whole]
  simp only [answer, ready.sound key whole]
  split
  · next content blocked => exact absurd blocked (ready.shard_free key content)
  · split
    · next found => simp only [found]
    · next found => exact absurd found (ready.entry_free key)
    · next found => simp only [found]

/-! ## Storing -/

theorem dir_entryPath (d : Disk) {key : Key} (whole : key.Whole) :
    Path.dir (d.entryPath key) =
      Path.render (Path.isAbsolute d.dir) (Path.kept d.dir ++ [shard key]) := by
  have child := shard_child whole
  rw [d.entryPath_eq whole]
  exact Path.dir_render (by simp) ((Path.kept_cleaned d.dir).snoc child.step child.down)
    (fileName_child whole).step

/-- Storing an entry succeeds; it changes what is found under its key, nothing that is found under
another key, and nothing outside the directory. -/
theorem Ready.put_spec {d : Disk} {fs : FileSystem} {place : Place} (ready : d.Ready fs place)
    {key : Key} (whole : key.Whole) (e : Entry) :
    ∃ fs', d.put fs key e = (.ok (), fs') ∧ d.Ready fs' place ∧
      d.get fs' key = entryOf { e with schema := schemaVersion }.encode ∧
      (∀ other : Key, other.Whole → other ≠ key → d.get fs' other = d.get fs other) ∧
      Beside place fs fs' := by
  have child := shard_child whole
  generalize encoded : { e with schema := schemaVersion }.encode = bytes
  obtain ⟨middle, made, shard_updated⟩ :=
    ready.leads.makeDirs_child child (ready.sound_shard whole) (ready.shard_free key)
  obtain ⟨middle_opened, middle_get⟩ := ready.opened.shard_made shard_updated (ready.shard_free key)
  have sound := ready.sound key whole
  have apart (other : Key) : entryPlace place other ≠ place ++ [shard key] := by
    intro same
    have lengths := congrArg List.length same
    simp [entryPlace] at lengths
  have entry_free : middle.at? (entryPlace place key) ≠ some .dir := by
    rw [shard_updated.elsewhere (apart key)]
    exact ready.entry_free key
  obtain ⟨fs', written, file_updated⟩ :=
    (middle_opened.leads.snoc child shard_updated.here).replaceFile_child middle_opened.grounded
      (by simp) (fileName_child whole) (d.entryPath_eq whole ▸ sound) entry_free "tmp-" bytes
  obtain ⟨opened, here, elsewhere⟩ :=
    middle_opened.entry_put whole sound shard_updated.here file_updated entry_free
  have ready' : d.Ready fs' place := by
    refine ⟨opened.grounded, opened.leads, ready.sound, fun other content => ?_, fun other => ?_⟩
    · have elsewhere : place ++ [shard other] ≠ entryPlace place key := by
        intro same
        have lengths := congrArg List.length same
        simp [entryPlace] at lengths
      rw [file_updated.elsewhere elsewhere, shard_updated.at?]
      split
      · simp
      · exact ready.shard_free other content
    · rw [file_updated.at?, shard_updated.elsewhere (apart other)]
      split
      · simp
      · exact ready.entry_free other
  refine ⟨fs', ?_, ready', here, fun other other_whole differ => ?_, ?_, fun other outside => ?_⟩
  · rw [← d.entryPath_eq whole] at written
    unfold put
    dsimp only
    rw [d.dir_entryPath whole, made]
    dsimp only
    rw [encoded, written]
  · rw [elsewhere other other_whole differ, middle_get other other_whole]
  · rw [file_updated.workingDir, shard_updated.workingDir]
  · have not_shard : other ≠ place ++ [shard key] := by
      rintro rfl
      exact FileSystem.not_outside_append place (by simp) outside
    have not_entry : other ≠ entryPlace place key := by
      rintro rfl
      exact entryPlace_below place key outside
    rw [file_updated.elsewhere not_entry, shard_updated.elsewhere not_shard]

end Disk

end ComposeStability.Cache
