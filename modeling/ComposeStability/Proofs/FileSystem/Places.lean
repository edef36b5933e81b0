/-
# Proofs.FileSystem.Places -- what operations change

What stands at a place after a node was put or erased is known for every place
(`at?_put`, `at?_erase`).  In a file system where everything stands in a
directory (`Grounded`), writing a file in place changes its own place and no other
(`Grounded.write_spec`), and so does replacing it (`Grounded.replaceFile_spec`),
unless that changes nothing (`Grounded.replaceFile_stopped`).  A path that leads
somewhere leads there as long as directories stay directories (`locate_mono`), so
files beside an empty directory are read as before, whatever is put there
(`Beside.read_kept`).
-/
import ComposeStability.FileSystem.Basic
import ComposeStability.Proofs.Outcome
import ComposeStability.Proofs.Text.Fresh
import ComposeStability.Proofs.Text.Separated
import ComposeStability.Proofs.Text.SortedNames
import Mathlib.Data.List.Induction
import Mathlib.Data.List.Nodup

namespace ComposeStability.FileSystem

set_option autoImplicit false

/-! ## Single places -/

@[simp] theorem at?_nil (fs : FileSystem) : fs.at? [] = some .dir := rfl

theorem at?_put {place : Place} (below : place ≠ []) (fs : FileSystem) (node : Node)
    (other : Place) :
    (fs.put place node).at? other = if other = place then some node else fs.at? other := by
  cases other with
  | nil => simp [below.symm]
  | cons name rest =>
      by_cases same : name :: rest = place
      · simp [at?, put, same, below]
      · have differ : ¬ place = name :: rest := fun back => same back.symm
        simp only [at?, put, List.isEmpty_cons, Bool.false_eq_true, if_false, same,
          List.find?_cons, List.find?_filter, beq_eq_false_iff_ne.2 differ]
        congr 2
        funext e
        by_cases here : e.1 = name :: rest
        · simp [here, same]
        · simp [here]

theorem at?_keep (fs : FileSystem) (stays : Place → Bool) (other : Place) :
    (fs.keep stays).at? other = if other = [] ∨ stays other = true then fs.at? other else none := by
  cases other with
  | nil => rfl
  | cons name rest =>
      simp only [at?, keep, List.isEmpty_cons, Bool.false_eq_true, if_false, List.find?_filter,
        reduceCtorEq, false_or]
      split
      · next kept =>
        congr 2
        funext e
        by_cases here : e.1 = name :: rest
        · simp [here, kept]
        · simp [here]
      · next lost =>
        simp only [Option.map_eq_none_iff, List.find?_eq_none]
        intro e _ found
        simp only [decide_eq_true_eq, beq_iff_eq] at found
        exact lost (found.2 ▸ found.1)

theorem at?_erase {place : Place} (below : place ≠ []) (fs : FileSystem) (other : Place) :
    (fs.erase place).at? other = if place <+: other then none else fs.at? other := by
  have kept : fs.erase place = fs.keep fun p => !place.isPrefixOf p := rfl
  rw [kept, at?_keep]
  by_cases under : place <+: other
  · have inside : other ≠ [] := by
      rintro rfl
      exact below (List.prefix_nil.1 under)
    rw [if_pos under, if_neg (by simp [inside, List.isPrefixOf_iff_prefix.2 under])]
  · rw [if_neg under, if_pos (.inr (by simpa [← List.isPrefixOf_iff_prefix] using under))]

/-- Everything stands in a directory. -/
def Grounded (fs : FileSystem) : Prop :=
  ∀ place name node, fs.at? (place ++ [name]) = some node → fs.at? place = some .dir

theorem Grounded.above {fs : FileSystem} (grounded : fs.Grounded) {place below : Place}
    (deeper : below ≠ []) {node : Node} (found : fs.at? (place ++ below) = some node) :
    fs.at? place = some .dir := by
  induction below using List.reverseRecOn generalizing node with
  | nil => exact absurd rfl deeper
  | append_singleton below name ih =>
      rw [← List.append_assoc] at found
      have parent := grounded _ _ _ found
      by_cases last : below = []
      · simpa [last] using parent
      · exact ih last parent

theorem Grounded.dir_above {fs : FileSystem} (grounded : fs.Grounded) {place above : Place}
    (prefixed : above <+: place) (directory : fs.at? place = some .dir) :
    fs.at? above = some .dir := by
  obtain ⟨below, rfl⟩ := prefixed
  by_cases here : below = []
  · simpa [here] using directory
  · exact grounded.above here directory

/-- Nothing stands below a place where nothing stands. -/
theorem Grounded.none_below {fs : FileSystem} (grounded : fs.Grounded) {place other : Place}
    (none : fs.at? place = none) (under : place <+: other) : fs.at? other = Option.none := by
  obtain ⟨below, rfl⟩ := under
  by_cases here : below = []
  · simpa [here] using none
  · cases found : fs.at? (place ++ below) with
    | none => rfl
    | some node =>
        rw [grounded.above here found] at none
        cases none

/-! ## Following paths -/

theorem step_ok {fs : FileSystem} {place next : Place} {name : String}
    (stepped : fs.step place name = .ok next) :
    fs.at? place = some .dir ∧ (next = place ∨ next = place.dropLast ∨ next = place ++ [name]) := by
  unfold step at stepped
  split at stepped
  · cases stepped
  · cases stepped
  · next here =>
    refine ⟨here, ?_⟩
    split at stepped
    · exact .inl (Except.ok.inj stepped).symm
    · split at stepped
      · exact .inr (.inl (Except.ok.inj stepped).symm)
      · split at stepped
        · cases stepped
        · exact .inr (.inr (Except.ok.inj stepped).symm)

theorem step_congr {fs fs' : FileSystem} {place : Place} (same : fs'.at? place = fs.at? place)
    (name : String) : fs'.step place name = fs.step place name := by
  unfold step
  rw [same]

/-- Directories of one file system are directories of another. -/
def DirsKept (fs fs' : FileSystem) : Prop :=
  fs'.workingDir = fs.workingDir ∧ ∀ place, fs.at? place = some .dir → fs'.at? place = some .dir

theorem DirsKept.refl (fs : FileSystem) : DirsKept fs fs := ⟨rfl, fun _ there => there⟩

theorem DirsKept.trans {fs fs' fs'' : FileSystem} (first : DirsKept fs fs')
    (later : DirsKept fs' fs'') : DirsKept fs fs'' :=
  ⟨later.1.trans first.1, fun place there => later.2 place (first.2 place there)⟩

theorem walk_mono {fs fs' : FileSystem} (kept : DirsKept fs fs') {steps : List String}
    {start place : Place} (reached : steps.foldlM fs.step start = .ok place) :
    steps.foldlM fs'.step start = .ok place := by
  induction steps generalizing start with
  | nil => exact reached
  | cons name steps ih =>
      rw [List.foldlM_cons] at reached ⊢
      cases stepped : fs.step start name with
      | error refusal => simp [stepped, bind, Except.bind] at reached
      | ok next =>
          have here := (step_ok stepped).1
          rw [step_congr ((kept.2 start here).trans here.symm), stepped]
          rw [stepped] at reached
          exact ih reached

/-- A path that leads somewhere leads there as long as directories stay directories. -/
theorem locate_mono {fs fs' : FileSystem} (kept : DirsKept fs fs') {path : String} {place : Place}
    (located : fs.locate path = .ok place) : fs'.locate path = .ok place := by
  unfold locate follow at located ⊢
  split at located
  · cases located
  · rw [kept.1]
    exact walk_mono kept located

/-- Whatever a path leads to is reached from a directory. -/
theorem walk_last {fs : FileSystem} {steps : List String} (some_step : steps ≠ [])
    {start place : Place} (reached : steps.foldlM fs.step start = .ok place) :
    ∃ last name, fs.step last name = .ok place := by
  induction steps generalizing start with
  | nil => exact absurd rfl some_step
  | cons name steps ih =>
      rw [List.foldlM_cons] at reached
      cases stepped : fs.step start name with
      | error refusal => simp [stepped, bind, Except.bind] at reached
      | ok next =>
          rw [stepped] at reached
          cases steps with
          | nil =>
              obtain rfl : next = place := by
                simpa [List.foldlM, pure, Except.pure, bind, Except.bind] using reached
              exact ⟨start, name, stepped⟩
          | cons other steps => exact ih (by simp) reached

/-- Every path takes a step. -/
theorem pathSteps_ne_nil (path : String) : pathSteps path ≠ [] := by
  intro none
  simp only [pathSteps, List.append_eq_nil_iff] at none
  have some_piece : Text.split '/' path ≠ [] := by
    simpa [Text.split] using Text.splitChar_ne_nil '/' path.toList
  have ends := List.getLast?_eq_some_getLast some_piece
  generalize (Text.split '/' path).getLast some_piece = last at ends
  by_cases empty : last = ""
  · simp [ends, empty] at none
  · have member : last ∈ (Text.split '/' path).filter (· != "") :=
      List.mem_filter.2 ⟨List.mem_of_getLast? ends, by simpa using empty⟩
    rw [none.1] at member
    cases member

/-- A step to something that is no directory goes down from a directory. -/
theorem Grounded.step_below {fs : FileSystem} (grounded : fs.Grounded) {last place : Place}
    {name : String} (stepped : fs.step last name = .ok place) (no_dir : fs.at? place ≠ some .dir) :
    place = last ++ [name] ∧ fs.at? last = some .dir := by
  obtain ⟨here, rfl | rfl | rfl⟩ := step_ok stepped
  · exact absurd here no_dir
  · -- going up from a directory leads to a directory
    rcases List.eq_nil_or_concat last with rfl | ⟨above, top, rfl⟩
    · exact absurd rfl no_dir
    · rw [List.concat_eq_append] at here no_dir
      rw [List.dropLast_concat] at no_dir
      exact absurd (grounded above top .dir here) no_dir
  · exact ⟨rfl, here⟩

/-- Steps to something that is no directory lead there from a directory above it. -/
theorem Grounded.parent_of_walk {fs : FileSystem} (grounded : fs.Grounded) {steps : List String}
    (some_step : steps ≠ []) {start place : Place}
    (reached : steps.foldlM fs.step start = .ok place) (no_dir : fs.at? place ≠ some .dir) :
    ∃ last name, place = last ++ [name] ∧ fs.at? last = some .dir := by
  obtain ⟨last, name, stepped⟩ := walk_last some_step reached
  exact ⟨last, name, grounded.step_below stepped no_dir⟩

/-- A path to something that is no directory leads there from a directory above it. -/
theorem Grounded.parent_of_locate {fs : FileSystem} (grounded : fs.Grounded) {path : String}
    {place : Place} (located : fs.locate path = .ok place) (no_dir : fs.at? place ≠ some .dir) :
    ∃ last name, place = last ++ [name] ∧ fs.at? last = some .dir := by
  unfold locate follow at located
  split at located
  · cases located
  · exact grounded.parent_of_walk (pathSteps_ne_nil path) located no_dir

theorem lookup_eq_ok {fs : FileSystem} {path : String} {node : Node} :
    fs.lookup path = .ok node ↔
      ∃ place, fs.locate path = .ok place ∧ fs.at? place = some node := by
  unfold lookup
  cases located : fs.locate path with
  | error refusal => simp [bind, Except.bind]
  | ok place => cases found : fs.at? place <;> simp [bind, Except.bind, found]

theorem read_eq_ok {fs : FileSystem} {path : String} {content : List UInt8} :
    fs.read path = .ok content ↔
      ∃ place, fs.locate path = .ok place ∧ fs.at? place = some (.file content) := by
  rw [← lookup_eq_ok, read]
  split
  · next refusal missing => simp [missing]
  · next directory => simp [directory]
  · next other found => simp [found]

/-! ## Below a place -/

/-- A place is not strictly below another. -/
def Outside (place other : Place) : Prop := ¬ (place <+: other ∧ other ≠ place)

instance (place other : Place) : Decidable (Outside place other) :=
  inferInstanceAs (Decidable (¬ _))

theorem not_outside_append (place : Place) {below : Place} (deeper : below ≠ []) :
    ¬ Outside place (place ++ below) :=
  not_not_intro ⟨List.prefix_append _ _, by simp [deeper]⟩

/-- Nothing is below a place. -/
def Vacant (fs : FileSystem) (place : Place) : Prop :=
  ∀ other, ¬ Outside place other → fs.at? other = none

/-- Two file systems differ below a place only. -/
structure Beside (place : Place) (fs fs' : FileSystem) : Prop where
  workingDir : fs'.workingDir = fs.workingDir
  at? : ∀ other, Outside place other → fs'.at? other = fs.at? other

section
variable {place : Place} {fs fs' fs'' : FileSystem}

theorem Beside.refl (place : Place) (fs : FileSystem) : Beside place fs fs := ⟨rfl, fun _ _ => rfl⟩

theorem Beside.trans (first : Beside place fs fs') (second : Beside place fs' fs'') :
    Beside place fs fs'' :=
  ⟨second.workingDir.trans first.workingDir,
    fun other outside => (second.at? other outside).trans (first.at? other outside)⟩

/-- What was there before is still there. -/
theorem Beside.at?_kept (beside : Beside place fs fs') (vacant : fs.Vacant place) {other : Place}
    {node : Node} (found : fs.at? other = some node) : fs'.at? other = some node := by
  by_cases outside : Outside place other
  · rw [beside.at? other outside, found]
  · rw [vacant other outside] at found
    cases found

/-- Files are read as before if something changes only below a place where nothing was. -/
theorem Beside.read_kept (beside : Beside place fs fs') (vacant : fs.Vacant place)
    {path : String} {content : List UInt8} (read : fs.read path = .ok content) :
    fs'.read path = .ok content := by
  have kept : DirsKept fs fs' := ⟨beside.workingDir, fun _ => beside.at?_kept vacant⟩
  obtain ⟨place, located, file⟩ := read_eq_ok.1 read
  exact read_eq_ok.2 ⟨place, locate_mono kept located, beside.at?_kept vacant file⟩

end

/-! ## File systems that are given by their entries -/

theorem mem_entries_of_at? {fs : FileSystem} {place : Place} (below : place ≠ []) {node : Node}
    (found : fs.at? place = some node) : ∃ e ∈ fs.entries, e.1 = place := by
  have inside : place.isEmpty = false := by simpa using below
  rw [FileSystem.at?, inside] at found
  obtain ⟨e, first, -⟩ := Option.map_eq_some_iff.1 found
  exact ⟨e, List.mem_of_find?_eq_some first, by simpa using List.find?_some first⟩

theorem grounded_of_entries {fs : FileSystem}
    (parents : ∀ e ∈ fs.entries, fs.at? e.1.dropLast = some .dir) : fs.Grounded := by
  intro place name node found
  obtain ⟨e, member, here⟩ := mem_entries_of_at? (by simp) found
  simpa [here] using parents e member

theorem vacant_of_entries {fs : FileSystem} {place : Place}
    (outside : ∀ e ∈ fs.entries, Outside place e.1) : fs.Vacant place := by
  intro other inside
  by_cases root : other = []
  · subst root
    refine absurd (fun under => under.2 ?_) inside
    exact (List.prefix_nil.1 under.1).symm
  · cases found : fs.at? other with
    | none => rfl
    | some node =>
        obtain ⟨e, member, rfl⟩ := mem_entries_of_at? root found
        exact absurd (outside e member) inside

/-! ## Fresh names -/

theorem mem_names {fs : FileSystem} {place : Place} {name : String} :
    name ∈ fs.names place ↔ ∃ e ∈ fs.entries, e.1 = place ++ [name] := by
  simp only [names, Text.mem_eraseReps, List.mem_mergeSort, List.mem_filterMap]
  constructor
  · rintro ⟨e, member, found⟩
    refine ⟨e, member, ?_⟩
    split at found
    · next here =>
      simp only [Bool.and_eq_true, beq_iff_eq] at here
      rw [← here.1]
      exact (List.dropLast_append_getLast? name found).symm
    · cases found
  · rintro ⟨e, member, here⟩
    exact ⟨e, member, by simp [here]⟩

theorem at?_of_not_mem_names {fs : FileSystem} {place : Place} {name : String}
    (absent : name ∉ fs.names place) : fs.at? (place ++ [name]) = none := by
  have below : (place ++ [name]).isEmpty = false := by simp
  simp only [at?, below, Bool.false_eq_true, if_false, Option.map_eq_none_iff, List.find?_eq_none]
  intro e member here
  exact absent (mem_names.2 ⟨e, member, by simpa using here⟩)

/-- A fresh name is not in use: there is one more candidate than there are names. -/
theorem freshName_not_mem (fs : FileSystem) (dir : Place) (start : String) :
    fs.freshName dir start ∉ fs.names dir :=
  Text.firstFree_not_mem (fun _ _ same => Text.toString_injective (by simpa using same)) _ start

/-! ## Changes at one place -/

/-- Two file systems differ only in what is at one place. -/
structure Updated (fs fs' : FileSystem) (place : Place) (node : Node) : Prop where
  workingDir : fs'.workingDir = fs.workingDir
  at? : ∀ other, fs'.at? other = if other = place then some node else fs.at? other

theorem Updated.of_there {fs : FileSystem} {place : Place} {node : Node}
    (found : fs.at? place = some node) : Updated fs fs place node := by
  refine ⟨rfl, fun other => ?_⟩
  split
  · next same => rw [same, found]
  · rfl

theorem Updated.here {fs fs' : FileSystem} {place : Place} {node : Node}
    (updated : Updated fs fs' place node) : fs'.at? place = some node := by
  rw [updated.at?, if_pos rfl]

theorem Updated.elsewhere {fs fs' : FileSystem} {place other : Place} {node : Node}
    (updated : Updated fs fs' place node) (differ : other ≠ place) :
    fs'.at? other = fs.at? other := by
  rw [updated.at?, if_neg differ]

theorem Updated.dirsKept {fs fs' : FileSystem} {place : Place} {node : Node}
    (updated : Updated fs fs' place node) (kept : fs.at? place = some .dir → node = .dir) :
    DirsKept fs fs' := by
  refine ⟨updated.workingDir, fun other directory => ?_⟩
  by_cases here : other = place
  · subst here
    rw [updated.here, kept directory]
  · rw [updated.elsewhere here, directory]

theorem Updated.grounded {fs fs' : FileSystem} {place : Place} {name : String} {node : Node}
    (updated : Updated fs fs' (place ++ [name]) node) (grounded : fs.Grounded)
    (directory : fs.at? place = some .dir)
    (kept : fs.at? (place ++ [name]) = some .dir → node = .dir) : fs'.Grounded := by
  intro above last found present
  have dirs := (updated.dirsKept kept).2
  by_cases here : above ++ [last] = place ++ [name]
  · have same : above = place := (List.append_inj_left' here rfl)
    rw [same]
    exact dirs place directory
  · rw [updated.elsewhere here] at present
    exact dirs above (grounded above last found present)

/-! ## Writing files in place -/

theorem write_eq_ok {fs fs' : FileSystem} {path : String} {content : List UInt8}
    (written : fs.write path content = .ok fs') :
    ∃ place, fs.locate path = .ok place ∧ fs.at? place ≠ some .dir ∧
      fs' = fs.put place (.file content) := by
  unfold write at written
  have placed := mapError_eq_ok.1 written
  split at placed
  · -- A path that ends in a slash is refused in any case.
    obtain ⟨_, -, refused⟩ := bind_eq_ok.1 placed
    cases refused
  · obtain ⟨place, located, placed⟩ := bind_eq_ok.1 placed
    refine ⟨place, located, ?_⟩
    split at placed
    · cases placed
    · cases placed
    · split at placed
      · cases placed
      · next free => exact ⟨free, (Except.ok.inj placed).symm⟩

/-- A file that is written holds the content, and nothing else changes. -/
theorem Grounded.write_spec {fs fs' : FileSystem} (grounded : fs.Grounded) {path : String}
    {content : List UInt8} (written : fs.write path content = .ok fs') :
    fs'.Grounded ∧ DirsKept fs fs' ∧ ∃ place, fs'.locate path = .ok place ∧
      Updated fs fs' place (.file content) := by
  obtain ⟨place, located, no_dir, rfl⟩ := write_eq_ok written
  have below : place ≠ [] := by
    rintro rfl
    exact no_dir rfl
  have updated : Updated fs (fs.put place (.file content)) place (.file content) :=
    ⟨rfl, at?_put below fs _⟩
  have kept := updated.dirsKept fun blocked => absurd blocked no_dir
  obtain ⟨last, name, rfl, directory⟩ := grounded.parent_of_locate located no_dir
  exact ⟨updated.grounded grounded directory fun blocked => absurd blocked no_dir, kept, _,
    locate_mono kept located, updated⟩

theorem write_error {fs : FileSystem} {path : String} {content : List UInt8} {cause : Failure}
    (refused : fs.write path content = .error cause) : cause.operation = "open" := by
  obtain ⟨refusal, -, rfl⟩ := mapError_eq_error.1 refused
  rfl

theorem Refusals.fault?_operation {refusals : Refusals} {path : String} {content : List UInt8}
    {cause : Failure} (fault : refusals.fault? path content = some cause) :
    cause.operation ≠ "open" := by
  rcases Option.or_eq_some_iff.1 fault with cut | ⟨-, closing⟩
  · obtain ⟨⟨written, refusal⟩, -, cut⟩ := Option.bind_eq_some_iff.1 cut
    dsimp only at cut
    split at cut
    · obtain rfl := Option.some.inj cut
      show "write" ≠ "open"
      decide
    · cases cut
  · obtain ⟨refusal, -, rfl⟩ := Option.map_eq_some_iff.1 closing
    show "close" ≠ "open"
    decide

/-- Writing without a fault is not cut. -/
theorem Refusals.accepted_of_faultless {refusals : Refusals} {path : String}
    {content : List UInt8} (faultless : refusals.fault? path content = none) :
    refusals.accepted content = content := by
  obtain ⟨uncut, -⟩ := Option.or_eq_none_iff.1 faultless
  unfold Refusals.accepted
  cases limit : refusals.write with
  | none => rfl
  | some limited =>
      obtain ⟨written, refusal⟩ := limited
      have enough : ¬ written < content.length := by simpa [limit] using uncut
      exact List.take_of_length_le (Nat.le_of_not_lt enough)

/-- A file is not opened, or it is written as far as the system accepts it. -/
theorem overwrite_cases (fs : FileSystem) (path : String) (content : List UInt8)
    (refusals : Refusals) :
    (∃ cause, fs.overwrite path content refusals = (some cause, fs) ∧ cause.operation = "open") ∨
      ∃ fs', fs.overwrite path content refusals = (refusals.fault? path content, fs') ∧
        fs.write path (refusals.accepted content) = .ok fs' := by
  unfold overwrite
  cases written : fs.write path (refusals.accepted content) with
  | error cause => exact .inl ⟨cause, rfl, write_error written⟩
  | ok fs' =>
      cases refusals.create with
      | some refusal => exact .inl ⟨_, rfl, rfl⟩
      | none => exact .inr ⟨fs', rfl, rfl⟩

/-! ## Replacing files -/

/-- Moving a file over its target leaves a trace at the target only. -/
theorem Grounded.rename_temporary {fs fs' : FileSystem} (grounded : fs.Grounded)
    {temporary target : Place} (below : temporary ≠ []) (fresh : fs.at? temporary = none)
    {content : List UInt8}
    (moved : (fs.put temporary (.file content)).rename temporary target = .ok fs') :
    fs.at? target ≠ some .dir ∧ Updated fs fs' target (.file content) := by
  have written : (fs.put temporary (.file content)).at? temporary = some (.file content) := by
    rw [at?_put below, if_pos rfl]
  have no_dir : (fs.put temporary (.file content)).at? target ≠ some .dir := by
    intro blocked
    simp [rename, blocked] at moved
  have target_below : target ≠ [] := by
    rintro rfl
    exact no_dir rfl
  have result : ((fs.put temporary (.file content)).erase temporary).put target (.file content) =
      fs' := by
    unfold rename at moved
    split at moved
    · cases moved
    · next node found _ =>
      rw [written, Option.some.injEq] at found
      subst found
      exact Except.ok.inj moved
    · cases moved
  refine ⟨?_, by rw [← result]; rfl, fun place => ?_⟩
  · intro blocked
    by_cases same : target = temporary
    · rw [same, fresh] at blocked
      cases blocked
    · rw [at?_put below, if_neg same] at no_dir
      exact no_dir blocked
  · rw [← result, at?_put target_below, at?_erase below, at?_put below]
    by_cases under : temporary <+: place
    · rw [if_pos under, grounded.none_below fresh under]
    · have apart : place ≠ temporary := fun same => under (same ▸ List.prefix_refl _)
      rw [if_neg under, if_neg apart]

/-! ## Files in place of others -/

theorem put_put (fs : FileSystem) (place : Place) (first later : Node) :
    (fs.put place first).put place later = fs.put place later := by
  simp [put]

/-- A file that is removed right after it was created leaves no trace. -/
theorem Grounded.erase_put {fs : FileSystem} (grounded : fs.Grounded) {place : Place}
    (below : place ≠ []) (fresh : fs.at? place = none) (node : Node) :
    (fs.put place node).erase place = fs := by
  have apart : ∀ e ∈ fs.entries, ¬ place <+: e.1 := by
    intro e member under
    have inside : e.1 ≠ [] := by
      rintro empty
      exact below (List.prefix_nil.1 (empty ▸ under))
    have nothing := grounded.none_below fresh under
    have filled : e.1.isEmpty = false := by simpa using inside
    rw [FileSystem.at?, filled, if_neg Bool.false_ne_true, Option.map_eq_none_iff,
      List.find?_eq_none] at nothing
    exact nothing e member (by simp)
  have kept : fs.entries.filter (fun e => e.1 != place) = fs.entries := by
    refine List.filter_eq_self.2 fun e member => ?_
    have differ : e.1 ≠ place := fun same => apart e member (same ▸ List.prefix_refl _)
    simpa using differ
  have kept' : fs.entries.filter (fun e => !place.isPrefixOf e.1) = fs.entries := by
    refine List.filter_eq_self.2 fun e member => ?_
    have other : place.isPrefixOf e.1 = false := by
      rw [Bool.eq_false_iff]
      exact fun found => apart e member (List.isPrefixOf_iff_prefix.1 found)
    simp [other]
  simp [erase, put, kept, kept']

section
variable {fs fs' : FileSystem} {t : Temporary} {place target : Place} {path start : String}
  {content : List UInt8} {refusals : Refusals}

/-! ## Parts of replacing a file -/

/-- Nothing that is asked of the system for the content of a file is refused. -/
structure Refusals.Allow (refusals : Refusals) (content : List UInt8) : Prop where
  create : refusals.create = none
  write : ∀ written refusal, refusals.write = some (written, refusal) → content.length ≤ written
  close : refusals.close = none
  rename : refusals.rename = none

/-- A new file is created where nothing is. -/
theorem createTemporary_ok {dir : String}
    (created : fs.createTemporary dir start refusals = .ok (t, fs')) :
    refusals.create = none ∧ t.place ≠ [] ∧ fs.at? t.place = none ∧
      fs' = fs.put t.place (.file []) := by
  unfold createTemporary at created
  simp only [bind, Except.bind] at created
  split at created
  · cases created
  · next dirPlace _ =>
    split at created
    · cases created
    · cases created
    · split at created
      · cases created
      · next allowed =>
        obtain ⟨rfl, rfl⟩ := Prod.mk.inj (Except.ok.inj created)
        exact ⟨allowed, by simp, at?_of_not_mem_names (freshName_not_mem fs dirPlace start), rfl⟩

/-- In a directory a new file is created unless that is refused. -/
theorem createTemporary_of_dir {dir : String} (directory : fs.lookup dir = .ok .dir)
    (allowed : refusals.create = none) :
    ∃ t fs', fs.createTemporary dir start refusals = .ok (t, fs') := by
  obtain ⟨place, located, there⟩ := lookup_eq_ok.1 directory
  unfold createTemporary
  simp [located, there, allowed, bind, Except.bind, Except.mapError, pure, Except.pure]

theorem fill_files (fs : FileSystem) (t : Temporary) (content : List UInt8) (refusals : Refusals) :
    ∃ written, (fs.fill t content refusals).2 = fs.put t.place (.file written) := by
  unfold fill
  split
  · split <;> exact ⟨_, rfl⟩
  · exact ⟨_, rfl⟩

theorem fill_eq_ok_iff :
    fs.fill t content refusals = (.ok (), fs') ↔
      (∀ written refusal, refusals.write = some (written, refusal) → content.length ≤ written) ∧
        fs' = fs.put t.place (.file content) := by
  unfold fill
  cases asked : refusals.write with
  | none => simp [eq_comm]
  | some refused =>
      obtain ⟨written, refusal⟩ := refused
      by_cases short : written < content.length
      · simp [short, Nat.not_le_of_lt short]
      · have enough := Nat.le_of_not_lt short
        simp [short, enough, eq_comm]

theorem close_eq_ok_iff : close t refusals = .ok () ↔ refusals.close = none := by
  unfold close
  cases refusals.close <;> simp

theorem moveTemporary_eq_ok_iff :
    fs.moveTemporary t path refusals = .ok fs' ↔
      refusals.rename = none ∧
        ∃ target, fs.locate path = .ok target ∧ fs.rename t.place target = .ok fs' := by
  unfold moveTemporary
  cases located : fs.locate path with
  | error refusal => simp [bind, Except.bind, Except.mapError]
  | ok target =>
      cases refusals.rename with
      | some refusal =>
          simp [bind, Except.bind, Except.mapError, throw, throwThe, MonadExceptOf.throw]
      | none =>
          cases renamed : fs.rename t.place target <;>
            simp [renamed, bind, Except.bind, Except.mapError]

theorem finishTemporary_eq_ok_iff :
    fs.finishTemporary t path content refusals = (.ok (), fs') ↔
      (∀ written refusal, refusals.write = some (written, refusal) → content.length ≤ written) ∧
        refusals.close = none ∧ refusals.rename = none ∧
        ∃ target, (fs.put t.place (.file content)).locate path = .ok target ∧
          (fs.put t.place (.file content)).rename t.place target = .ok fs' := by
  constructor
  · intro finished
    unfold finishTemporary at finished
    split at finished
    · cases finished
    · next middle filled =>
      obtain ⟨written, rfl⟩ := fill_eq_ok_iff.1 filled
      split at finished
      · cases finished
      · next closed =>
        split at finished
        · cases finished
        · next moved_fs moved =>
          obtain rfl := (Prod.mk.inj finished).2
          exact ⟨written, close_eq_ok_iff.1 closed, moveTemporary_eq_ok_iff.1 moved⟩
  · rintro ⟨written, closed, moved⟩
    rw [finishTemporary, fill_eq_ok_iff.2 ⟨written, rfl⟩]
    dsimp only
    rw [close_eq_ok_iff.2 closed]
    dsimp only
    rw [moveTemporary_eq_ok_iff.2 moved]

/-- A new file that is not finished is still there. -/
theorem finishTemporary_error {fault : ReplaceFault}
    (failed : fs.finishTemporary t path content refusals = (.error fault, fs')) :
    ∃ written, fs' = fs.put t.place (.file written) := by
  unfold finishTemporary at failed
  split at failed
  · next cause middle unfilled =>
    obtain ⟨-, rfl⟩ := Prod.mk.inj failed
    obtain ⟨written, left⟩ := fill_files fs t content refusals
    rw [unfilled] at left
    exact ⟨written, left⟩
  · next middle filled =>
    obtain ⟨-, rfl⟩ := fill_eq_ok_iff.1 filled
    split at failed
    · exact ⟨content, (Prod.mk.inj failed).2.symm⟩
    · split at failed
      · exact ⟨content, (Prod.mk.inj failed).2.symm⟩
      · cases failed

/-- A file system with a new file has the directories that it had without. -/
theorem dirsKept_put_file (fresh : fs.at? place = none) (content : List UInt8) :
    DirsKept fs (fs.put place (.file content)) := by
  refine ⟨rfl, fun other directory => ?_⟩
  have below : place ≠ [] := by
    rintro rfl
    cases fresh
  rw [at?_put below, if_neg, directory]
  rintro rfl
  rw [fresh] at directory
  cases directory

/-- A new file is no step on the way to anything. -/
theorem locate_of_put_file (below : place ≠ [])
    (located : (fs.put place (.file content)).locate path = .ok target) :
    fs.locate path = .ok target := by
  have kept : DirsKept (fs.put place (.file content)) fs := by
    refine ⟨rfl, fun other directory => ?_⟩
    rw [at?_put below] at directory
    split at directory
    · cases directory
    · exact directory
  exact locate_mono kept located

/-- A new file can be moved to a place where no directory is. -/
theorem rename_put_file (fresh : fs.at? place = none) (free : fs.at? target ≠ some .dir)
    (content : List UInt8) :
    ∃ fs', (fs.put place (.file content)).rename place target = .ok fs' := by
  have below : place ≠ [] := by
    rintro rfl
    cases fresh
  have open_target : (fs.put place (.file content)).at? target ≠ some .dir := by
    rw [at?_put below]
    split
    · simp
    · exact free
  have written : (fs.put place (.file content)).at? place = some (.file content) := by
    rw [at?_put below, if_pos rfl]
  unfold rename
  rw [written]
  split
  · next blocked => exact absurd blocked open_target
  · exact ⟨_, rfl⟩
  · next missing _ => cases missing

/-! ## Replacing a file -/

theorem replaceFile_eq_ok_iff :
    fs.replaceFile path start content refusals = .ok fs' ↔
      ∃ t middle, fs.createTemporary (Path.dir path) start refusals = .ok (t, middle) ∧
        middle.finishTemporary t path content refusals = (.ok (), fs') := by
  unfold replaceFile
  cases created : fs.createTemporary (Path.dir path) start refusals with
  | error failure => simp [bind, Except.bind, Except.mapError]
  | ok new =>
      obtain ⟨t, middle⟩ := new
      simp only [bind, Except.bind, Except.mapError, Except.ok.injEq, Prod.mk.injEq,
        exists_and_left, exists_eq_left', and_assoc]
      cases finished : middle.finishTemporary t path content refusals with
      | mk outcome after => cases outcome <;>
          simp [throw, throwThe, MonadExceptOf.throw, pure, Except.pure]

/-- A file that was replaced was not refused. -/
theorem allow_of_replaced (replaced : fs.replaceFile path start content refusals = .ok fs') :
    refusals.Allow content := by
  obtain ⟨t, middle, created, finished⟩ := replaceFile_eq_ok_iff.1 replaced
  obtain ⟨written, closed, renamed, -⟩ := finishTemporary_eq_ok_iff.1 finished
  exact ⟨(createTemporary_ok created).1, written, closed, renamed⟩

/-- A file is replaced if that is not refused, unless its directory is missing or a directory is in
its place. -/
theorem exists_replaced (directory : fs.lookup (Path.dir path) = .ok .dir)
    (allowed : refusals.Allow content) (located : fs.locate path = .ok target)
    (free : fs.at? target ≠ some .dir) (start : String) :
    ∃ fs', fs.replaceFile path start content refusals = .ok fs' := by
  obtain ⟨t, middle, created⟩ := createTemporary_of_dir directory allowed.create
  obtain ⟨-, -, fresh, rfl⟩ := createTemporary_ok created
  obtain ⟨fs', moved⟩ := rename_put_file fresh free content
  refine ⟨fs', replaceFile_eq_ok_iff.2 ⟨t, _, created, finishTemporary_eq_ok_iff.2
    ⟨allowed.write, allowed.close, allowed.rename, target, ?_, ?_⟩⟩⟩
  · rw [put_put]
    exact locate_mono (dirsKept_put_file fresh content) located
  · rw [put_put, moved]

/-- Replacing a file changes the place that its path leads to, and no other; it leaves everything in
a directory. -/
theorem Grounded.replaceFile_spec (grounded : fs.Grounded)
    (replaced : fs.replaceFile path start content refusals = .ok fs') :
    ∃ target, fs.locate path = .ok target ∧ fs.at? target ≠ some .dir ∧
      Updated fs fs' target (.file content) ∧ fs'.Grounded := by
  obtain ⟨t, middle, created, finished⟩ := replaceFile_eq_ok_iff.1 replaced
  obtain ⟨-, below, fresh, rfl⟩ := createTemporary_ok created
  obtain ⟨-, -, -, target, located, moved⟩ := finishTemporary_eq_ok_iff.1 finished
  rw [put_put] at located moved
  obtain ⟨no_dir, updated⟩ := grounded.rename_temporary below fresh moved
  have located' := locate_of_put_file below located
  obtain ⟨last, name, rfl, directory⟩ := grounded.parent_of_locate located' no_dir
  exact ⟨_, located', no_dir, updated,
    updated.grounded grounded directory fun blocked => absurd blocked no_dir⟩

/-- A file that could not be replaced is as it was, and so is everything else. -/
theorem Grounded.replaceFile_stopped (grounded : fs.Grounded) {stopped : Stopped ReplaceFault}
    (failed : fs.replaceFile path start content refusals = .error stopped) :
    stopped.files = fs := by
  unfold replaceFile at failed
  cases created : fs.createTemporary (Path.dir path) start refusals with
  | error failure =>
      simp only [created, bind, Except.bind, Except.mapError] at failed
      obtain rfl := Except.error.inj failed
      rfl
  | ok new =>
      obtain ⟨t, middle⟩ := new
      obtain ⟨-, below, fresh, rfl⟩ := createTemporary_ok created
      simp only [created, bind, Except.bind, Except.mapError] at failed
      split at failed
      · next fault after unfinished =>
        obtain rfl := Except.error.inj failed
        obtain ⟨written, rfl⟩ := finishTemporary_error unfinished
        dsimp only
        rw [put_put]
        exact grounded.erase_put below fresh _
      · cases failed

end

end ComposeStability.FileSystem
