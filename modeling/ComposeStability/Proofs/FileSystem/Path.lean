/-
# Proofs.FileSystem.Path -- cleaned paths and their steps

A cleaned path is the text of its steps (`render`), and a cleaned path below a
directory has the steps of the directory and two more (`join_below`).  Its steps
are read back from the text (`pathSteps_render`), and its directory has all of
them but the last (`dir_render`).
-/
import ComposeStability.FileSystem.Ascent
import ComposeStability.FileSystem.Basic
import ComposeStability.Proofs.Text.Occurrence
import ComposeStability.Proofs.Text.Separated

namespace ComposeStability.Path

set_option autoImplicit false

/-! ## Dividing at slashes -/

/-- A step of a path: it has a name, which is not divided. -/
structure Step (name : String) : Prop where
  filled : name ≠ ""
  whole : '/' ∉ name.toList
  moves : name ≠ "."

theorem split_step {name : String} (whole : '/' ∉ name.toList) :
    Text.split '/' name = [name] := by
  have pieces : Text.splitChar '/' name.toList = [name.toList] := by
    generalize name.toList = cs at whole
    induction cs with
    | nil => rfl
    | cons c cs ih =>
        simp only [List.mem_cons, not_or] at whole
        simp [Text.splitChar, ih whole.2, Ne.symm whole.1]
  simp [Text.split, pieces]

theorem split_intercalate {names : List String} (some_name : names ≠ [])
    (whole : ∀ name ∈ names, '/' ∉ name.toList) :
    Text.split '/' ("/".intercalate names) = names := by
  induction names with
  | nil => exact absurd rfl some_name
  | cons name names ih =>
      have here := split_step (whole name List.mem_cons_self)
      cases names with
      | nil => simpa using here
      | cons next names =>
          have later := ih (by simp) fun other member =>
            whole other (List.mem_cons_of_mem name member)
          rw [String.intercalate_cons_cons, split_append, here, later]
          rfl

theorem steps_step {name : String} (step : Step name) : steps name = [name] := by
  rw [steps, split_step step.whole]
  simp [step.filled, step.moves]

theorem step_of_mem_steps {path name : String} (member : name ∈ steps path) : Step name := by
  obtain ⟨divided, kept⟩ := List.mem_filter.1 member
  obtain ⟨piece, found, rfl⟩ := List.mem_map.1 divided
  have whole := Text.sep_not_mem_piece found
  simp only [Bool.and_eq_true, bne_iff_ne] at kept
  exact ⟨kept.1, by simpa using whole, kept.2⟩

/-! ## Cleaning -/

/-- Steps taken, the latest first: going up happens only at the start, and not from the root. -/
def Settled (rooted : Bool) : List String → Prop
  | [] => True
  | last :: earlier =>
      Settled rooted earlier ∧ (last = ".." → rooted = false ∧ ∀ step ∈ earlier, step = "..")

theorem takeStep_settled {rooted : Bool} {taken : List String} (settled : Settled rooted taken)
    (step : String) : Settled rooted (takeStep rooted taken step) := by
  unfold takeStep
  split
  · cases taken with
    | nil => cases rooted <;> simp [Settled]
    | cons last earlier =>
        simp only
        split
        · next again =>
          have up : last = ".." := by simpa using again
          obtain ⟨free, above⟩ := settled.2 up
          refine ⟨settled, fun _ => ⟨free, fun other member => ?_⟩⟩
          rcases List.mem_cons.1 member with rfl | later
          · exact up
          · exact above other later
        · exact settled.1
  · next down => exact ⟨settled, fun up => absurd (by simp [up]) down⟩

theorem foldl_takeStep_settled {rooted : Bool} {taken : List String}
    (settled : Settled rooted taken) (names : List String) :
    Settled rooted (names.foldl (takeStep rooted) taken) := by
  induction names generalizing taken with
  | nil => exact settled
  | cons name names ih => exact ih (takeStep_settled settled name)

/-- Taking settled steps again leads to the same steps. -/
theorem foldl_settled {rooted : Bool} {taken : List String} (settled : Settled rooted taken) :
    taken.reverse.foldl (takeStep rooted) [] = taken := by
  induction taken with
  | nil => rfl
  | cons last earlier ih =>
      rw [List.reverse_cons, List.foldl_append, ih settled.1]
      show takeStep rooted earlier last = last :: earlier
      unfold takeStep
      split
      · next up =>
        obtain rfl : last = ".." := by simpa using up
        obtain ⟨free, above⟩ := settled.2 rfl
        cases earlier with
        | nil => simp [free]
        | cons other rest => simp [above other List.mem_cons_self]
      · rfl

theorem takeStep_steps {rooted : Bool} {taken : List String} (known : ∀ name ∈ taken, Step name)
    {step : String} (new : Step step) : ∀ name ∈ takeStep rooted taken step, Step name := by
  have up : Step ".." := ⟨by decide, by decide, by decide⟩
  unfold takeStep
  split
  · cases taken with
    | nil => cases rooted <;> simp [up]
    | cons last earlier =>
        simp only
        split
        · exact List.forall_mem_cons.2 ⟨up, known⟩
        · exact fun name member => known name (List.mem_cons_of_mem last member)
  · exact List.forall_mem_cons.2 ⟨new, known⟩

theorem foldl_takeStep_steps {rooted : Bool} {names taken : List String}
    (known : ∀ name ∈ taken, Step name) (new : ∀ name ∈ names, Step name) :
    ∀ name ∈ names.foldl (takeStep rooted) taken, Step name := by
  induction names generalizing taken with
  | nil => exact known
  | cons name names ih =>
      exact ih (takeStep_steps known (new name List.mem_cons_self))
        fun other member => new other (List.mem_cons_of_mem name member)

/-- The steps that cleaning a path leaves. -/
def kept (path : String) : List String :=
  ((steps path).foldl (takeStep (isAbsolute path)) []).reverse

theorem kept_steps (path : String) : ∀ name ∈ kept path, Step name := by
  intro name member
  exact foldl_takeStep_steps (by simp) (fun _ => step_of_mem_steps) name (List.mem_reverse.1 member)

/-- The text of a path that takes steps from the root or from the working directory. -/
def render (rooted : Bool) (names : List String) : String :=
  if rooted then "/" ++ "/".intercalate names
  else if names.isEmpty then "." else "/".intercalate names

theorem clean_eq_render (path : String) : clean path = render (isAbsolute path) (kept path) := rfl

/-- The steps of a cleaned path. -/
structure Cleaned (rooted : Bool) (names : List String) : Prop where
  settled : Settled rooted names.reverse
  steps : ∀ name ∈ names, Step name

theorem kept_cleaned (path : String) : Cleaned (isAbsolute path) (kept path) := by
  refine ⟨?_, kept_steps path⟩
  have start : Settled (isAbsolute path) [] := trivial
  rw [kept, List.reverse_reverse]
  exact foldl_takeStep_settled start (Path.steps path)

/-- Taking the steps of a cleaned path leaves them as they are. -/
theorem Cleaned.foldl_eq {rooted : Bool} {names : List String} (cleaned : Cleaned rooted names) :
    (names.foldl (takeStep rooted) []).reverse = names := by
  have again := foldl_settled cleaned.settled
  rw [List.reverse_reverse] at again
  rw [again, List.reverse_reverse]

/-- A path with the steps of a cleaned one is cleaned to it. -/
theorem clean_eq_of_cleaned {path : String} {names : List String}
    (cleaned : Cleaned (isAbsolute path) names) (same : Path.steps path = names) :
    clean path = render (isAbsolute path) names := by
  rw [clean_eq_render, kept, same, cleaned.foldl_eq]

/-- From the root, cleaned steps all go down. -/
theorem Cleaned.down {names : List String} (cleaned : Cleaned true names) :
    ∀ name ∈ names, name ≠ ".." := by
  suffices ∀ taken, Settled true taken → ".." ∉ taken by
    rintro name member rfl
    exact this _ cleaned.settled (List.mem_reverse.2 member)
  intro taken settled
  induction taken with
  | nil => exact List.not_mem_nil
  | cons last earlier ih =>
      intro member
      rcases List.mem_cons.1 member with up | higher
      · exact Bool.noConfusion (settled.2 up.symm).1
      · exact ih settled.1 higher

theorem Cleaned.snoc {rooted : Bool} {names : List String} (cleaned : Cleaned rooted names)
    {name : String} (step : Step name) (down : name ≠ "..") : Cleaned rooted (names ++ [name]) := by
  constructor
  · rw [List.reverse_append]
    exact ⟨cleaned.settled, fun up => absurd up down⟩
  · intro other member
    rcases List.mem_append.1 member with earlier | last
    · exact cleaned.steps other earlier
    · rw [List.mem_singleton.1 last]
      exact step

theorem Cleaned.start {rooted : Bool} {names : List String} {name : String}
    (cleaned : Cleaned rooted (names ++ [name])) : Cleaned rooted names := by
  constructor
  · have settled := cleaned.settled
    rw [List.reverse_append] at settled
    exact settled.1
  · exact fun other member => cleaned.steps other (List.mem_append_left _ member)

/-! ## Texts of cleaned paths -/

theorem render_snoc {rooted : Bool} {names : List String} (some_name : names ≠ [])
    (name : String) : render rooted (names ++ [name]) = render rooted names ++ "/" ++ name := by
  have joined : "/".intercalate (names ++ [name]) = "/".intercalate names ++ "/" ++ name := by
    rw [String.intercalate_append_of_ne_nil some_name (by simp), String.intercalate_singleton]
  cases rooted <;> simp [render, joined, some_name, String.append_assoc]

theorem split_render {rooted : Bool} {names : List String} (some_name : names ≠ [])
    (steps : ∀ name ∈ names, Step name) :
    Text.split '/' (render rooted names) = if rooted then "" :: names else names := by
  have divided := split_intercalate some_name fun name member => (steps name member).whole
  cases rooted with
  | true =>
      have front : render true names = "" ++ "/" ++ "/".intercalate names := by simp [render]
      rw [front, split_append, divided]
      rfl
  | false => simpa [render, some_name] using divided

theorem steps_filter {names : List String} (steps : ∀ name ∈ names, Step name) :
    names.filter (fun name => name != "" && name != ".") = names ∧
      names.filter (· != "") = names := by
  constructor <;> refine List.filter_eq_self.2 fun name member => ?_
  · simp [(steps name member).filled, (steps name member).moves]
  · simp [(steps name member).filled]

theorem steps_render {rooted : Bool} {names : List String} (some_name : names ≠ [])
    (steps : ∀ name ∈ names, Step name) : Path.steps (render rooted names) = names := by
  rw [Path.steps, split_render some_name steps]
  cases rooted <;> simp [(steps_filter steps).1]

/-- The steps of a cleaned path are those that cleaning leaves. -/
theorem steps_clean (path : String) : Path.steps (clean path) = kept path := by
  rw [clean_eq_render]
  by_cases alone : kept path = []
  · rw [alone]
    cases isAbsolute path <;> rfl
  · exact steps_render alone (kept_steps path)

theorem getLast?_ne_empty {names : List String} (steps : ∀ name ∈ names, Step name) :
    names.getLast? ≠ some "" := by
  intro last
  have member := List.mem_of_getLast? last
  exact (steps "" member).filled rfl

theorem pathSteps_render {rooted : Bool} {names : List String} (some_name : names ≠ [])
    (steps : ∀ name ∈ names, Step name) :
    FileSystem.pathSteps (render rooted names) = names := by
  have last := getLast?_ne_empty steps
  rw [FileSystem.pathSteps, split_render some_name steps]
  cases rooted with
  | true => simp [(steps_filter steps).2, List.getLast?_cons_of_ne_nil some_name, last]
  | false => simp [(steps_filter steps).2, last]

/-- A slash at the end of a path is one more step, to the same place. -/
theorem pathSteps_render_slash {rooted : Bool} {names : List String} (some_name : names ≠ [])
    (steps : ∀ name ∈ names, Step name) :
    FileSystem.pathSteps (render rooted names ++ "/") = names ++ ["."] := by
  have pieces : Text.split '/' (render rooted names ++ "/") =
      Text.split '/' (render rooted names) ++ [""] := by
    have split := split_append (render rooted names) ""
    rw [String.append_empty] at split
    exact split
  rw [FileSystem.pathSteps, pieces, split_render some_name steps]
  cases rooted <;> simp [(steps_filter steps).2, List.getLast?_cons]

/-- A path without a slash is relative. -/
theorem isAbsolute_plain {path : String} (plain : '/' ∉ path.toList) : isAbsolute path = false := by
  rw [Bool.eq_false_iff, Ne, isAbsolute_iff]
  exact fun slash => plain (List.mem_of_mem_head? slash)

theorem isAbsolute_render {rooted : Bool} {names : List String} (some_name : names ≠ [])
    (steps : ∀ name ∈ names, Step name) : isAbsolute (render rooted names) = rooted := by
  cases rooted with
  | true => exact (isAbsolute_iff _).2 (by simp [render])
  | false =>
      rw [Bool.eq_false_iff]
      intro absolute
      obtain ⟨name, others, rfl⟩ := List.exists_cons_of_ne_nil some_name
      have first := steps name List.mem_cons_self
      have filled : name.toList ≠ [] := by simpa using first.filled
      obtain ⟨c, rest, shape⟩ := List.exists_cons_of_ne_nil filled
      have starts : (render false (name :: others)).toList.head? = some c := by
        cases others <;> simp [render, shape]
      rw [isAbsolute_iff, starts, Option.some.injEq] at absolute
      exact first.whole (by simp [shape, absolute])

theorem render_ne_empty {rooted : Bool} {names : List String} (some_name : names ≠ [])
    (steps : ∀ name ∈ names, Step name) : render rooted names ≠ "" := by
  intro empty
  have none : Path.steps (render rooted names) = names := steps_render some_name steps
  rw [empty, steps_empty] at none
  exact some_name none.symm

/-! ## Directories and files below them -/

theorem cutLastString_slash {name : String} (whole : '/' ∉ name.toList) (before : String) :
    Text.cutLastString (before ++ "/" ++ name) "/" = some (before, name) := by
  have absent : ¬ ['/'] <:+: name.toList := by
    rintro ⟨front, back, shape⟩
    exact whole (by simp [← shape])
  have found := Text.cutLast_append (by simp) absent before.toList
  have text : (before ++ "/" ++ name).toList = before.toList ++ ('/' :: [] ++ name.toList) := by
    simp
  have slash : "/".toList = ['/'] := rfl
  rw [Text.cutLastString, text, slash, found]
  simp

/-- A path is divided at its last slash, if it has one. -/
theorem untilLastSlash_cases (path : String) :
    (untilLastSlash path = "" ∧ '/' ∉ path.toList) ∨
      ∃ front rest, untilLastSlash path = front ++ "/" ∧ path = front ++ "/" ++ rest ∧
        '/' ∉ rest.toList := by
  have slash (text : List Char) : "/".toList <:+: text ↔ '/' ∈ text := List.singleton_infix_iff _ _
  unfold untilLastSlash Text.cutLastString
  cases found : Text.cutLast "/".toList path.toList with
  | none =>
      rw [Text.cutLast_eq_none_iff, slash] at found
      exact .inl ⟨rfl, found⟩
  | some parts =>
      obtain ⟨front, rest⟩ := parts
      have plain := Text.cutLast_after (by decide) found
      rw [slash] at plain
      refine .inr ⟨String.ofList front, String.ofList rest, rfl, ?_, by simpa using plain⟩
      simpa [← String.toList_inj] using Text.cutLast_eq_append found

theorem untilLastSlash_render {rooted : Bool} {names : List String} (some_name : names ≠ [])
    {name : String} (step : Step name) :
    untilLastSlash (render rooted (names ++ [name])) = render rooted names ++ "/" := by
  rw [untilLastSlash, render_snoc some_name, cutLastString_slash step.whole]

/-- The path to a single step has no directory of its own in front of it. -/
theorem untilLastSlash_single {rooted : Bool} {name : String} (step : Step name) :
    untilLastSlash (render rooted [name]) = if rooted then "/" else "" := by
  cases rooted with
  | true =>
      have front : render true [name] = "" ++ "/" ++ name := by simp [render]
      rw [untilLastSlash, front, cutLastString_slash step.whole]
      rfl
  | false =>
      have alone : Text.cutLastString name "/" = none := by
        have absent : ¬ ['/'] <:+: name.toList := by
          rintro ⟨front, back, shape⟩
          exact step.whole (by simp [← shape])
        have slash : "/".toList = ['/'] := rfl
        rw [Text.cutLastString, slash, Text.cutLast_absent absent]
        rfl
      have text : render false [name] = name := by simp [render]
      rw [untilLastSlash, text, alone]
      rfl

theorem isAbsolute_clean (text : String) :
    isAbsolute (clean text) = isAbsolute text := by
  rw [clean_eq_render]
  by_cases alone : kept text = []
  · rw [alone]
    cases isAbsolute text <;> rfl
  · exact isAbsolute_render alone (kept_steps text)

theorem isAbsolute_untilLastSlash (path : String) :
    isAbsolute (untilLastSlash path) = isAbsolute path := by
  obtain ⟨above, plain⟩ | ⟨front, rest, above, shape, -⟩ := untilLastSlash_cases path
  · have relative := isAbsolute_plain plain
    rw [above, relative]
    rfl
  · rw [above, shape]
    exact (isAbsolute_append (by simp) rest).symm

theorem isAbsolute_dir (path : String) : isAbsolute (dir path) = isAbsolute path :=
  (isAbsolute_clean _).trans (isAbsolute_untilLastSlash path)

/-- The directory of a cleaned path has all of its steps but the last. -/
theorem dir_render {rooted : Bool} {names : List String} (some_name : names ≠ [])
    (cleaned : Cleaned rooted names) {name : String} (step : Step name) :
    dir (render rooted (names ++ [name])) = render rooted names := by
  have same : Path.steps (render rooted names ++ "/") = names := by
    rw [steps_behind, steps_render some_name cleaned.steps]
  have absolute : isAbsolute (render rooted names ++ "/") = rooted := by
    rw [isAbsolute_append (render_ne_empty some_name cleaned.steps)]
    exact isAbsolute_render some_name cleaned.steps
  have cleaned_slash : Cleaned (isAbsolute (render rooted names ++ "/")) names := by
    rwa [absolute]
  rw [dir, untilLastSlash_render some_name step, clean_eq_of_cleaned cleaned_slash same, absolute]

theorem takeStep_down {rooted : Bool} {taken : List String} {name : String} (down : name ≠ "..") :
    takeStep rooted taken name = name :: taken := by
  simp [takeStep, down]

theorem foldl_takeStep_down {rooted : Bool} {names : List String}
    (down : ∀ name ∈ names, name ≠ "..") (taken : List String) :
    names.foldl (takeStep rooted) taken = names.reverse ++ taken := by
  induction names generalizing taken with
  | nil => rfl
  | cons name names ih =>
      rw [List.foldl_cons, takeStep_down (down name List.mem_cons_self),
        ih fun other member => down other (List.mem_cons_of_mem name member)]
      simp

/-- Two steps below a directory, cleaned. -/
theorem join_below (directory : String) {first second : String} (step : Step first)
    (next : Step second) (down : first ≠ "..") (deeper : second ≠ "..") :
    join [directory, first, second] =
      render (isAbsolute directory) (kept directory ++ [first, second]) := by
  have below (text : String) (absolute : isAbsolute text = isAbsolute directory)
      (taken : Path.steps text = Path.steps directory ++ [first, second]) :
      clean text = render (isAbsolute directory) (kept directory ++ [first, second]) := by
    rw [clean_eq_render, absolute, kept, taken, absolute, List.foldl_append]
    simp only [List.foldl_cons, List.foldl_nil, takeStep_down down, takeStep_down deeper,
      List.reverse_cons, List.append_assoc]
    rfl
  have inner : Path.steps (first ++ "/" ++ second) = [first, second] := by
    rw [steps_append, steps_step step, steps_step next]
    rfl
  by_cases empty : directory = ""
  · subst empty
    have text : join ["", first, second] = clean (first ++ "/" ++ second) := by
      simp [join, step.filled, String.intercalate_cons_cons]
    rw [text]
    refine below _ ?_ inner
    rw [String.append_assoc, isAbsolute_append step.filled]
    have relative : isAbsolute (render false [first]) = false :=
      isAbsolute_render (by simp) (by simpa using step)
    have empty : isAbsolute "" = false := by decide
    simpa [render, empty] using relative
  · have text : join [directory, first, second] =
        clean (directory ++ "/" ++ (first ++ "/" ++ second)) := by
      simp [join, empty, String.intercalate_cons_cons, String.append_assoc]
    rw [text]
    refine below _ ?_ ?_
    · rw [String.append_assoc, isAbsolute_append empty]
    · rw [steps_append, inner]

end ComposeStability.Path
