/-
# FileSystem.Ascent -- from a directory to those above it

The directory of a path is found by leaving out what is behind its last slash and
cleaning the rest.  The directory is shorter than the path unless it is `.` or the
root, so going from directory to directory comes to one that is its own
(`depth_dir_lt`).
-/
import ComposeStability.FileSystem.Path

namespace ComposeStability.Path

set_option autoImplicit false

/-! ## Lengths of steps -/

/-- The length of names with a slash behind each of them. -/
def extent : List String → Nat
  | [] => 0
  | name :: names => name.length + 1 + extent names

theorem extent_append (before after : List String) :
    extent (before ++ after) = extent before + extent after := by
  induction before with
  | nil => simp [extent]
  | cons name names ih => simp [extent, ih, Nat.add_assoc]

theorem extent_reverse (names : List String) : extent names.reverse = extent names := by
  induction names with
  | nil => rfl
  | cons name names ih =>
      rw [List.reverse_cons, extent_append, ih, Nat.add_comm]
      rfl

theorem extent_filter_le (keep : String → Bool) (names : List String) :
    extent (names.filter keep) ≤ extent names := by
  induction names with
  | nil => exact Nat.le_refl _
  | cons name names ih =>
      rw [List.filter_cons, extent]
      split
      · rw [extent]
        omega
      · omega

theorem extent_split (path : String) : extent (Text.split '/' path) = path.length + 1 := by
  rw [← String.length_toList, Text.split]
  generalize path.toList = cs
  induction cs with
  | nil => rfl
  | cons c cs ih =>
      rw [Text.splitChar]
      split
      · rw [List.map_cons, extent, ih, String.length_ofList, List.length_nil, List.length_cons]
        omega
      · cases pieces : Text.splitChar '/' cs with
        | nil => simp [pieces, extent] at ih
        | cons piece rest =>
            rw [pieces] at ih
            simp only [List.map_cons, extent, String.length_ofList, List.length_cons] at ih ⊢
            omega

theorem extent_steps_le (path : String) : extent (steps path) ≤ path.length + 1 :=
  Nat.le_trans (extent_filter_le _ _) (Nat.le_of_eq (extent_split path))

/-- Going up or down once makes the steps no longer than they are with the step. -/
theorem extent_takeStep_le (rooted : Bool) (taken : List String) (step : String) :
    extent (takeStep rooted taken step) ≤ extent (step :: taken) := by
  unfold takeStep
  split
  · next up =>
    obtain rfl : step = ".." := by simpa using up
    cases taken with
    | nil => cases rooted <;> simp [extent]
    | cons last earlier =>
        dsimp only
        split
        · exact Nat.le_refl _
        · simp only [extent]
          omega
  · exact Nat.le_refl _

theorem extent_foldl_le (rooted : Bool) (names taken : List String) :
    extent (names.foldl (takeStep rooted) taken) ≤ extent taken + extent names := by
  induction names generalizing taken with
  | nil => exact Nat.le_refl _
  | cons name names ih =>
      have here := extent_takeStep_le rooted taken name
      have later := ih (takeStep rooted taken name)
      simp only [extent] at here ⊢
      rw [List.foldl_cons]
      omega

theorem length_intercalate {names : List String} (some_name : names ≠ []) :
    ("/".intercalate names).length + 1 = extent names := by
  induction names with
  | nil => exact absurd rfl some_name
  | cons name names ih =>
      cases names with
      | nil => simp [extent]
      | cons next names =>
          have later := ih (List.cons_ne_nil next names)
          have slash : "/".length = 1 := rfl
          rw [String.intercalate_cons_cons, String.length_append, String.length_append, extent]
          omega

/-! ## Slashes at the ends -/

theorem steps_empty : steps "" = [] := by
  simp [steps, Text.split, Text.splitChar]

theorem steps_behind (before : String) : steps (before ++ "/") = steps before := by
  have parts := steps_append before ""
  rwa [String.append_empty, steps_empty, List.append_nil] at parts

theorem steps_ahead (rest : String) : steps ("/" ++ rest) = steps rest := by
  have parts := steps_append "" rest
  rwa [String.empty_append, steps_empty, List.nil_append] at parts

/-- The steps of an absolute path are shorter than the path by the slash in front. -/
theorem extent_steps_of_absolute {path : String} (absolute : isAbsolute path = true) :
    extent (steps path) ≤ path.length := by
  obtain ⟨rest, shape⟩ := List.isPrefixOf_iff_prefix.1 absolute
  have front : path = "/" ++ String.ofList rest := by
    simp [← String.toList_inj, ← shape]
  have bound := extent_steps_le (String.ofList rest)
  have slash : "/".length = 1 := rfl
  rw [front, steps_ahead, String.length_append]
  omega

/-! ## Directories -/

/-- The length of what cleaning makes of the steps that it keeps. -/
theorem length_joined {kept : List String} (some_step : kept ≠ []) (rooted : Bool) :
    (if rooted then "/" ++ "/".intercalate kept
      else if kept.isEmpty then "." else "/".intercalate kept).length + 1 =
      extent kept + if rooted then 1 else 0 := by
  have joined := length_intercalate some_step
  have slash : "/".length = 1 := rfl
  cases rooted with
  | true =>
      simp only [if_true, String.length_append]
      omega
  | false => simpa [some_step] using joined

/-- Cleaning a path to a directory drops at least the slash behind it, unless nothing is left. -/
theorem length_clean_le (before : String) :
    clean (before ++ "/") = "/" ∨ clean (before ++ "/") = "." ∨
      (clean (before ++ "/")).length ≤ before.length := by
  have bound := extent_foldl_le (isAbsolute (before ++ "/")) (steps before) []
  simp only [clean, steps_behind]
  generalize (steps before).foldl (takeStep (isAbsolute (before ++ "/"))) [] = taken at bound
  have nothing : extent [] = 0 := rfl
  have kept := extent_reverse taken
  by_cases some_step : taken.reverse = []
  · rw [some_step]
    cases isAbsolute (before ++ "/") <;> simp
  · have joined := length_joined some_step (isAbsolute (before ++ "/"))
    have positive := length_intercalate some_step
    refine .inr (.inr ?_)
    -- Cleaning puts a slash in front of the steps, but then there was one in front before.
    cases rooted : isAbsolute (before ++ "/") with
    | false =>
        have all := extent_steps_le before
        simp only [rooted, Bool.false_eq_true, if_false] at joined ⊢
        omega
    | true =>
        have filled : before ≠ "" := by
          rintro rfl
          rw [steps_empty] at bound
          omega
        have absolute : isAbsolute before = true := (isAbsolute_append filled "/").symm.trans rooted
        have all := extent_steps_of_absolute absolute
        simp only [rooted, if_true] at joined ⊢
        omega

/-- The directory of a path is found by cleaning what is up to a slash in it, if it has one. -/
theorem dir_cases (path : String) :
    dir path = "." ∨
      ∃ before after, path = before ++ "/" ++ after ∧ dir path = clean (before ++ "/") := by
  cases divided : Text.cutLast "/".toList path.toList with
  | none =>
      have nothing : untilLastSlash path = "" := by
        rw [untilLastSlash, Text.cutLastString, divided]
        rfl
      exact .inl (by rw [dir, nothing]; decide)
  | some parts =>
      obtain ⟨before, after⟩ := parts
      have above : untilLastSlash path = String.ofList before ++ "/" := by
        rw [untilLastSlash, Text.cutLastString, divided]
        rfl
      refine .inr ⟨String.ofList before, String.ofList after, ?_, by rw [dir, above]⟩
      simpa [← String.toList_inj] using Text.cutLast_eq_append divided

theorem length_dir_lt (path : String) :
    dir path = "." ∨ dir path = "/" ∨ (dir path).length < path.length := by
  obtain here | ⟨before, after, whole, above⟩ := dir_cases path
  · exact .inl here
  · have slash : "/".length = 1 := rfl
    have long := congrArg String.length whole
    simp only [String.length_append, slash] at long
    rw [above]
    obtain root | here | shorter := length_clean_le before
    · exact .inr (.inl root)
    · exact .inl here
    · exact .inr (.inr (by omega))

/-- A bound on how many directories there are above a path: `.` and the root are their own. -/
def depth (path : String) : Nat := if path = "." ∨ path = "/" then 0 else path.length + 1

/-- The directory of a path is nearer to one that is its own, unless the path is. -/
theorem depth_dir_lt {path : String} (moves : dir path ≠ path) : depth (dir path) < depth path := by
  have lower : ¬ (path = "." ∨ path = "/") := by
    rintro (rfl | rfl)
    · exact moves (by decide)
    · exact moves (by decide)
  have here : depth path = path.length + 1 := if_neg lower
  rw [here, depth]
  split
  · exact Nat.succ_pos _
  · next higher =>
    rcases length_dir_lt path with same | root | shorter
    · exact absurd (.inl same) higher
    · exact absurd (.inr root) higher
    · omega

end ComposeStability.Path
