/-
# Proofs.Linter.StableTypes -- the patterns of stable types that are accepted

Two readers look at an entry of the stable types.  The settings ask for a path
and a name behind its last dot (`checkType_eq_none_iff`); classification compares
the entry with the name of a type, or what stands before a final `.*` with its
path (`covers_wildcard`, `covers_of_plain`).  They agree: the entries that are
refused are those that cover no type that a package declares
(`typeErrors_eq_nil_iff`).  Predeclared types belong to no package, and their bare
names are refused.
-/
import ComposeStability.Linter.Settings
import ComposeStability.Proofs.Text.Identifier
import ComposeStability.Proofs.Text.Separated

namespace ComposeStability.Linter

set_option autoImplicit false

open TypeGraph (Pattern)

/-! ## Names behind a path -/

/-- A name behind a path is told from it by the last dot. -/
theorem cutLast_name {name : String} (whole : '.' ∉ name.toList) (path : String) :
    Text.cutLast ['.'] (path ++ "." ++ name).toList = some (path.toList, name.toList) := by
  have absent : ¬ ['.'] <:+: name.toList := by rwa [List.singleton_infix_iff]
  have joined : (path ++ "." ++ name).toList = path.toList ++ (['.'] ++ name.toList) := by simp
  rw [joined]
  exact Text.cutLast_append List.not_mem_nil absent path.toList

theorem cutLastString_name {name : String} (whole : '.' ∉ name.toList) (path : String) :
    Text.cutLastString (path ++ "." ++ name) "." = some (path, name) := by
  have dot : ".".toList = ['.'] := rfl
  rw [Text.cutLastString, dot, cutLast_name whole, Option.map_some, String.ofList_toList,
    String.ofList_toList]

theorem dot_not_mem_identifier {name : String} (identifier : Text.isIdentifier name = true) :
    '.' ∉ name.toList :=
  Text.not_mem_identifier identifier (by decide)

/-! ## Entries that are accepted -/

/-- The name of a type, or the mark that stands for all names. -/
def IsTypeName (name : String) : Prop := name = "*" ∨ Text.isIdentifier name = true

theorem IsTypeName.plain {name : String} (isName : IsTypeName name) :
    '.' ∉ name.toList ∧ '/' ∉ name.toList := by
  rcases isName with rfl | identifier
  · decide
  · exact ⟨dot_not_mem_identifier identifier, Text.not_mem_identifier identifier (by decide)⟩

/-- An entry is accepted if it is a path and a name with a dot between them. -/
theorem checkType_eq_none_iff (entry : String) :
    Settings.checkType entry = none ↔
      ∃ path name, entry = path ++ "." ++ name ∧ path ≠ "" ∧ IsTypeName name := by
  constructor
  · intro accepted
    unfold Settings.checkType at accepted
    split at accepted
    · cases accepted
    · next path name found =>
      split at accepted
      · cases accepted
      · next located =>
        split at accepted
        · next isName =>
          simp only [Bool.or_eq_true, List.isEmpty_iff, not_or] at located
          simp only [Bool.or_eq_true, beq_iff_eq] at isName
          refine ⟨String.ofList path, String.ofList name, ?_, by simpa using located.1, ?_⟩
          · simpa [← String.toList_inj] using Text.cutLast_eq_append found
          · exact isName.imp_left fun star => by rw [star]
        · cases accepted
  · rintro ⟨path, name, rfl, located, isName⟩
    have filled : path.toList.isEmpty = false := by simpa using located
    have unslashed : name.toList.contains '/' = false := by simpa using isName.plain.2
    have named : (name.toList == ['*'] ||
        Text.isIdentifier (String.ofList name.toList)) = true := by
      rcases isName with rfl | identifier
      · rfl
      · simp [identifier]
    rw [Settings.checkType, cutLast_name isName.plain.1]
    simp only [filled, unslashed, Bool.or_self, named, if_true]
    rfl

/-! ## Types that are covered -/

/-- A package with `.*` behind it covers the types of exactly this package. -/
theorem covers_wildcard (package path : String) {name : String} (whole : '.' ∉ name.toList) :
    (Pattern.mk (package ++ ".*")).covers (path ++ "." ++ name) = true ↔ path = package := by
  have wild : Text.stripEnd? ".*" (package ++ ".*") = some package :=
    Text.stripEnd?_eq_some_iff.2 rfl
  rw [Pattern.covers, wild]
  simp only [cutLastString_name whole, beq_iff_eq]

/-- A pattern without `.*` covers one name, which is the pattern itself. -/
theorem covers_of_plain {entry : String} (plain : Text.stripEnd? ".*" entry = none)
    (name : String) : (Pattern.mk entry).covers name = true ↔ entry = name := by
  rw [Pattern.covers, plain, beq_iff_eq]

/-- The name of a type is not taken for the mark that stands for all names. -/
theorem stripEnd?_identifier (path : String) {name : String}
    (identifier : Text.isIdentifier name = true) :
    Text.stripEnd? ".*" (path ++ "." ++ name) = none := by
  rw [Option.eq_none_iff_forall_ne_some]
  intro package wild
  have both : path ++ "." ++ name = package ++ "." ++ "*" := by
    rw [Text.stripEnd?_eq_some_iff.1 wild, String.append_assoc]
    rfl
  have cut := cutLastString_name (dot_not_mem_identifier identifier) path
  rw [both, cutLastString_name (by decide)] at cut
  have star : "*" = name := (Prod.mk.inj (Option.some.inj cut)).2
  rw [← star] at identifier
  exact absurd identifier (by decide)

/-- An entry covers the type with some name that some package declares. -/
def CoversDeclared (entry : String) : Prop :=
  ∃ path name, path ≠ "" ∧ Text.isIdentifier name = true ∧
    (Pattern.mk entry).covers (path ++ "." ++ name) = true

/-- Accepted are the entries that cover a type of some package. -/
theorem accepted_iff (entry : String) :
    Settings.checkType entry = none ↔ CoversDeclared entry := by
  rw [checkType_eq_none_iff]
  constructor
  · rintro ⟨path, name, rfl, located, rfl | identifier⟩
    · have wild : path ++ "." ++ "*" = path ++ ".*" := String.append_assoc
      rw [wild]
      exact ⟨path, "T", located, by decide, (covers_wildcard path path (by decide)).2 rfl⟩
    · exact ⟨path, name, located, identifier,
        (covers_of_plain (stripEnd?_identifier path identifier) _).2 rfl⟩
  · rintro ⟨path, name, located, identifier, covers⟩
    cases wild : Text.stripEnd? ".*" entry with
    | some package =>
        obtain rfl := Text.stripEnd?_eq_some_iff.1 wild
        obtain rfl := (covers_wildcard package path (dot_not_mem_identifier identifier)).1 covers
        exact ⟨path, "*", by rw [String.append_assoc]; rfl, located, .inl rfl⟩
    | none =>
        exact ⟨path, name, (covers_of_plain wild _).1 covers, located, .inr identifier⟩

/-- Settings are accepted if each entry of their stable types covers a type that some package
declares, and refused if one entry never does.  An entry that stands for all types of a package
covers those of exactly this package, and not those of packages below it. -/
theorem typeErrors_eq_nil_iff (s : Settings) :
    (s.typeErrors = [] ↔ ∀ entry ∈ s.stableTypes, CoversDeclared entry) ∧
      ∀ package path name, Text.isIdentifier name = true →
        ((Pattern.mk (package ++ ".*")).covers (path ++ "." ++ name) = true ↔ path = package) := by
  constructor
  · rw [Settings.typeErrors, List.filterMap_eq_nil_iff]
    exact forall₂_congr fun entry _ => accepted_iff entry
  · intro package path name identifier
    exact covers_wildcard package path (dot_not_mem_identifier identifier)

namespace Demo

/-- Points of a package are covered, and those of a package below it are not. -/
theorem points_covered :
    Text.isIdentifier "Point" = true ∧
      (Pattern.mk "example.com/geom.*").covers "example.com/geom.Point" = true ∧
      ¬ (Pattern.mk "example.com/geom.*").covers "example.com/geom/solid.Point" = true ∧
      ({ stableTypes := ["example.com/geom.*"] } : Settings).typeErrors = [] := by
  have identifier : Text.isIdentifier "Point" = true := by decide
  obtain ⟨accepted, wild⟩ := typeErrors_eq_nil_iff { stableTypes := ["example.com/geom.*"] }
  have covered := (wild "example.com/geom" "example.com/geom" "Point" identifier).2 rfl
  refine ⟨identifier, covered, ?_, accepted.2 fun entry listed => ?_⟩
  · intro below
    have same := (wild "example.com/geom" "example.com/geom/solid" "Point" identifier).1 below
    exact absurd same (by decide)
  · rw [List.mem_singleton.1 listed]
    exact ⟨"example.com/geom", "Point", by decide, identifier, covered⟩

end Demo

end ComposeStability.Linter
