/-
# Proofs.Program.WellNamed -- programs whose names are identifiers

A type is well named if its parts are well formed, and packages are if the types
they declare are.  Whatever classification meets from a well-named type on,
through aliases, type arguments, fields and embedded interfaces, is well named
again (`WellNamed.lined`), so everything it says about a type stands on one line.
-/
import ComposeStability.Proofs.Program.Parts
import ComposeStability.Proofs.TypeGraph.Reasons

namespace ComposeStability.Program

set_option autoImplicit false

/-! ## Types -/

/-- The names and paths in a type are identifiers and paths of packages. -/
def Ty.WellNamed (t : Ty) : Prop := ∀ part ∈ t.parts, part.wellFormed = true

instance (t : Ty) : Decidable t.WellNamed := inferInstanceAs (Decidable (∀ part ∈ t.parts, _))

/-- The tags of the fields in a type. -/
def Ty.Tagged (t : Ty) (tag : String) : Prop := Part.tag tag ∈ t.parts

theorem fits_of_wellFormed {tags : String → Prop} {part : Part} (formed : part.wellFormed = true)
    (tagged : ∀ tag, part = .tag tag → tags tag) : part.Fits tags := by
  cases part with
  | tag text => exact tagged text rfl
  | _ => exact formed

theorem Ty.WellNamed.shown {t : Ty} (named : t.WellNamed) {n : Ty.Naming} (plain : n.Plain) :
    Shown t.Tagged (t.text n) :=
  Ty.text_shown plain t fun part member =>
    fits_of_wellFormed (named part member) fun tag same => by
      rw [same] at member
      exact member

/-! ## Packages -/

/-- Type parameters have identifiers for names, and the type that is named is well named. -/
def Meaning.WellNamed : Meaning → Prop
  | .defined params type _ | .alias params type =>
      (∀ param ∈ params, Text.isIdentifier param = true) ∧ type.WellNamed

namespace Packages

/-- The names of packages and of what they declare are identifiers. -/
structure WellNamed (ps : Packages) : Prop where
  names : ∀ p ∈ ps, Text.isIdentifier p.name = true
  types : ∀ p ∈ ps, ∀ d ∈ p.types, d.meaning.WellNamed

variable {ps : Packages}

theorem predeclared_wellNamed {name : String} {meaning : Meaning}
    (found : predeclared name = some meaning) : meaning.WellNamed := by
  unfold predeclared at found
  split at found
  · obtain rfl := Option.some.inj found
    exact ⟨by simp, by decide⟩
  · obtain rfl := Option.some.inj found
    exact ⟨by simp, by decide⟩
  · cases found

theorem WellNamed.meaning (named : ps.WellNamed) {path name : String} {meaning : Meaning}
    (found : ps.meaning? path name = some meaning) : meaning.WellNamed := by
  rw [meaning?] at found
  split at found
  · exact predeclared_wellNamed found
  · obtain ⟨d, listed, rfl⟩ := Option.map_eq_some_iff.1 found
    obtain ⟨p, package, declared⟩ := Option.bind_eq_some_iff.1 listed
    exact named.types p (List.mem_of_find?_eq_some package) d (List.mem_of_find?_eq_some declared)

theorem WellNamed.byName (named : ps.WellNamed) : ps.byName.Plain where
  package path formed := by
    simp only [Packages.byName]
    cases found : ps.find? path with
    | some p =>
        exact .inr (word_of_identifier (named.names p (List.mem_of_find?_eq_some found)))
    | none =>
        simp only [Part.wellFormed, Bool.or_eq_true] at formed
        exact formed.imp (fun empty => by simpa using empty) word_of_importPath
  typeParams path name param listed := by
    simp only [Packages.byName, Packages.typeParams] at listed
    split at listed
    · next found => exact (named.meaning found).1 param listed
    · next found => exact (named.meaning found).1 param listed
    · simp at listed

theorem WellNamed.display (named : ps.WellNamed) {t : Ty} (good : t.WellNamed) :
    Shown t.Tagged (ps.display t) :=
  good.shown named.byName

/-- Well-named types lead to well-named types. -/
theorem WellNamed.closed (named : ps.WellNamed) : ps.Closed fun part => part.wellFormed = true := by
  intro path name meaning _ found
  exact match meaning, named.meaning found with
    | .defined _ _ _, good => good.2
    | .alias _ _, good => good.2

theorem WellNamed.unalias (named : ps.WellNamed) {t : Ty} (good : t.WellNamed) :
    (ps.unalias t).WellNamed :=
  named.closed.unalias good

/-! ## Type graphs -/

/-- What classification meets below a well-named type is well named and stands on one line. -/
theorem WellNamed.lined (named : ps.WellNamed) (source : MarkerSource) (test : EnumTest) :
    (ps.graphWith source test).Lined Ty.WellNamed where
  text _ good := (named.display good).nested.unbroken
  elem _ _ good inside := named.closed.elemOf good inside
  members t good m listed := by
    obtain ⟨name, type⟩ := named.closed.membersOf good m listed
    have word := word_of_identifier name
    exact ⟨fun broken => word.unmarked _ broken (by decide), type⟩
  supertypes _ good _ above := named.closed.supertypesOf good above

end Packages

end ComposeStability.Program
