/-
# Proofs.Program.Receivers -- the type that a method belongs to

A method belongs to the declared type that its receiver is, or points to, when
aliases are followed above and below the pointer (`BelongsTo`).  The star of a
receiver is looked for before aliases are followed.  So the type is found under
any number of aliases, with or without a star in front, except when the receiver
is an alias of a pointer: then the method is named like a function of its package,
and the markers of its type do not count (`attributed_iff`).
-/
import ComposeStability.Program.Function
import ComposeStability.Proofs.Program.Aliases

namespace ComposeStability.Program.Packages

set_option autoImplicit false

open Source (FuncDecl)
open TypeGraph (Marker)

variable {ps : Packages} {t : Ty} {owner name : String}

/-! ## Receivers -/

/-- A receiver is the declared type `owner.name`, or a pointer to it, aliases followed. -/
inductive BelongsTo (ps : Packages) (owner name : String) (t : Ty) : Prop where
  | value {args : List Ty} (type : ps.StandsFor t (.named owner name args))
  | pointer {elem : Ty} {args : List Ty} (points : ps.StandsFor t (.pointer elem))
      (type : ps.StandsFor elem (.named owner name args))

/-- A receiver is an alias, which leads to a pointer. -/
def AliasOfPointer (ps : Packages) (t : Ty) : Prop :=
  (∀ elem, t ≠ .pointer elem) ∧ ∃ elem, ps.StandsFor t (.pointer elem)

theorem receiverBase_of_ne (bare : ∀ elem, t ≠ .pointer elem) : receiverBase t = t := by
  cases t with
  | pointer elem => exact absurd rfl (bare elem)
  | _ => rfl

theorem StandsFor.pointer_eq {elem u : Ty} (stands : ps.StandsFor (.pointer elem) u) :
    u = .pointer elem := by
  obtain ⟨passed, chain⟩ := stands
  cases chain
  rfl

theorem StandsFor.unique {u u' : Ty} (stands : ps.StandsFor t u) (stands' : ps.StandsFor t u') :
    u = u' := by
  rw [← stands.unalias_eq, stands'.unalias_eq]

/-- Behind the star there is the declared type, or else the receiver is an alias of a pointer. -/
theorem BelongsTo.base_cases (belongs : ps.BelongsTo owner name t) :
    (¬ ps.AliasOfPointer t ∧ ∃ args, ps.unalias (receiverBase t) = .named owner name args) ∨
      (ps.AliasOfPointer t ∧ ∃ elem, ps.unalias (receiverBase t) = .pointer elem) := by
  by_cases starred : ∃ elem, t = .pointer elem
  · obtain ⟨elem, rfl⟩ := starred
    refine .inl ⟨fun pointed => pointed.1 elem rfl, ?_⟩
    cases belongs with
    | value type => cases type.pointer_eq
    | pointer points type =>
        cases points.pointer_eq
        exact ⟨_, type.unalias_eq⟩
  · have bare : ∀ elem, t ≠ .pointer elem := fun elem same => starred ⟨elem, same⟩
    rw [receiverBase_of_ne bare]
    cases belongs with
    | value type =>
        refine .inl ⟨?_, _, type.unalias_eq⟩
        rintro ⟨-, elem, points⟩
        cases type.unique points
    | pointer points type => exact .inr ⟨⟨bare, _, points⟩, _, points.unalias_eq⟩

/-! ## Methods -/

/-- A method has the name of its type in its own name, and the markers of its type count, exactly if
its receiver is no alias of a pointer. -/
theorem attributed_iff (source : MarkerSource) (path : String) {f : FuncDecl}
    (receiver : f.receiverType? = some t) (belongs : ps.BelongsTo owner name t) :
    (ps.qualifiedName path f = path ++ "." ++ name ++ "." ++ f.name.name ↔
        ¬ ps.AliasOfPointer t) ∧
      (ps.skippedReceiver source f = .ok true ↔
        ¬ ps.AliasOfPointer t ∧
          ∃ markers, source owner name = .ok markers ∧ markers.has .skip = true) ∧
      (ps.AliasOfPointer t →
        ps.qualifiedName path f = path ++ "." ++ f.name.name ∧
          ps.skippedReceiver source f = .ok false) := by
  unfold qualifiedName skippedReceiver receiverTypeName? markersOf
  rw [receiver, Option.bind_some]
  dsimp only
  rcases belongs.base_cases with ⟨direct, args, type⟩ | ⟨aliased, elem, points⟩
  · rw [type]
    refine ⟨iff_of_true ?_ direct, ?_, fun aliased => absurd aliased direct⟩
    · simp only [String.append_assoc]
    · show (source owner name).map (·.has .skip) = .ok true ↔ _
      cases source owner name with
      | error failure => simp [Except.map]
      | ok markers => simp [Except.map, direct]
  · rw [points]
    have longer : path ++ "." ++ "" ++ f.name.name ≠ path ++ "." ++ name ++ "." ++ f.name.name := by
      intro same
      have lengths := congrArg String.length same
      simp only [String.length_append] at lengths
      have dot : ".".length = 1 := by decide
      have empty : "".length = 0 := by decide
      omega
    refine ⟨iff_of_false longer fun direct => direct aliased, ?_, fun _ => ⟨?_, rfl⟩⟩
    · refine iff_of_false (fun skipped => ?_) fun direct => direct.1 aliased
      cases skipped
    · rw [String.append_empty]

/-! ## Two receivers -/

namespace Demo

/-- A struct `Box`, another name of it, and a name of the pointers to it. -/
def boxes : Packages :=
  [{ path := "ex/ui", name := "ui", types :=
      [⟨"Box", .defined [] (.struct []) []⟩, ⟨"Crate", .alias [] (.named "ex/ui" "Box" [])⟩,
        ⟨"BoxPtr", .alias [] (.pointer (.named "ex/ui" "Box" []))⟩] }]

/-- Only `Box` is marked. -/
def boxSkipped : MarkerSource := fun _ name =>
  .ok (if name = "Box" then Flags.empty.enable Marker.skip.bit else Flags.empty)

/-- The method `Draw` with a given receiver. -/
def draw (receiver : Ty) : FuncDecl where
  name := ⟨0, "Draw"⟩
  receiver := some [⟨[⟨0, "b"⟩], receiver, ⟨0, ""⟩⟩]
  body := some []

theorem crate_standsFor_box :
    boxes.StandsFor (.named "ex/ui" "Crate" []) (.named "ex/ui" "Box" []) := by
  refine ⟨[("ex/ui", "Crate")], .pass ⟨rfl, nofun⟩ (.done ?_)⟩
  rintro path name args params target ⟨⟩ declared
  cases declared

theorem boxPtr_standsFor_pointer :
    boxes.StandsFor (.named "ex/ui" "BoxPtr" []) (.pointer (.named "ex/ui" "Box" [])) := by
  refine ⟨[("ex/ui", "BoxPtr")], .pass ⟨rfl, nofun⟩ (.done ?_)⟩
  rintro path name args params target ⟨⟩

theorem box_standsFor_box :
    boxes.StandsFor (.named "ex/ui" "Box" []) (.named "ex/ui" "Box" []) := by
  refine ⟨[], .done ?_⟩
  rintro path name args params target ⟨⟩ declared
  cases declared

/-- The alias below the star is followed. -/
theorem crate_pointer_attributed :
    boxes.qualifiedName "ex/ui" (draw (.pointer (.named "ex/ui" "Crate" []))) = "ex/ui.Box.Draw" ∧
      boxes.skippedReceiver boxSkipped (draw (.pointer (.named "ex/ui" "Crate" []))) = .ok true := by
  have starred : ¬ boxes.AliasOfPointer (.pointer (.named "ex/ui" "Crate" [])) :=
    fun pointed => pointed.1 _ rfl
  have belongs : boxes.BelongsTo "ex/ui" "Box" (.pointer (.named "ex/ui" "Crate" [])) :=
    .pointer ⟨[], .done fun _ _ _ _ _ same => nomatch same⟩ crate_standsFor_box
  obtain ⟨named, skipped, -⟩ := attributed_iff boxSkipped "ex/ui"
    (f := draw (.pointer (.named "ex/ui" "Crate" []))) rfl belongs
  exact ⟨named.2 starred, skipped.2 ⟨starred, _, rfl, by decide⟩⟩

/-- The pointer behind the alias is not followed: `Draw` belongs to `Box` and is not named so. -/
theorem boxPtr_unattributed :
    boxes.BelongsTo "ex/ui" "Box" (.named "ex/ui" "BoxPtr" []) ∧
      boxes.qualifiedName "ex/ui" (draw (.named "ex/ui" "BoxPtr" [])) = "ex/ui.Draw" ∧
      (boxSkipped "ex/ui" "Box").map (·.has .skip) = .ok true ∧
      boxes.skippedReceiver boxSkipped (draw (.named "ex/ui" "BoxPtr" [])) = .ok false :=
  ⟨.pointer boxPtr_standsFor_pointer box_standsFor_box, rfl, rfl, rfl⟩

end Demo

end ComposeStability.Program.Packages
