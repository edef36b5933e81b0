/-
# Proofs.Program.Parts -- the parts of the types that a type leads to

If a condition on the parts of types (`Ty.All`) holds of what is declared under
every name that meets it (`Packages.Closed`), then it holds of every type that is
met from a type of which it holds: behind aliases, with type arguments put in,
inside wrappers, in fields and among embedded interfaces.
-/
import ComposeStability.Program.TypeView
import ComposeStability.Proofs.Program.TypeText

namespace ComposeStability.Program

set_option autoImplicit false

variable {P : Part → Prop}

/-! ## Replacement -/

namespace Ty

/-- A condition holds of all parts of a type. -/
def All (P : Part → Prop) (t : Ty) : Prop := ∀ part ∈ t.parts, P part

/-- What is put in place of types with good parts has good parts. -/
structure Replacement.Careful (P : Part → Prop) (r : Replacement) : Prop where
  named : ∀ path name args, P (.path path) → P (.name name) →
    (∀ part ∈ partsOfAll args, P part) → (r.named path name args).All P
  param : ∀ name, P (.name name) → (r.param name).All P

theorem replaceTerms_length (r : Replacement) (terms : List (Term Ty)) :
    (replaceTerms r terms).length = terms.length := by
  induction terms with
  | nil => rfl
  | cons term terms ih => simp [replaceTerms, ih]

mutual

theorem replace_all {r : Replacement} (careful : r.Careful P) :
    ∀ t : Ty, t.All P → (t.replace r).All P
  | .invalid, good => good
  | .basic _, good => good
  | .unsafePointer, good => good
  | .any, good => good
  | .comparability, good => good
  | .named path name args, good => by
      simp only [All, parts, List.forall_mem_cons] at good
      obtain ⟨package, own, inner⟩ := good
      rw [replace]
      exact careful.named path name _ package own (replaceAll_all careful args inner)
  | .typeParam name, good => careful.param name (good _ List.mem_cons_self)
  | .pointer elem, good => replace_all careful elem good
  | .slice elem, good => replace_all careful elem good
  | .map key value, good => by
      simp only [All, parts, replace, List.forall_mem_append] at good ⊢
      exact ⟨replace_all careful key good.1, replace_all careful value good.2⟩
  | .array _ elem, good => replace_all careful elem good
  | .chan _ elem, good => replace_all careful elem good
  | .func signature, good => replaceSignature_all careful signature good
  | .struct fields, good => replaceFields_all careful fields good
  | .interface methods embeds, good => by
      simp only [All, parts, replace, List.forall_mem_append] at good ⊢
      exact ⟨replaceMethods_all careful methods good.1, replaceAll_all careful embeds good.2⟩
  | .union terms, good => by
      simp only [All, parts, replace, List.forall_mem_cons] at good ⊢
      exact ⟨replaceTerms_length r terms ▸ good.1, replaceTerms_all careful terms good.2⟩

theorem replaceAll_all {r : Replacement} (careful : r.Careful P) : ∀ types : List Ty,
    (∀ part ∈ partsOfAll types, P part) → ∀ part ∈ partsOfAll (replaceAll r types), P part
  | [], good => good
  | t :: rest, good => by
      simp only [partsOfAll, replaceAll, List.forall_mem_append] at good ⊢
      exact ⟨replace_all careful t good.1, replaceAll_all careful rest good.2⟩

theorem replaceSignature_all {r : Replacement} (careful : r.Careful P) :
    ∀ signature : Signature Ty, (∀ part ∈ signatureParts signature, P part) →
      ∀ part ∈ signatureParts (replaceSignature r signature), P part
  | ⟨params, results, _⟩, good => by
      simp only [signatureParts, replaceSignature, List.forall_mem_append] at good ⊢
      exact ⟨replaceVariables_all careful params good.1,
        replaceVariables_all careful results good.2⟩

theorem replaceVariables_all {r : Replacement} (careful : r.Careful P) :
    ∀ vars : List (Variable Ty), (∀ part ∈ variableParts vars, P part) →
      ∀ part ∈ variableParts (replaceVariables r vars), P part
  | [], good => good
  | ⟨_, type⟩ :: rest, good => by
      simp only [variableParts, replaceVariables, List.cons_append, List.forall_mem_cons,
        List.forall_mem_append] at good ⊢
      exact ⟨good.1, replace_all careful type good.2.1, replaceVariables_all careful rest good.2.2⟩

theorem replaceFields_all {r : Replacement} (careful : r.Careful P) :
    ∀ fields : List (Field Ty), (∀ part ∈ fieldParts fields, P part) →
      ∀ part ∈ fieldParts (replaceFields r fields), P part
  | [], good => good
  | ⟨_, type, _, _⟩ :: rest, good => by
      simp only [fieldParts, replaceFields, List.cons_append, List.forall_mem_cons,
        List.forall_mem_append] at good ⊢
      obtain ⟨own, tag, inner, others⟩ := good
      exact ⟨own, tag, replace_all careful type inner, replaceFields_all careful rest others⟩

theorem replaceMethods_all {r : Replacement} (careful : r.Careful P) :
    ∀ methods : List (Method Ty), (∀ part ∈ methodParts methods, P part) →
      ∀ part ∈ methodParts (replaceMethods r methods), P part
  | [], good => good
  | ⟨_, signature⟩ :: rest, good => by
      simp only [methodParts, replaceMethods, List.cons_append, List.forall_mem_cons,
        List.forall_mem_append] at good ⊢
      exact ⟨good.1, replaceSignature_all careful signature good.2.1,
        replaceMethods_all careful rest good.2.2⟩

theorem replaceTerms_all {r : Replacement} (careful : r.Careful P) : ∀ terms : List (Term Ty),
    (∀ part ∈ termParts terms, P part) →
      ∀ part ∈ termParts (replaceTerms r terms), P part
  | [], good => good
  | ⟨_, type⟩ :: rest, good => by
      simp only [termParts, replaceTerms, List.forall_mem_append] at good ⊢
      exact ⟨replace_all careful type good.1, replaceTerms_all careful rest good.2⟩

end

theorem all_of_mem {types : List Ty} (good : ∀ part ∈ partsOfAll types, P part) {t : Ty}
    (member : t ∈ types) : t.All P := by
  induction types with
  | nil => simp at member
  | cons first types ih =>
      simp only [partsOfAll, List.forall_mem_append] at good
      rcases List.mem_cons.1 member with rfl | later
      · exact good.1
      · exact ih good.2 later

theorem field_all {fields : List (Field Ty)} (good : ∀ part ∈ fieldParts fields, P part)
    {f : Field Ty} (member : f ∈ fields) : P (.name f.name) ∧ f.type.All P := by
  induction fields with
  | nil => simp at member
  | cons first fields ih =>
      simp only [fieldParts, List.cons_append, List.forall_mem_cons, List.forall_mem_append] at good
      rcases List.mem_cons.1 member with rfl | later
      · exact ⟨good.1, good.2.2.1⟩
      · exact ih good.2.2.2 later

theorem instantiate_all {params : List String} {args : List Ty} {t : Ty}
    (arguments : ∀ part ∈ partsOfAll args, P part) (good : t.All P) :
    (t.instantiate params args).All P := by
  refine replace_all ⟨fun path name args package own inner => ?_, fun name own => ?_⟩ t good
  · simp only [All, parts, List.forall_mem_cons]
    exact ⟨package, own, inner⟩
  · simp only
    cases found : (params.zip args).find? fun pair => pair.1 == name with
    | none => simpa [All, parts] using own
    | some pair =>
        have paired : pair.2 ∈ args := (List.of_mem_zip (List.mem_of_find?_eq_some found)).2
        exact all_of_mem arguments paired

end Ty

/-! ## Declared types -/

/-- A condition holds of all parts of the type that is named. -/
def Meaning.All (P : Part → Prop) : Meaning → Prop
  | .defined _ shape _ => shape.All P
  | .alias _ target => target.All P

theorem Meaning.All.mono {P' : Part → Prop} (more : ∀ part, P part → P' part) {meaning : Meaning}
    (good : meaning.All P) : meaning.All P' :=
  match meaning, good with
  | .defined _ _ _, good => fun part member => more part (good part member)
  | .alias _ _, good => fun part member => more part (good part member)

namespace Packages

/-- What is declared under a name with a good path has good parts. -/
def Closed (ps : Packages) (P : Part → Prop) : Prop :=
  ∀ path name meaning, P (.path path) → ps.meaning? path name = some meaning → meaning.All P

variable {ps : Packages}

theorem Closed.unalias (closed : ps.Closed P) {t : Ty} (good : t.All P) :
    (ps.unalias t).All P := by
  rw [Packages.unalias]
  generalize ps.typeCount + 1 = fuel
  induction fuel generalizing t with
  | zero => exact good
  | succ fuel ih =>
      cases t with
      | named path name args =>
          rw [unaliasFrom]
          split
          · next found =>
            have target := closed path name _ (good _ List.mem_cons_self) found
            simp only [Ty.All, Ty.parts, List.forall_mem_cons] at good
            exact ih (Ty.instantiate_all good.2.2 target)
          · exact good
      | _ => exact good

theorem Closed.underlying (closed : ps.Closed P) {t : Ty} (good : t.All P) :
    (ps.underlying t).All P := by
  rw [Packages.underlying]
  have shown := closed.unalias good
  split
  · next path name args same =>
    rw [same] at shown
    simp only [Ty.All, Ty.parts, List.forall_mem_cons] at shown
    split
    · next params shape _ found =>
      have shape_good : shape.All P := closed path name _ shown.1 found
      split
      · exact closed.unalias shape_good
      · exact Ty.instantiate_all shown.2.2 (closed.unalias shape_good)
    · exact fun part member => absurd member (by simp [Ty.parts])
  · exact shown

/-! ## Neighbours -/

theorem Closed.elemOf (closed : ps.Closed P) {t u : Ty} (good : t.All P)
    (inside : ps.elemOf t = some u) : u.All P := by
  have shown := closed.unalias good
  rw [Packages.elemOf] at inside
  split at inside
  · next same =>
    obtain rfl := Option.some.inj inside
    rw [same] at shown
    exact shown
  · next same =>
    obtain rfl := Option.some.inj inside
    rw [same] at shown
    exact shown
  · next path name args same =>
    rw [same] at shown
    have shape := closed.underlying shown
    split at inside
    · next f single =>
      obtain rfl := Option.some.inj inside
      rw [single] at shape
      exact (Ty.field_all shape List.mem_cons_self).2
    · cases inside
    · obtain rfl := Option.some.inj inside
      exact shape
  · cases inside

theorem Closed.membersOf (closed : ps.Closed P) {t : Ty} (good : t.All P) :
    ∀ m ∈ ps.membersOf t, P (.name m.name) ∧ ∀ u, m.type = some u → u.All P := by
  have shape := closed.underlying good
  rw [Packages.membersOf]
  split
  · next fields same =>
    intro m listed
    obtain ⟨f, member, rfl⟩ := List.mem_map.1 listed
    rw [same] at shape
    obtain ⟨name, type⟩ := Ty.field_all shape member
    refine ⟨name, fun u found => ?_⟩
    obtain rfl := Option.some.inj found
    exact type
  · simp

theorem Closed.supertypesOf (closed : ps.Closed P) {t u : Ty} (good : t.All P)
    (above : some u ∈ ps.supertypesOf t) : u.All P := by
  have shape := closed.underlying good
  rw [Packages.supertypesOf] at above
  split at above
  · next methods embeds same =>
    obtain ⟨v, member, found⟩ := List.mem_map.1 above
    obtain rfl := Option.some.inj found
    rw [same] at shape
    simp only [Ty.All, Ty.parts, List.forall_mem_append] at shape
    exact Ty.all_of_mem shape.2 member
  · simp at above

end Packages

end ComposeStability.Program
