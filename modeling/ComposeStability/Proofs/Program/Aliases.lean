/-
# Proofs.Program.Aliases -- chains of aliases are followed to their end

An alias stands for another type, which may be an alias again; the type arguments
that it is given go into that type.  Which declaration a type refers to, it keeps
when arguments are put in (`Ty.head?_instantiate`), unless it is a type parameter,
and no alias stands for one of its own.  So the names of the aliases that a chain
passes depend on the first of them alone, not on its arguments
(`Chain.passed_eq`).  A chain that ends therefore passes no alias twice
(`Chain.nodup`), it is no longer than there are declared types, and following that
many aliases leads to its end (`StandsFor.unalias_eq`).
-/
import ComposeStability.Program.Package
import Mathlib.Data.List.Perm.Subperm

namespace ComposeStability.Program

set_option autoImplicit false

/-! ## The declaration that a type refers to -/

/-- The path and name of the declaration that a type refers to. -/
def Ty.head? : Ty → Option (String × String)
  | .named path name _ => some (path, name)
  | _ => none

theorem Ty.head?_eq_some {t : Ty} {path name : String} (head : t.head? = some (path, name)) :
    ∃ args, t = .named path name args := by
  cases t <;> cases head
  exact ⟨_, rfl⟩

theorem Ty.instantiate_typeParam (params : List String) (args : List Ty) (name : String) :
    (Ty.typeParam name).instantiate params args =
      (((params.zip args).find? fun pair => pair.1 == name).map (·.2)).getD (.typeParam name) :=
  rfl

theorem Ty.instantiate_typeParam_of_notMem {params : List String} {name : String}
    (free : name ∉ params) (args : List Ty) :
    (Ty.typeParam name).instantiate params args = .typeParam name := by
  have none : (params.zip args).find? (fun pair => pair.1 == name) = none := by
    refine List.find?_eq_none.2 fun pair paired same => free ?_
    rw [← eq_of_beq same]
    exact (List.of_mem_zip paired).1
  rw [instantiate_typeParam, none]
  rfl

theorem Ty.head?_instantiate {params : List String} {t : Ty}
    (own : ∀ param ∈ params, t ≠ .typeParam param) (args : List Ty) :
    (t.instantiate params args).head? = t.head? := by
  cases t with
  | typeParam name => rw [instantiate_typeParam_of_notMem fun member => own name member rfl]
  | _ => rfl

namespace Packages

/-! ## Chains -/

/-- A name is declared as an alias of a type, which is none of the alias's own type parameters. -/
structure AliasOf (ps : Packages) (path name : String) (params : List String) (target : Ty) :
    Prop where
  declared : ps.meaning? path name = some (.alias params target)
  own : ∀ param ∈ params, target ≠ .typeParam param

/-- A type leads to `u`, which is no alias, by way of the aliases `passed`. -/
inductive Chain (ps : Packages) : Ty → Ty → List (String × String) → Prop where
  | done {t : Ty} (plain : ∀ path name args params target, t = .named path name args →
      ps.meaning? path name ≠ some (.alias params target)) : Chain ps t t []
  | pass {path name : String} {args : List Ty} {params : List String} {target u : Ty}
      {passed : List (String × String)} (named : ps.AliasOf path name params target)
      (onward : Chain ps (target.instantiate params args) u passed) :
      Chain ps (.named path name args) u ((path, name) :: passed)

/-- A type is `u` by way of any number of aliases, and `u` is no alias. -/
def StandsFor (ps : Packages) (t u : Ty) : Prop := ∃ passed, ps.Chain t u passed

variable {ps : Packages} {t t' u u' : Ty} {path name : String}
  {passed passed' : List (String × String)}

/-- From types that refer to the same declaration, the same aliases are passed. -/
theorem Chain.passed_eq (chain : ps.Chain t u passed) (chain' : ps.Chain t' u' passed')
    (head : t.head? = t'.head?) : passed = passed' := by
  induction chain generalizing t' u' passed' with
  | done plain =>
      cases chain' with
      | done => rfl
      | pass named _ =>
          obtain ⟨_, rfl⟩ := Ty.head?_eq_some head
          exact absurd named.declared (plain _ _ _ _ _ rfl)
  | pass named _ ih =>
      cases chain' with
      | done plain =>
          obtain ⟨_, rfl⟩ := Ty.head?_eq_some head.symm
          exact absurd named.declared (plain _ _ _ _ _ rfl)
      | pass named' onward' =>
          cases head
          cases named.declared.symm.trans named'.declared
          rw [ih onward' (by rw [Ty.head?_instantiate named.own, Ty.head?_instantiate named.own])]

/-- Each alias that is passed leads on with arguments of its own, by a chain that is no longer. -/
theorem Chain.of_mem (chain : ps.Chain t u passed) (member : (path, name) ∈ passed) :
    ∃ args rest, ps.Chain (.named path name args) u rest ∧ rest.length ≤ passed.length := by
  induction chain with
  | done => cases member
  | @pass _ _ args _ _ _ passed named onward ih =>
      rcases List.mem_cons.1 member with same | later
      · cases same
        exact ⟨args, _, .pass named onward, Nat.le_refl _⟩
      · obtain ⟨args', rest, chain', shorter⟩ := ih later
        exact ⟨args', rest, chain', Nat.le_succ_of_le shorter⟩

/-- No alias is passed twice: after the second time as much would be left as after the first. -/
theorem Chain.nodup (chain : ps.Chain t u passed) : passed.Nodup := by
  induction chain with
  | done => exact .nil
  | @pass path name args _ _ _ passed named onward ih =>
      refine List.nodup_cons.2 ⟨fun again => ?_, ih⟩
      obtain ⟨args', rest, chain', shorter⟩ := onward.of_mem again
      have here : ps.Chain (.named path name args) _ ((path, name) :: passed) := .pass named onward
      obtain rfl := here.passed_eq chain' rfl
      exact Nat.not_succ_le_self _ shorter

/-! ## Following aliases -/

/-- The declared types, by the path of their package and their name. -/
def declaredNames (ps : Packages) : List (String × String) :=
  ps.flatMap fun p => p.types.map fun d => (p.path, d.name)

theorem length_declaredNames (ps : Packages) : ps.declaredNames.length = ps.typeCount := by
  simp [declaredNames, typeCount, List.length_flatMap]

theorem mem_declaredNames {params : List String} {target : Ty}
    (declared : ps.meaning? path name = some (.alias params target)) :
    (path, name) ∈ ps.declaredNames := by
  rw [meaning?] at declared
  split at declared
  · unfold predeclared at declared
    split at declared <;> cases declared
  · obtain ⟨d, found, -⟩ := Option.map_eq_some_iff.1 declared
    obtain ⟨p, package, listed⟩ := Option.bind_eq_some_iff.1 found
    have samePath : p.path = path := by simpa using List.find?_some package
    have sameName : d.name = name := by simpa using List.find?_some listed
    refine List.mem_flatMap.2 ⟨p, List.mem_of_find?_eq_some package, ?_⟩
    exact List.mem_map.2 ⟨d, List.mem_of_find?_eq_some listed, by rw [samePath, sameName]⟩

theorem Chain.subset_declaredNames (chain : ps.Chain t u passed) : passed ⊆ ps.declaredNames := by
  induction chain with
  | done => exact List.nil_subset _
  | pass named _ ih => exact List.cons_subset.2 ⟨mem_declaredNames named.declared, ih⟩

theorem Chain.length_le (chain : ps.Chain t u passed) : passed.length ≤ ps.typeCount := by
  rw [← length_declaredNames]
  exact (List.subperm_of_subset chain.nodup chain.subset_declaredNames).length_le

theorem Chain.unaliasFrom_eq (chain : ps.Chain t u passed) {fuel : Nat}
    (enough : passed.length ≤ fuel) : ps.unaliasFrom fuel t = u := by
  induction chain generalizing fuel with
  | @done t plain =>
      cases fuel with
      | zero => rfl
      | succ fuel =>
          cases t with
          | named path name args =>
              rw [unaliasFrom]
              split
              · next declared => exact absurd declared (plain _ _ _ _ _ rfl)
              · rfl
          | _ => rfl
  | pass named _ ih =>
      cases fuel with
      | zero => cases enough
      | succ fuel =>
          rw [unaliasFrom, named.declared]
          exact ih (Nat.le_of_succ_le_succ enough)

theorem StandsFor.unalias_eq (stands : ps.StandsFor t u) : ps.unalias t = u := by
  obtain ⟨passed, chain⟩ := stands
  exact chain.unaliasFrom_eq (Nat.le_succ_of_le chain.length_le)

end Packages

end ComposeStability.Program
