/-
# Proofs.Instrument.Functions -- the functions of an instrumented file

A target is skipped or injects its statements (`instrumentTarget_cases`), and at
last a file stays as it is or gets the import of the runtime (`addRuntime_cases`).
Imports come and go without a change to the functions of a file
(`functionsIn_placeImport`), and a target changes the function that it names and
no other (`instrumentTarget_functions`).  So a file has as many functions as
before, in the same order, and each is what its targets made of it
(`instrument_functions`).
-/
import ComposeStability.Instrument.File
import Mathlib.Data.List.Basic

namespace ComposeStability.Instrument

set_option autoImplicit false

open Source (Decl FuncDecl ImportSpec File)

/-! ## Functions among declarations -/

/-- The functions among declarations. -/
def functionsIn (decls : List Decl) : List FuncDecl :=
  decls.filterMap fun
    | .func f => some f
    | _ => none

theorem functionsIn_append (first rest : List Decl) :
    functionsIn (first ++ rest) = functionsIn first ++ functionsIn rest :=
  List.filterMap_append

theorem functionsIn_mergeImports (decls : List Decl) :
    functionsIn (mergeImports decls) = functionsIn decls := by
  induction decls with
  | nil => rfl
  | cons d rest ih =>
      cases d with
      | imports pos grouped specs =>
          rw [mergeImports]
          split
          · exact ih
          · show functionsIn (rest.filter _) = functionsIn rest
            rw [functionsIn, List.filterMap_filter]
            refine congrArg (rest.filterMap ·) (funext fun d => ?_)
            cases d with
            | imports _ _ others => simp
            | types _ _ _ => rfl
            | values _ => rfl
            | func _ => rfl
      | types doc grouped specs => exact ih
      | values names => exact ih
      | func f => exact congrArg (f :: ·) ih

theorem functionsIn_insertSpec (spec : ImportSpec) (after : Option Nat) (n : Nat)
    (decls : List Decl) :
    functionsIn (modifyAt (insertSpec spec after) n decls) = functionsIn decls := by
  induction decls generalizing n with
  | nil => cases n <;> rfl
  | cons d rest ih =>
      cases n with
      | zero => cases d <;> rfl
      | succ n =>
          cases d with
          | func f => exact congrArg (f :: ·) (ih n)
          | _ => exact ih n

theorem functionsIn_insert (pos : Source.Pos) (grouped : Bool) (specs : List ImportSpec) (n : Nat)
    (decls : List Decl) :
    functionsIn (decls.take n ++ .imports pos grouped specs :: decls.drop n) =
      functionsIn decls := by
  rw [functionsIn_append]
  show functionsIn (decls.take n) ++ functionsIn (decls.drop n) = functionsIn decls
  rw [← functionsIn_append, List.take_append_drop]

/-- A new import changes no function. -/
theorem functionsIn_placeImport (spec : ImportSpec) (path : String) (decls : List Decl) :
    functionsIn (placeImport spec path decls) = functionsIn decls := by
  rw [placeImport]
  split
  · rw [functionsIn_mergeImports, functionsIn_insertSpec]
  · rw [functionsIn_mergeImports]
    exact functionsIn_insert _ _ _ _ _

theorem functionsIn_replaceFunction (new : FuncDecl) (n : Nat) (decls : List Decl) :
    functionsIn (replaceFunction new n decls) = (functionsIn decls).set n new := by
  induction decls generalizing n with
  | nil => rfl
  | cons d rest ih =>
      cases d with
      | func f =>
          cases n with
          | zero => rfl
          | succ n => exact congrArg (f :: ·) (ih n)
      | imports pos grouped specs => cases n <;> exact ih _
      | types doc grouped specs => cases n <;> exact ih _
      | values names => cases n <;> exact ih _

/-! ## Targets -/

/-- What a target makes of a function: it stays as it is where it can't be tracked. -/
def outcome (s : Symbols) (t : Target) (f : FuncDecl) : FuncDecl :=
  (inject f t.name t.tag t.threshold (paramsOf f t.summary) s).getD f

/-- What targets make of the function with a given number. -/
def rewritten (s : Symbols) (targets : List Target) (n : Nat) (f : FuncDecl) : FuncDecl :=
  targets.foldl (fun f t => if t.function = n then outcome s t f else f) f

/-- A target is skipped, or its function gets what is injected. -/
theorem instrumentTarget_cases (s : Symbols) (file : File) (stats : Stats) (t : Target) :
    ((∀ f, file.allFunctions[t.function]? = some f →
        inject f t.name t.tag t.threshold (paramsOf f t.summary) s = none) ∧
      instrumentTarget s (file, stats) t = (file, stats.add { skipped := 1 })) ∨
    ∃ f g, file.allFunctions[t.function]? = some f ∧
      inject f t.name t.tag t.threshold (paramsOf f t.summary) s = some g ∧
      instrumentTarget s (file, stats) t =
        ({ file with decls := replaceFunction g t.function file.decls },
          stats.add { injected := 1, params := (paramsOf f t.summary).length }) := by
  cases found : file.allFunctions[t.function]? with
  | none =>
      refine .inl ⟨fun f here => ?_, by simp only [instrumentTarget, found]⟩
      cases here
  | some f =>
      cases made : inject f t.name t.tag t.threshold (paramsOf f t.summary) s with
      | none =>
          refine .inl ⟨fun g here => ?_, by simp only [instrumentTarget, found, made]⟩
          obtain rfl := Option.some.inj here
          exact made
      | some g => exact .inr ⟨f, g, rfl, made, by simp only [instrumentTarget, found, made]⟩

/-- A target changes its function and no other. -/
theorem instrumentTarget_functions (s : Symbols) (file : File) (stats : Stats) (t : Target)
    (n : Nat) :
    (instrumentTarget s (file, stats) t).1.allFunctions[n]? =
      file.allFunctions[n]?.map fun f => if t.function = n then outcome s t f else f := by
  rcases instrumentTarget_cases s file stats t with ⟨skipped, same⟩ | ⟨f, g, found, made, same⟩
  · rw [same]
    cases found : file.allFunctions[n]? with
    | none => rfl
    | some f =>
        rw [Option.map_some]
        split
        · next called => rw [outcome, skipped f (called ▸ found), Option.getD_none]
        · rfl
  · have now : outcome s t f = g := by rw [outcome, made, Option.getD_some]
    rw [same]
    show (functionsIn (replaceFunction g t.function file.decls))[n]? = _
    rw [functionsIn_replaceFunction]
    by_cases here : t.function = n
    · subst here
      have inside := (List.getElem?_eq_some_iff.1 found).1
      rw [found, Option.map_some, if_pos rfl, now]
      exact List.getElem?_set_self inside
    · simp only [here, if_false, Option.map_id']
      exact List.getElem?_set_ne here

theorem foldl_functions (s : Symbols) (targets : List Target) (acc : File × Stats) (n : Nat) :
    (targets.foldl (instrumentTarget s) acc).1.allFunctions[n]? =
      acc.1.allFunctions[n]?.map (rewritten s targets n) := by
  induction targets generalizing acc with
  | nil => exact Option.map_id'.symm
  | cons t rest ih =>
      rw [List.foldl_cons, ih, instrumentTarget_functions, Option.map_map]
      rfl

/-! ## Files -/

/-- The import by which a file uses the runtime under a name. -/
def runtimeImport (s : Symbols) : ImportSpec where
  name := if s.package == defaultName s.path then none else some s.package
  literal := Text.quote s.path

/-- A file has the runtime as it uses it, or does not use it. -/
def Provided (s : Symbols) (f : File) (injected : Nat) : Prop :=
  injected = 0 ∨ s.path = "" ∨ hasImport f (runtimeImport s).name s.path

/-- A file stays as it is, or gets the import of the runtime. -/
theorem addRuntime_cases (s : Symbols) (file : File) (stats : Stats) :
    (Provided s file stats.injected ∧ addRuntime s file stats = { file, stats }) ∨
      (¬ Provided s file stats.injected ∧ addRuntime s file stats =
        { file := { file with decls := placeImport (runtimeImport s) s.path file.decls }
          stats
          added := some (runtimeImport s) }) := by
  have decided : (stats.injected = 0 || s.path.isEmpty ||
      hasImport file (runtimeImport s).name s.path) = true ↔ Provided s file stats.injected := by
    simp [Provided, or_assoc]
  rw [← decided]
  unfold addRuntime runtimeImport
  dsimp only
  generalize (if s.package == defaultName s.path then none else some s.package) = name
  split
  · next enough => exact .inl ⟨enough, rfl⟩
  · next missing => exact .inr ⟨missing, rfl⟩

theorem addRuntime_functions (s : Symbols) (file : File) (stats : Stats) :
    (addRuntime s file stats).file.allFunctions = file.allFunctions := by
  rcases addRuntime_cases s file stats with ⟨-, same⟩ | ⟨-, added⟩
  · rw [same]
  · rw [added]
    exact functionsIn_placeImport _ _ _

theorem addRuntime_stats (s : Symbols) (file : File) (stats : Stats) :
    (addRuntime s file stats).stats = stats := by
  rcases addRuntime_cases s file stats with ⟨-, same⟩ | ⟨-, added⟩
  · rw [same]
  · rw [added]

/-- The symbols with the name under which the runtime is used in a file. -/
def symbolsIn (f : File) (targets : List Target) (s : Symbols) : Symbols :=
  { s with package := importName f (targets.filterMap fun t => f.allFunctions[t.function]?) s }

/-- Each function of a file becomes what its targets make of it. -/
theorem instrument_functions (f : File) (targets : List Target) (s : Symbols) (n : Nat) :
    (instrument f targets s).file.allFunctions[n]? =
      f.allFunctions[n]?.map (rewritten (symbolsIn f targets s) targets n) := by
  cases targets with
  | nil => exact Option.map_id'.symm
  | cons t rest =>
      simp only [instrument, List.isEmpty_cons, Bool.false_eq_true, if_false]
      rw [addRuntime_functions, foldl_functions]
      rfl

end ComposeStability.Instrument
