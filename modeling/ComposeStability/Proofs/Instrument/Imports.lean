/-
# Proofs.Instrument.Imports -- the imports of an instrumented file

An import binds a name to a path, and file and package share their names
(`bindings`, `BoundOnce`).  A new import goes among the others, which stay
(`importsIn_placeImport`), so instrumentation leaves the imports of a file as
they are or adds one (`instrument_imports`).  The name of the runtime is bound
to it in the file already, or else nothing in the file has this name
(`importName_cases`).

The import is left out only if one is there that is written in the same way.
So the name is bound once, to the runtime, except where the file has the import
with its default name spelled out: then a second import binds this name again
(`instrument_boundOnce_iff`, `panel_bound_twice`).
-/
import ComposeStability.Proofs.Instrument.Functions
import ComposeStability.Proofs.Text.Fresh
import ComposeStability.Proofs.Text.ReadBack
import Mathlib.Data.List.Nodup

namespace ComposeStability.Instrument

set_option autoImplicit false

open Source (Decl FuncDecl ImportSpec File)

/-! ## Imports among declarations -/

/-- The imports among declarations. -/
def importsIn (decls : List Decl) : List ImportSpec :=
  decls.flatMap fun
    | .imports _ _ specs => specs
    | _ => []

theorem importsIn_append (first rest : List Decl) :
    importsIn (first ++ rest) = importsIn first ++ importsIn rest :=
  List.flatMap_append

theorem importsIn_imports (pos : Source.Pos) (grouped : Bool) (specs : List ImportSpec)
    (rest : List Decl) : importsIn (.imports pos grouped specs :: rest) = specs ++ importsIn rest :=
  List.flatMap_cons

/-- Whether a declaration stays where it is when imports are merged. -/
def staysApart : Decl → Bool
  | .imports _ _ specs => isForeign specs
  | _ => true

/-- Imports are merged, or stay where they are. -/
theorem mergeable_perm (decls : List Decl) :
    (mergeable decls ++ importsIn (decls.filter staysApart)).Perm (importsIn decls) := by
  induction decls with
  | nil => exact .refl _
  | cons d rest ih =>
      cases d with
      | imports pos grouped specs =>
          rw [importsIn_imports, mergeable, List.flatMap_cons]
          cases foreign : isForeign specs with
          | true =>
              have apart : staysApart (.imports pos grouped specs) = true := foreign
              rw [List.filter_cons_of_pos apart, importsIn_imports]
              simp only [foreign, if_true, List.nil_append]
              refine .trans ?_ (ih.append_left specs)
              rw [← List.append_assoc, ← List.append_assoc]
              exact List.perm_append_comm.append_right _
          | false =>
              have merged : ¬ staysApart (.imports pos grouped specs) = true := by
                simp [staysApart, foreign]
              rw [List.filter_cons_of_neg merged]
              simp only [foreign, Bool.false_eq_true, if_false, List.append_assoc]
              exact ih.append_left specs
      | types doc grouped specs => exact ih
      | values names => exact ih
      | func f => exact ih

theorem importsIn_mergeImports (decls : List Decl) :
    (importsIn (mergeImports decls)).Perm (importsIn decls) := by
  induction decls with
  | nil => exact .refl _
  | cons d rest ih =>
      cases d with
      | imports pos grouped specs =>
          rw [mergeImports]
          split
          · rw [importsIn_imports, importsIn_imports]
            exact ih.append_left specs
          · rw [importsIn_imports, importsIn_imports, List.append_assoc]
            exact (mergeable_perm rest).append_left specs
      | types doc grouped specs => exact ih
      | values names => exact ih
      | func f => exact ih

theorem insert_perm {α : Type} (x : α) (n : Nat) (xs : List α) :
    (xs.take n ++ x :: xs.drop n).Perm (x :: xs) := by
  have middle := @List.perm_middle _ x (xs.take n) (xs.drop n)
  rwa [List.take_append_drop] at middle

/-- A declaration of imports takes one more. -/
theorem importsIn_insertSpec (spec : ImportSpec) (after : Option Nat) {decls : List Decl}
    {i : Nat} {pos : Source.Pos} {grouped : Bool} {specs : List ImportSpec}
    (found : decls[i]? = some (.imports pos grouped specs)) :
    (importsIn (modifyAt (insertSpec spec after) i decls)).Perm (spec :: importsIn decls) := by
  induction decls generalizing i with
  | nil => simp at found
  | cons d rest ih =>
      cases i with
      | zero =>
          obtain rfl : d = .imports pos grouped specs := by simpa using found
          obtain ⟨grouped', n, taken⟩ : ∃ grouped' n,
              insertSpec spec after (.imports pos grouped specs) =
                .imports pos grouped' (specs.take n ++ spec :: specs.drop n) := ⟨_, _, rfl⟩
          rw [modifyAt, taken, importsIn_imports, importsIn_imports]
          exact (insert_perm spec n specs).append_right _
      | succ i =>
          rw [List.getElem?_cons_succ] at found
          have later := ih found
          rw [modifyAt, importsIn, List.flatMap_cons, importsIn, List.flatMap_cons]
          exact (later.append_left _).trans List.perm_middle

theorem importsIn_insert (pos : Source.Pos) (grouped : Bool) (spec : ImportSpec) (n : Nat)
    (decls : List Decl) :
    (importsIn (decls.take n ++ .imports pos grouped [spec] :: decls.drop n)).Perm
      (spec :: importsIn decls) := by
  rw [importsIn_append, importsIn_imports]
  have middle := @List.perm_middle _ spec (importsIn (decls.take n)) (importsIn (decls.drop n))
  rwa [← importsIn_append, List.take_append_drop] at middle

/-! ## The place of a new import -/

/-- A place in a declaration of imports, if it is in any. -/
def Spot.Inside (decls : List Decl) (spot : Spot) : Prop :=
  ∀ i, spot.decl = some i → ∃ pos grouped specs, decls[i]? = some (.imports pos grouped specs)

theorem Spot.Inside.consider {decls : List Decl} {i : Nat} {pos : Source.Pos} {grouped : Bool}
    {specs : List ImportSpec} (found : decls[i]? = some (.imports pos grouped specs))
    (path : String) {acc : Spot × Bool} (inside : acc.1.Inside decls) (entry : ImportSpec × Nat) :
    (Spot.consider path i acc entry).1.Inside decls := by
  intro j chosen
  simp only [Spot.consider] at chosen
  split at chosen
  · obtain rfl : i = j := Option.some.inj chosen
    exact ⟨pos, grouped, specs, found⟩
  · exact inside j chosen

theorem findSpot_inside (path : String) (decls : List Decl) : (findSpot path decls).Inside decls := by
  refine List.foldlRecOn (motive := Spot.Inside decls) _ _ (fun i chosen => by cases chosen) ?_
  rintro best inside ⟨d, i⟩ member
  have found := List.mk_mem_zipIdx_iff_getElem?.1 member
  cases d with
  | imports pos grouped specs =>
      dsimp only
      split
      · exact inside
      · refine List.foldlRecOn (motive := fun acc : Spot × Bool => acc.1.Inside decls) _ _ ?_
          fun acc kept entry _ => kept.consider found path entry
        dsimp only
        split
        · intro j chosen
          obtain rfl : i = j := Option.some.inj chosen
          exact ⟨pos, grouped, specs, found⟩
        · exact inside
  | types doc grouped specs => exact inside
  | values names => exact inside
  | func f => exact inside

/-- A new import is added to those that are there. -/
theorem importsIn_placeImport (spec : ImportSpec) (path : String) (decls : List Decl) :
    (importsIn (placeImport spec path decls)).Perm (spec :: importsIn decls) := by
  rw [placeImport]
  split
  · next i chosen =>
      obtain ⟨pos, grouped, specs, found⟩ := findSpot_inside path decls i chosen
      exact (importsIn_mergeImports _).trans (importsIn_insertSpec spec _ found)
  · exact (importsIn_mergeImports _).trans (importsIn_insert _ _ spec _ decls)

/-! ## The imports of a file -/

theorem importsIn_replaceFunction (new : FuncDecl) (n : Nat) (decls : List Decl) :
    importsIn (replaceFunction new n decls) = importsIn decls := by
  induction decls generalizing n with
  | nil => rfl
  | cons d rest ih =>
      cases d with
      | func f =>
          cases n with
          | zero => rfl
          | succ n => exact ih n
      | imports pos grouped specs => cases n <;> exact congrArg (specs ++ ·) (ih _)
      | types doc grouped specs => cases n <;> exact ih _
      | values names => cases n <;> exact ih _

theorem instrumentTarget_imports (s : Symbols) (acc : File × Stats) (t : Target) :
    (instrumentTarget s acc t).1.imports = acc.1.imports := by
  obtain ⟨file, stats⟩ := acc
  rcases instrumentTarget_cases s file stats t with ⟨-, same⟩ | ⟨f, g, -, -, same⟩
  · rw [same]
  · rw [same]
    exact importsIn_replaceFunction _ _ _

theorem foldl_imports (s : Symbols) (targets : List Target) (acc : File × Stats) :
    (targets.foldl (instrumentTarget s) acc).1.imports = acc.1.imports :=
  List.foldlRecOn (motive := fun done => done.1.imports = acc.1.imports) _ _ rfl
    fun done kept t _ => (instrumentTarget_imports s done t).trans kept

theorem addRuntime_imports (s : Symbols) (file : File) (stats : Stats) :
    (Provided s file stats.injected ∧ (addRuntime s file stats).file.imports = file.imports) ∨
      (¬ Provided s file stats.injected ∧
        (addRuntime s file stats).file.imports.Perm (runtimeImport s :: file.imports)) := by
  rcases addRuntime_cases s file stats with ⟨provided, same⟩ | ⟨missing, added⟩
  · exact .inl ⟨provided, by rw [same]⟩
  · refine .inr ⟨missing, ?_⟩
    rw [added]
    exact importsIn_placeImport _ _ _

/-- Instrumentation leaves the imports of a file as they are, or adds that of the runtime. -/
theorem instrument_imports (f : File) (targets : List Target) (s : Symbols) :
    let own := symbolsIn f targets s
    let done := instrument f targets s
    (Provided own f done.stats.injected ∧ done.file.imports = f.imports) ∨
      (¬ Provided own f done.stats.injected ∧
        done.file.imports.Perm (runtimeImport own :: f.imports)) := by
  cases targets with
  | nil => exact .inl ⟨.inl rfl, rfl⟩
  | cons t rest =>
      intro own done
      have kept := foldl_imports own (t :: rest) (f, {})
      have same (file : File) (imports : file.imports = f.imports) (n : Nat) :
          Provided own file n ↔ Provided own f n := by
        simp only [Provided, hasImport, imports]
      have after := addRuntime_imports own ((t :: rest).foldl (instrumentTarget own) (f, {})).1
        ((t :: rest).foldl (instrumentTarget own) (f, {})).2
      rw [same _ kept, kept] at after
      have stats : done.stats = ((t :: rest).foldl (instrumentTarget own) (f, {})).2 :=
        addRuntime_stats own _ _
      rw [stats]
      exact after

/-! ## Names that imports bind -/

/-- The names that imports give to paths.  A path that can't be read gets none. -/
def namedPaths (specs : List ImportSpec) : List (String × String) :=
  specs.filterMap fun spec => (importPath? spec).map fun path => (boundName spec path, path)

/-- Whether an import under a name binds it: blank and dot imports don't. -/
def binds (name : String) : Bool := !(name == "_" || name == ".")

/-- The names that imports bind, each with its path. -/
def bindings (specs : List ImportSpec) : List (String × String) :=
  (namedPaths specs).filter fun b => binds b.1

/-- Imports bind different names, and one of them, `name`, to `path`. -/
structure BoundOnce (specs : List ImportSpec) (name path : String) : Prop where
  distinct : ((bindings specs).map (·.1)).Nodup
  once : (bindings specs).filter (·.1 == name) = [(name, path)]

section
variable {specs specs' : List ImportSpec} {name path : String}

theorem mem_namedPaths : (name, path) ∈ namedPaths specs ↔
    ∃ spec ∈ specs, importPath? spec = some path ∧ boundName spec path = name := by
  simp only [namedPaths, List.mem_filterMap, Option.map_eq_some_iff, Prod.mk.injEq]
  constructor
  · rintro ⟨spec, member, other, read, called, rfl⟩
    exact ⟨spec, member, read, called⟩
  · rintro ⟨spec, member, read, called⟩
    exact ⟨spec, member, path, read, called, rfl⟩

theorem mem_bindings :
    (name, path) ∈ bindings specs ↔ (name, path) ∈ namedPaths specs ∧ binds name = true :=
  List.mem_filter

theorem binds_of_mem {b : String × String} (member : b ∈ bindings specs) : binds b.1 = true :=
  (List.mem_filter.1 member).2

theorem bindings_perm (perm : specs.Perm specs') : (bindings specs).Perm (bindings specs') :=
  (perm.filterMap _).filter _

theorem BoundOnce.mem (bound : BoundOnce specs name path) : (name, path) ∈ bindings specs := by
  have listed : (name, path) ∈ (bindings specs).filter (·.1 == name) := by simp [bound.once]
  exact (List.mem_filter.1 listed).1

theorem BoundOnce.perm (bound : BoundOnce specs name path) (perm : specs.Perm specs') :
    BoundOnce specs' name path := by
  have same := bindings_perm perm
  refine ⟨(same.map _).nodup bound.distinct, List.perm_singleton.1 ?_⟩
  rw [← bound.once]
  exact (same.filter _).symm

/-- A name that is bound to a path is bound once, if all names differ. -/
theorem boundOnce_of_mem (distinct : ((bindings specs).map (·.1)).Nodup)
    (member : (name, path) ∈ bindings specs) : BoundOnce specs name path := by
  refine ⟨distinct, ?_⟩
  generalize bindings specs = bound at distinct member
  induction bound with
  | nil => cases member
  | cons b rest ih =>
      obtain ⟨fresh, later⟩ := List.nodup_cons.1 distinct
      rw [List.filter_cons]
      rcases List.mem_cons.1 member with rfl | inside
      · rw [if_pos (beq_self_eq_true name), List.filter_eq_nil_iff.2]
        intro other listed same
        exact fresh (List.mem_map.2 ⟨other, listed, eq_of_beq same⟩)
      · rw [if_neg fun same =>
          fresh (List.mem_map.2 ⟨(name, path), inside, (eq_of_beq same).symm⟩)]
        exact ih later inside

/-- Different imports bind different names, if all names differ. -/
theorem eq_of_boundName (distinct : ((bindings specs).map (·.1)).Nodup)
    (binding : binds name = true) {spec other : ImportSpec} (member : spec ∈ specs)
    (member' : other ∈ specs) (read : importPath? spec = some path)
    (read' : importPath? other = some path) (called : boundName spec path = name)
    (called' : boundName other path = name) : spec = other := by
  rw [bindings, namedPaths, List.Nodup, List.pairwise_map, List.pairwise_filter,
    List.pairwise_filterMap] at distinct
  have named {spec : ImportSpec} (read : importPath? spec = some path)
      (called : boundName spec path = name) :
      (importPath? spec).map (fun path => (boundName spec path, path)) = some (name, path) := by
    rw [read, Option.map_some, called]
  induction specs with
  | nil => cases member
  | cons first rest ih =>
      obtain ⟨apart, later⟩ := List.pairwise_cons.1 distinct
      rcases List.mem_cons.1 member with rfl | inside
      · rcases List.mem_cons.1 member' with rfl | inside'
        · rfl
        · exact absurd rfl (apart other inside' _ (named read called) _ (named read' called')
            binding binding)
      · rcases List.mem_cons.1 member' with rfl | inside'
        · exact absurd rfl (apart spec inside _ (named read' called') _ (named read called)
            binding binding)
        · exact ih later inside inside'

end

/-! ## The name of the runtime -/

section
variable {path name : String} {taken names : List String} {specs : List ImportSpec}

/-- A name that is found is bound to the path, and is not taken. -/
theorem findImport_ok (found : findImport path taken specs = .ok name) :
    (name, path) ∈ bindings specs ∧ name ∉ taken := by
  induction specs generalizing taken with
  | nil => cases found
  | cons spec rest ih =>
      rw [findImport] at found
      split at found
      · next missing =>
          obtain ⟨member, free⟩ := ih found
          refine ⟨?_, free⟩
          rw [bindings, namedPaths, List.filterMap_cons_none (by simp [missing])]
          exact member
      · next other read =>
          have here : namedPaths (spec :: rest) = (boundName spec other, other) :: namedPaths rest :=
            List.filterMap_cons_some (by simp [read])
          dsimp only at found
          split at found
          · next fits =>
              obtain rfl := Except.ok.inj found
              simp only [Bool.and_eq_true, beq_iff_eq, bne_iff_ne, Bool.not_eq_true',
                List.contains_eq_mem, decide_eq_false_iff_not] at fits
              obtain ⟨⟨⟨rfl, notBlank⟩, notDot⟩, free⟩ := fits
              refine ⟨mem_bindings.2 ⟨?_, by simp [binds, notBlank, notDot]⟩, free⟩
              rw [here]
              exact List.mem_cons_self
          · obtain ⟨member, free⟩ := ih found
            refine ⟨mem_bindings.2 ?_, fun old => free (List.mem_cons_of_mem _ old)⟩
            rw [here]
            exact ⟨List.mem_cons_of_mem _ (mem_bindings.1 member).1, binds_of_mem member⟩

/-- If no name is found, those of all imports are taken. -/
theorem findImport_error (found : findImport path taken specs = .error names) :
    names = ((namedPaths specs).map (·.1)).reverse ++ taken := by
  induction specs generalizing taken with
  | nil =>
      obtain rfl := Except.error.inj found
      rfl
  | cons spec rest ih =>
      rw [findImport] at found
      split at found
      · next missing =>
          rw [namedPaths, List.filterMap_cons_none (by simp [missing])]
          exact ih found
      · next other read =>
          have here : namedPaths (spec :: rest) = (boundName spec other, other) :: namedPaths rest :=
            List.filterMap_cons_some (by simp [read])
          dsimp only at found
          split at found
          · cases found
          · rw [ih found, here, List.map_cons, List.reverse_cons, List.append_assoc]
            rfl

end

/-- The names that are in use in a file: at package level, for its imports, and in the signatures
of functions. -/
def namesInUse (f : File) (functions : List FuncDecl) : List String :=
  declaredNames f.decls ++ (((namedPaths f.imports).map (·.1)).reverse ++
    functions.flatMap (·.signatureNames))

/-- The runtime has the name of an import of it, or a new one. -/
theorem importName_cases (f : File) (functions : List FuncDecl) (s : Symbols) :
    ((importName f functions s, s.path) ∈ bindings f.imports ∧
        importName f functions s ∉ functions.flatMap (·.signatureNames)) ∨
      importName f functions s = Text.freshName s.package (namesInUse f functions) := by
  rw [importName]
  split
  · next name found => exact .inl (findImport_ok found)
  · next taken found => exact .inr (by rw [findImport_error found, namesInUse])

/-- The functions of a file that targets name. -/
def targeted (f : File) (targets : List Target) : List FuncDecl :=
  targets.filterMap fun t => f.allFunctions[t.function]?

/-- The runtime is used in a file under a name that is bound to it, or under a new one. -/
theorem package_cases (f : File) (targets : List Target) (s : Symbols) :
    ((symbolsIn f targets s).package, s.path) ∈ bindings f.imports ∨
      (symbolsIn f targets s).package =
        Text.freshName s.package (namesInUse f (targeted f targets)) :=
  (importName_cases f (targeted f targets) s).imp_left And.left

/-- A fresh name is not bound by imports. -/
theorem freshName_not_bound (f : File) (functions : List FuncDecl) (base : String) :
    Text.freshName base (namesInUse f functions) ∉ (bindings f.imports).map (·.1) := by
  intro bound
  refine Text.freshName_not_mem base (namesInUse f functions) ?_
  have named := (List.filter_sublist.map _).subset bound
  exact List.mem_append_right _ (List.mem_append_left _ (List.mem_reverse.2 named))

/-! ## The import of the runtime -/

section
variable {f : File} {s : Symbols}

theorem namedPaths_runtimeImport (s : Symbols) (specs : List ImportSpec) :
    namedPaths (runtimeImport s :: specs) = (s.package, s.path) :: namedPaths specs := by
  have called : boundName (runtimeImport s) s.path = s.package := by
    by_cases plain : s.package = defaultName s.path
    · simp [boundName, runtimeImport, plain]
    · simp [boundName, runtimeImport, plain]
  have read : importPath? (runtimeImport s) = some s.path := Text.unquote?_quote s.path
  exact List.filterMap_cons_some (by rw [read, Option.map_some, called])

/-- With an import of the runtime among them, imports bind its name once if no other binds it. -/
theorem boundOnce_runtimeImport_iff {specs : List ImportSpec}
    (distinct : ((bindings specs).map (·.1)).Nodup) :
    BoundOnce (runtimeImport s :: specs) s.package s.path ↔
      binds s.package = true ∧ s.package ∉ (bindings specs).map (·.1) := by
  have added (binding : binds s.package = true) :
      bindings (runtimeImport s :: specs) = (s.package, s.path) :: bindings specs := by
    rw [bindings, namedPaths_runtimeImport, List.filter_cons, if_pos binding, bindings]
  constructor
  · intro bound
    have binding : binds s.package = true := binds_of_mem bound.mem
    have names := bound.distinct
    rw [added binding, List.map_cons] at names
    exact ⟨binding, (List.nodup_cons.1 names).1⟩
  · rintro ⟨binding, fresh⟩
    refine boundOnce_of_mem ?_ ?_
    · rw [added binding, List.map_cons]
      exact List.nodup_cons.2 ⟨fresh, distinct⟩
    · rw [added binding]
      exact List.mem_cons_self

theorem hasImport_iff {name : Option String} {path : String} (known : path ≠ "") :
    hasImport f name path = true ↔
      ∃ spec ∈ f.imports, importPath? spec = some path ∧ spec.name = name := by
  have reads (spec : ImportSpec) : pathText spec = path ↔ importPath? spec = some path := by
    rw [pathText]
    cases importPath? spec with
    | none => simp [known.symm]
    | some other => simp
  simp only [hasImport, List.any_eq_true, Bool.and_eq_true, beq_iff_eq, reads, and_comm]

/-- An import of the runtime with its default name spelled out, which is the name that is used. -/
def SpelledOut (f : File) (s : Symbols) : Prop :=
  s.package = defaultName s.path ∧
    ∃ spec ∈ f.imports, importPath? spec = some s.path ∧ spec.name = some (defaultName s.path)

/-- An import that is there has the name of the runtime. -/
theorem mem_of_hasImport (known : s.path ≠ "")
    (present : hasImport f (runtimeImport s).name s.path = true) :
    (s.package, s.path) ∈ namedPaths f.imports := by
  obtain ⟨spec, member, read, called⟩ := (hasImport_iff known).1 present
  refine mem_namedPaths.2 ⟨spec, member, read, ?_⟩
  rw [boundName, called, runtimeImport]
  dsimp only
  split
  · next plain => exact (eq_of_beq plain).symm
  · rfl

theorem SpelledOut.mem (spelled : SpelledOut f s) : (s.package, s.path) ∈ namedPaths f.imports := by
  obtain ⟨plain, spec, member, read, called⟩ := spelled
  exact mem_namedPaths.2 ⟨spec, member, read, by rw [boundName, called, plain, Option.getD_some]⟩

/-- An import of the runtime under its name is there, or has the default name spelled out. -/
theorem hasImport_or_spelledOut (known : s.path ≠ "")
    (member : (s.package, s.path) ∈ namedPaths f.imports) :
    hasImport f (runtimeImport s).name s.path = true ∨ SpelledOut f s := by
  obtain ⟨spec, listed, read, called⟩ := mem_namedPaths.1 member
  rw [hasImport_iff known]
  by_cases plain : s.package = defaultName s.path
  · cases given : spec.name with
    | none => exact .inl ⟨spec, listed, read, by simp [runtimeImport, plain, given]⟩
    | some name =>
        refine .inr ⟨plain, spec, listed, read, ?_⟩
        rw [boundName, given, Option.getD_some] at called
        rw [given, called, plain]
  · refine .inl ⟨spec, listed, read, ?_⟩
    cases given : spec.name with
    | none => exact absurd (by rw [← called, boundName, given, Option.getD_none]) plain
    | some name =>
        rw [boundName, given, Option.getD_some] at called
        simp [runtimeImport, plain, called]

/-- With different names bound, an import with the default name spelled out is the only one under
this name. -/
theorem SpelledOut.not_hasImport (spelled : SpelledOut f s) (known : s.path ≠ "")
    (binding : binds s.package = true) (distinct : ((bindings f.imports).map (·.1)).Nodup) :
    ¬ hasImport f (runtimeImport s).name s.path = true := by
  intro present
  obtain ⟨plain, spec, member, read, called⟩ := spelled
  obtain ⟨other, member', read', called'⟩ := (hasImport_iff known).1 present
  have same := eq_of_boundName distinct binding member' member read' read
    (by simp [boundName, called', runtimeImport, plain]) (by simp [boundName, called, plain])
  simp [← same, called', runtimeImport, plain] at called

/-- Where no import of the runtime is there as it would be written, its name is new, or it is the
default name, spelled out. -/
theorem package_not_bound_iff {targets : List Target}
    (absent : ¬ hasImport f (runtimeImport (symbolsIn f targets s)).name s.path = true)
    (known : s.path ≠ "") (binding : binds (symbolsIn f targets s).package = true) :
    (symbolsIn f targets s).package ∉ (bindings f.imports).map (·.1) ↔
      ¬ SpelledOut f (symbolsIn f targets s) := by
  constructor
  · exact fun fresh spelled =>
      fresh (List.mem_map.2 ⟨_, mem_bindings.2 ⟨spelled.mem, binding⟩, rfl⟩)
  · intro plain
    rcases package_cases f targets s with old | new
    · exact absurd (hasImport_or_spelledOut (s := symbolsIn f targets s) known
        (mem_bindings.1 old).1) (not_or.2 ⟨absent, plain⟩)
    · rw [new]
      exact freshName_not_bound _ _ _

end

/-- In a file whose imports bind different names, the functions use the runtime by one name.  If
nothing is injected, the imports stay as they are.  Otherwise they bind different names afterwards,
and this one once, to the runtime, unless the default name of the runtime is spelled out in its
import, or the name is none that an import binds. -/
theorem instrument_boundOnce_iff {f : File} {targets : List Target} {s : Symbols}
    (distinct : ((bindings f.imports).map (·.1)).Nodup) (known : s.path ≠ "") :
    let own := symbolsIn f targets s
    let done := instrument f targets s
    (∀ n, done.file.allFunctions[n]? = f.allFunctions[n]?.map (rewritten own targets n)) ∧
    (done.stats.injected = 0 → done.file.imports = f.imports) ∧
    (0 < done.stats.injected →
      (BoundOnce done.file.imports own.package s.path ↔
        binds own.package = true ∧ ¬ SpelledOut f own)) := by
  intro own done
  have known' : own.path ≠ "" := known
  refine ⟨instrument_functions f targets s, fun unused => ?_, fun used => ?_⟩
  · rcases instrument_imports f targets s with ⟨-, same⟩ | ⟨missing, -⟩
    · exact same
    · exact absurd (.inl unused) missing
  · have provided_iff : Provided own f done.stats.injected ↔
        hasImport f (runtimeImport own).name s.path = true := by
      have unused : done.stats.injected ≠ 0 := Nat.ne_of_gt used
      have path : own.path = s.path := rfl
      simp [Provided, unused, known, path]
    rcases instrument_imports f targets s with ⟨provided, same⟩ | ⟨missing, added⟩
    · -- The imports stay, and one of them has the name.
      have present := provided_iff.1 provided
      rw [same]
      constructor
      · intro bound
        have binding : binds own.package = true := binds_of_mem bound.mem
        exact ⟨binding, fun spelled => spelled.not_hasImport known' binding distinct present⟩
      · rintro ⟨binding, -⟩
        exact boundOnce_of_mem distinct
          (mem_bindings.2 ⟨mem_of_hasImport known' present, binding⟩)
    · -- One import is added, and must be the only one with the name.
      have absent := provided_iff.not.1 missing
      rw [← and_congr_right fun binding => package_not_bound_iff absent known binding,
        ← boundOnce_runtimeImport_iff distinct]
      exact ⟨fun bound => bound.perm added, fun bound => bound.perm added.symm⟩

namespace Demo

/-- A file with one function and one import of the runtime. -/
def panel (importName : Option String) (parameter : String) : File where
  name := "panel.go"
  base := 1
  size := 120
  lines := []
  packageName := "ui"
  package := 1
  decls := [.imports 12 false [{ name := importName, literal := Text.quote runtimePath }],
    .func { name := { name := "Panel" },
            params := [⟨[{ name := parameter }], .basic "bool", { name := "bool" }⟩],
            body := some [.ofCode "draw()"] }]

/-- The function of such a file, to be tracked. -/
def panelTarget (parameter : String) : Target where
  function := 0
  name := "ui.Panel"
  tag := []
  threshold := 1
  summary :=
    { name := "Panel", qualifiedName := "ui.Panel", visibility := "exported", returnType := "()",
      restartable := true, skippable := true,
      parameters := [⟨parameter, "bool", .stable, ""⟩] }

/-- A parameter hides the import, so the runtime is imported once more, under a new name. -/
theorem panel_bound_once :
    let f := panel none "recompose"
    let done := instrument f [panelTarget "recompose"] Symbols.runtime
    ((bindings f.imports).map (·.1)).Nodup ∧ 0 < done.stats.injected ∧
      BoundOnce done.file.imports "recompose1" runtimePath := by
  intro f done
  have facts : ((bindings f.imports).map (·.1)).Nodup ∧ 0 < done.stats.injected ∧
      (symbolsIn f [panelTarget "recompose"] Symbols.runtime).package = "recompose1" := by
    decide +kernel
  obtain ⟨distinct, used, own⟩ := facts
  obtain ⟨-, -, bound⟩ :=
    @instrument_boundOnce_iff f [panelTarget "recompose"] Symbols.runtime distinct (by decide)
  have same : instrument f [panelTarget "recompose"] Symbols.runtime = done := rfl
  rw [same, own] at bound
  have plain : ¬ SpelledOut f (symbolsIn f [panelTarget "recompose"] Symbols.runtime) :=
    fun spelled => absurd spelled.1 (by rw [own]; decide)
  exact ⟨distinct, used, (bound used).2 ⟨by decide, plain⟩⟩

/-- The import has its default name spelled out: another one is added, which binds the name again. -/
theorem panel_bound_twice :
    let f := panel (some "recompose") "open"
    let done := instrument f [panelTarget "open"] Symbols.runtime
    ((bindings f.imports).map (·.1)).Nodup ∧ 0 < done.stats.injected ∧
      (symbolsIn f [panelTarget "open"] Symbols.runtime).package = "recompose" ∧
      ¬ BoundOnce done.file.imports "recompose" runtimePath := by
  intro f done
  have facts : ((bindings f.imports).map (·.1)).Nodup ∧ 0 < done.stats.injected ∧
      (symbolsIn f [panelTarget "open"] Symbols.runtime).package = "recompose" ∧
      (bindings done.file.imports).map (·.1) = ["recompose", "recompose"] := by decide +kernel
  obtain ⟨distinct, used, own, twice⟩ := facts
  refine ⟨distinct, used, own, fun bound => ?_⟩
  have different := bound.distinct
  simp [twice] at different

end Demo

end ComposeStability.Instrument
