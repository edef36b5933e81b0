/-
# Proofs.Instrument.PackageScope -- new names of the runtime and the names of a package

The name of an import must not be declared at package level in any file of the
package (`packageNames`).  Instrumentation binds a new name in a file exactly if
something is injected there and no import of the runtime can be used
(`introduced_iff`), and then takes the first candidate that this file has no use
for.  The other files have no say in that, so the new name is declared at
package level exactly if another file declares this candidate
(`introduced_declared_iff`, `screen_introduced`).
-/
import ComposeStability.Instrument.Package
import ComposeStability.Proofs.Instrument.Imports

namespace ComposeStability.Instrument

set_option autoImplicit false

open Program (Package Packages)
open Source (File)

/-! ## New names -/

/-- A name that the imports of a file bind now and did not bind before. -/
def Introduced (before after : File) (name : String) : Prop :=
  name ∈ (bindings after.imports).map (·.1) ∧ name ∉ (bindings before.imports).map (·.1)

/-- Something is injected in a file, and no import of the runtime can be used for that. -/
def NeedsName (f : File) (targets : List Target) (s : Symbols) : Prop :=
  0 < (instrument f targets s).stats.injected ∧ s.path ≠ "" ∧
    ((symbolsIn f targets s).package, s.path) ∉ bindings f.imports

/-- A file gets a new name where it needs one: the first that the file does not use. -/
theorem introduced_iff {f : File} {targets : List Target} {s : Symbols} {name : String} :
    Introduced f (instrument f targets s).file name ↔
      NeedsName f targets s ∧ binds name = true ∧
        Text.FirstFree s.package (namesInUse f (targeted f targets)) name := by
  have own := package_cases f targets s
  rw [Text.firstFree_iff]
  constructor
  · rintro ⟨now, never⟩
    rcases instrument_imports f targets s with ⟨-, same⟩ | ⟨missing, added⟩
    · exact absurd (same ▸ now) never
    · rw [Provided, not_or, not_or] at missing
      obtain ⟨⟨bound, path⟩, member, rfl⟩ := List.mem_map.1 now
      have listed := (bindings_perm added).subset member
      obtain ⟨named, binding⟩ := mem_bindings.1 listed
      rw [namedPaths_runtimeImport] at named
      rcases List.mem_cons.1 named with same | old
      · obtain ⟨rfl, rfl⟩ := Prod.mk.inj same
        have free : ((symbolsIn f targets s).package, s.path) ∉ bindings f.imports := fun there =>
          never (List.mem_map.2 ⟨_, there, rfl⟩)
        exact ⟨⟨Nat.pos_of_ne_zero missing.1, missing.2.1, free⟩, binding, own.resolve_left free⟩
      · exact absurd (List.mem_map.2 ⟨_, mem_bindings.2 ⟨old, binding⟩, rfl⟩) never
  · rintro ⟨⟨used, known, free⟩, binding, fresh⟩
    have new : (symbolsIn f targets s).package = name := (own.resolve_left free).trans fresh.symm
    have never : name ∉ (bindings f.imports).map (·.1) := fresh ▸ freshName_not_bound _ _ _
    refine ⟨?_, never⟩
    rcases instrument_imports f targets s with ⟨provided, -⟩ | ⟨-, added⟩
    · rcases provided with unused | unknown | present
      · omega
      · exact absurd unknown known
      · have there := mem_of_hasImport (s := symbolsIn f targets s) known present
        rw [new] at there
        exact absurd (List.mem_map.2 ⟨_, mem_bindings.2 ⟨there, binding⟩, rfl⟩) never
    · have bound : (name, s.path) ∈
          bindings (runtimeImport (symbolsIn f targets s) :: f.imports) := by
        refine mem_bindings.2 ⟨?_, binding⟩
        rw [namedPaths_runtimeImport, new]
        exact List.mem_cons_self
      exact List.mem_map.2 ⟨_, (bindings_perm added).symm.subset bound, rfl⟩

/-! ## The files of a package -/

/-- The targets in the file with a given number. -/
def targetsIn (targets : List (Nat × Target)) (i : Nat) : List Target :=
  (targets.filter fun t => t.1 == i).map (·.2)

theorem instrumentFile_file (out : String) (s : Symbols) (w : Work) (f : File)
    (targets : List Target) :
    (instrumentFile out s w f targets).1 = (instrument f targets s).file := by
  unfold instrumentFile
  dsimp only
  split
  · rfl
  · split <;> rfl

theorem instrumentFiles_files (out : String) (s : Symbols) (targets : List (Nat × Target)) (w : Work)
    (files : List (File × Nat)) :
    (instrumentFiles out s targets w files).1 =
      files.map fun entry => (instrument entry.1 (targetsIn targets entry.2) s).file := by
  induction files generalizing w with
  | nil => rfl
  | cons entry rest ih =>
      obtain ⟨f, i⟩ := entry
      rw [instrumentFiles, List.map_cons]
      dsimp only
      split
      · next none =>
          rw [ih, targetsIn, List.isEmpty_iff.1 none]
          rfl
      · rw [ih, instrumentFile_file, targetsIn]

variable {ps : Packages} {loader : Loader} {convention : Convention} {out : String} {p : Package}
  {r : Session.Result} {w : Work}

/-- The targets of a package, each with the number of its file. -/
def packageTargets (p : Package) (r : Session.Result) : List (Nat × Target) :=
  r.entries.filterMap (targetOf? p.files)

/-- Each file of a package is instrumented on its own, if the package sees the runtime. -/
theorem instrumentPackage_file {i : Nat} {f g : File} (before : p.files[i]? = some f)
    (after : (instrumentPackage ps loader convention out p r w).1[i]? = some g) :
    g = match symbolsFor ps loader convention p with
      | .ok s => (instrument f (targetsIn (packageTargets p r) i) s).file
      | .error _ => f := by
  unfold instrumentPackage at after
  rw [← packageTargets] at after
  dsimp only at after
  split at after
  · next none =>
      obtain rfl : f = g := Option.some.inj (before.symm.trans after)
      rw [List.isEmpty_iff.1 none]
      cases symbolsFor ps loader convention p <;> rfl
  · split at after
    · next failed =>
        obtain rfl : f = g := Option.some.inj (before.symm.trans after)
        rw [failed]
    · next s resolved =>
        rw [instrumentFiles_files, List.getElem?_map, List.getElem?_zipIdx, before] at after
        rw [resolved]
        simpa using after.symm

/-- The names that a package declares at package level, in any of its files. -/
def packageNames (files : List File) : List String := files.flatMap fun f => declaredNames f.decls

/-- A name that is not declared in a file is declared in the package if it is in another file. -/
theorem mem_packageNames_iff {files : List File} {i : Nat} {f : File} {name : String}
    (here : files[i]? = some f) (absent : name ∉ declaredNames f.decls) :
    name ∈ packageNames files ↔
      ∃ j other, j ≠ i ∧ files[j]? = some other ∧ name ∈ declaredNames other.decls := by
  rw [packageNames, List.mem_flatMap]
  constructor
  · rintro ⟨other, member, declared⟩
    obtain ⟨j, there⟩ := List.mem_iff_getElem?.1 member
    refine ⟨j, other, ?_, there, declared⟩
    rintro rfl
    obtain rfl : f = other := Option.some.inj (here.symm.trans there)
    exact absent declared
  · rintro ⟨j, other, -, there, declared⟩
    exact ⟨other, List.mem_iff_getElem?.2 ⟨j, there⟩, declared⟩

/-- A new name in a file of a package is declared at package level exactly if another file of the
package declares it: the file gets the first candidate that it does not use itself. -/
theorem introduced_declared_iff {i : Nat} {f g : File} {name : String}
    (before : p.files[i]? = some f)
    (after : (instrumentPackage ps loader convention out p r w).1[i]? = some g) :
    Introduced f g name ∧ name ∈ packageNames p.files ↔
      ∃ s, symbolsFor ps loader convention p = .ok s ∧
        let targets := targetsIn (packageTargets p r) i
        NeedsName f targets s ∧ binds name = true ∧
        Text.FirstFree s.package (namesInUse f (targeted f targets)) name ∧
        ∃ j other, j ≠ i ∧ p.files[j]? = some other ∧ name ∈ declaredNames other.decls := by
  have unused {base : String} {targets : List Target}
      (first : Text.FirstFree base (namesInUse f (targeted f targets)) name) :
      name ∉ declaredNames f.decls := by
    obtain ⟨-, -, free, -⟩ := first
    exact fun declared => free (List.mem_append_left _ declared)
  have shape := instrumentPackage_file before after
  cases resolved : symbolsFor ps loader convention p with
  | error missing =>
      rw [resolved] at shape
      subst shape
      refine iff_of_false ?_ ?_
      · rintro ⟨⟨now, never⟩, -⟩
        exact never now
      · rintro ⟨s, found, -⟩
        cases found
  | ok s =>
      rw [resolved] at shape
      subst shape
      rw [introduced_iff]
      constructor
      · rintro ⟨⟨needs, binding, first⟩, declared⟩
        exact ⟨s, rfl, needs, binding, first,
          (mem_packageNames_iff before (unused first)).1 declared⟩
      · rintro ⟨s', same, needs, binding, first, elsewhere⟩
        obtain rfl := Except.ok.inj same
        exact ⟨⟨needs, binding, first⟩,
          (mem_packageNames_iff before (unused first)).2 elsewhere⟩

namespace Demo

/-- The runtime, as far as it is needed. -/
def runtimePackage : Package where
  path := runtimePath
  name := "recompose"
  types := [⟨"Tracker", .defined [] (.struct [])
    [⟨"TrackParameter", true, ⟨[⟨"name", .basic "string"⟩, ⟨"typ", .basic "string"⟩,
        ⟨"value", .basic "string"⟩, ⟨"stable", .basic "bool"⟩], [], false⟩⟩,
      ⟨"LogIfThresholdMet", true, ⟨[], [], false⟩⟩]⟩]
  funcs := [⟨"Acquire", ⟨[⟨"name", .basic "string"⟩, ⟨"tag", .basic "string"⟩,
    ⟨"threshold", .basic "int"⟩], [⟨"", .pointer (.named runtimePath "Tracker" [])⟩], false⟩⟩]

/-- A traced function. -/
def screen : Source.FuncDecl where
  keyword := 57
  name := { pos := 62, name := "Screen" }
  params := [⟨[{ pos := 69, name := "n" }], .basic "int", { pos := 71, name := "int" }⟩]
  body := some [.ofCode "println(n)"]
  openBrace := 76
  closeBrace := 90

/-- A file with the traced function, behind a variable. -/
def screenFile (own : String) : File where
  name := "screen.go"
  base := 1
  size := 94
  lines := [0, 11, 12, 37, 57, 80, 92]
  packageName := "ui"
  package := 1
  decls := [.values [own], .func screen]

/-- A file with another function. -/
def paletteFile (other : String) : File where
  name := "palette.go"
  base := 101
  size := 33
  lines := [0, 11, 12]
  packageName := "ui"
  package := 101
  decls := [.func { name := { name := other }, body := some [] }]

/-- A package with both files. -/
def ui (own other : String) : Package where
  path := "example.com/ui"
  name := "ui"
  files := [screenFile own, paletteFile other]
  sources := ["/src/example.com/ui/screen.go"]

/-- The traced function as it was analyzed. -/
def screenResult : Session.Result where
  path := "example.com/ui"
  entries := [{
    summary :=
      { name := "Screen", qualifiedName := "example.com/ui.Screen", visibility := "exported"
        returnType := "()", restartable := true, skippable := true
        parameters := [⟨"n", "int", .stable, ""⟩] }
    directives := { composable := true, trace := some {} }
    decl := some screen }]

/-- The build of the package sees the runtime. -/
def uiLoader : Loader := ⟨fun _ => .ok runtimePackage⟩

/-- The files of the package after instrumentation. -/
def uiAfter (own other : String) : List File :=
  (instrumentPackage [runtimePackage] uiLoader .methodValue "/out" (ui own other)
    screenResult { files := {} }).1

theorem ui_symbols (own other : String) :
    symbolsFor [runtimePackage] uiLoader .methodValue (ui own other) = .ok Symbols.runtime := by
  obtain ⟨decl, declared⟩ : ∃ decl, runtimePackage.lookup "Tracker" = some (.type decl) := ⟨_, rfl⟩
  have acquire : isAcquire [runtimePackage] (.pointer (.named runtimePath "Tracker" []))
      (runtimePackage.lookup "Acquire") = true := by decide +kernel
  have track : hasMethod [runtimePackage] (.pointer (.named runtimePath "Tracker" []))
      "TrackParameter" 4 = true := by decide +kernel
  have flush : hasMethod [runtimePackage] (.pointer (.named runtimePath "Tracker" []))
      "LogIfThresholdMet" 0 = true := by decide +kernel
  have path : runtimePackage.path = runtimePath := rfl
  show resolve [runtimePackage] (some runtimePackage) .methodValue = _
  simp only [resolve, declared, path, acquire, track, flush]
  rfl

/-- The file with the traced function declares the name of the runtime, and the other file the next
candidate: this one is taken for the runtime. -/
theorem screen_second_name : ∃ g, (uiAfter "recompose" "recompose1")[0]? = some g ∧
    Introduced (screenFile "recompose") g "recompose1" ∧
    "recompose1" ∈ packageNames (ui "recompose" "recompose1").files := by
  obtain ⟨g, after⟩ : ∃ g, (uiAfter "recompose" "recompose1")[0]? = some g := by
    rw [← Option.isSome_iff_exists]
    decide +kernel
  have before : (ui "recompose" "recompose1").files[0]? = some (screenFile "recompose") := rfl
  have first : Text.FirstFree "recompose" (namesInUse (screenFile "recompose") (targeted
      (screenFile "recompose") (targetsIn (packageTargets (ui "recompose" "recompose1")
        screenResult) 0))) "recompose1" := by
    rw [Text.firstFree_iff]
    decide +kernel
  have needs : NeedsName (screenFile "recompose") (targetsIn (packageTargets
      (ui "recompose" "recompose1") screenResult) 0) Symbols.runtime :=
    ⟨by decide +kernel, by decide, by decide +kernel⟩
  exact ⟨g, after, (introduced_declared_iff before after).2
    ⟨Symbols.runtime, ui_symbols _ _, needs, by decide, first, 1, paletteFile "recompose1",
      by decide, rfl, by decide⟩⟩

/-- Only the other file declares the name of the runtime, which is then bound in the file with the
traced function. -/
theorem screen_introduced : ∃ g, (uiAfter "shown" "recompose")[0]? = some g ∧
    Introduced (screenFile "shown") g "recompose" ∧
    "recompose" ∈ packageNames (ui "shown" "recompose").files := by
  have names : (uiAfter "shown" "recompose").map (fun f => (bindings f.imports).map (·.1)) =
      [["recompose"], []] := by decide +kernel
  have first := congrArg (·[0]?) names
  rw [List.getElem?_map] at first
  obtain ⟨g, after, bound⟩ := Option.map_eq_some_iff.1 first
  refine ⟨g, after, ⟨?_, by decide +kernel⟩, by decide +kernel⟩
  rw [bound]
  exact List.mem_cons_self

end Demo

end ComposeStability.Instrument
