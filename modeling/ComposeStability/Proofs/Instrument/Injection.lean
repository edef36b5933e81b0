/-
# Proofs.Instrument.Injection -- what the injected statements do

A function gets tracking if nothing keeps it from that (`Unfit`), and is left
alone otherwise.  What the statements in front of its body do is said by running
them (`World.run`): a call names its function through a package or a value, and
its arguments are read from the way they are written, so a literal denotes what
its spelling says.  Where the names of the runtime stand for what they name
(`Resolves`), both ways to call a method come to the same call (`call?_method`),
and the statements acquire a tracker, report each parameter to it in order, and
flush it (`run_front`).
-/
import ComposeStability.Instrument.File
import ComposeStability.Proofs.Text.Fresh
import ComposeStability.Proofs.Text.ReadBack

namespace ComposeStability.Instrument

set_option autoImplicit false

open Source (Expr Statement FuncDecl File)

/-! ## Running calls -/

/-- What an expression denotes. -/
inductive Denoted (V : Type) where
  /-- A text, by its bytes. -/
  | text (content : List UInt8)
  | int (n : Nat)
  | truth (b : Bool)
  /-- Any other value of the running program. -/
  | other (v : V)

/-- What a name stands for. -/
inductive Meaning (V : Type) where
  | package (path : String)
  | value (v : Denoted V)

/-- The names that are declared at a place, with what they stand for. -/
abbrev Scope (V : Type) := String → Option (Meaning V)

/-- A scope with a variable added, which hides other uses of its name. -/
def Scope.declare {V : Type} (scope : Scope V) (name : String) (v : Denoted V) : Scope V :=
  fun other => if other = name then some (.value v) else scope other

/-- A call of a function of a package, or of a method of a value. -/
inductive Call (V : Type) where
  | function (path name : String) (args : List (Denoted V))
  | method (receiver : Denoted V) (name : String) (args : List (Denoted V))

/-- What the rest of a program contributes to running statements. -/
structure World (V : Type) where
  /-- What an expression denotes that is neither a name nor a literal. -/
  value? : Scope V → Expr → Option (Denoted V)
  /-- What a call gives, after the calls before. -/
  result : List (Call V) → Call V → Denoted V
  /-- Whether a value is a pointer to a type of a package. -/
  pointsTo : Denoted V → String → String → Bool

namespace World

variable {V : Type} (W : World V)

/-- What an expression denotes; literals are read from the way they are written. -/
def eval (scope : Scope V) : Expr → Option (Denoted V)
  | .ident name =>
      match scope name with
      | some (.value v) => some v
      | _ => none
  | .text s => (Text.unquoteBytes? (Expr.text s).source).map .text
  | .bytes content => (Text.unquoteBytes? (Expr.bytes content).source).map .text
  | .int n => (Text.decimal? (Expr.int n).source.toList).map .int
  | e => W.value? scope e

/-- The call that an expression makes.  A method is called on a value, or as a function of its type
with the value as first argument, which has to be of the type. -/
def call? (scope : Scope V) : Expr → Option (Call V)
  | .call (.select (.ident x) name) args => do
      let args ← args.mapM (W.eval scope)
      match scope x with
      | some (.package path) => some (.function path name args)
      | some (.value receiver) => some (.method receiver name args)
      | none => none
  | .call (.select (.paren (.deref (.select (.ident x) type))) name) (self :: args) => do
      let receiver ← W.eval scope self
      let args ← args.mapM (W.eval scope)
      match scope x with
      | some (.package path) =>
          if W.pointsTo receiver path type then some (.method receiver name args) else none
      | _ => none
  | _ => none

/-- Runs a statement, given the scope and the calls so far. -/
def step (state : Scope V × List (Call V)) : Statement → Option (Scope V × List (Call V))
  | .eval e => (W.call? state.1 e).map fun call => (state.1, state.2 ++ [call])
  | .define name e => (W.call? state.1 e).map fun call =>
      (state.1.declare name (W.result state.2 call), state.2 ++ [call])

/-- Runs statements one after the other. -/
def run (state : Scope V × List (Call V)) (statements : List Statement) :
    Option (Scope V × List (Call V)) :=
  statements.foldlM W.step state

end World

/-! ## The calls that are meant -/

section Calls

variable {V : Type}

/-- The call that acquires the tracker of a function. -/
def acquireCall (s : Symbols) (name : String) (tag : List UInt8) (threshold : Int) : Call V :=
  .function s.path s.acquire [.text (Text.toBytes name), .text tag, .int threshold.toNat]

/-- The call that reports a parameter with its value. -/
def trackCall (s : Symbols) (tracker : Denoted V) (p : Param) (value : Denoted V) : Call V :=
  .method tracker s.track
    [.text (Text.toBytes p.name), .text (Text.toBytes p.type), value,
      .truth (p.stability == .stable)]

/-- The call that flushes the tracker. -/
def flushCall (s : Symbols) (tracker : Denoted V) : Call V := .method tracker s.flush []

/-- The names that injected statements refer to stand for what they name: the package for the
runtime, also behind the variable of the tracker where the type of the tracker is named, the
truth values for themselves, and the type for that of the trackers acquired. -/
structure Resolves (W : World V) (scope : Scope V) (s : Symbols) (holder : String) : Prop where
  package : scope s.package = some (.package s.path)
  yes : scope "true" = some (.value (.truth true))
  no : scope "false" = some (.value (.truth false))
  unhidden : s.convention = .methodExpression → holder ≠ s.package
  typed : s.convention = .methodExpression → ∀ calls args,
    W.pointsTo (W.result calls (.function s.path s.acquire args)) s.path s.tracker = true

/-- The values of parameters in a scope, if all have one. -/
def valuesOf (W : World V) (scope : Scope V) (params : List Param) : Option (List (Denoted V)) :=
  params.mapM fun p => p.value.bind (W.eval scope)

/-- The statements in front of the body, with those for the parameters. -/
def frontStatements (s : Symbols) (holder name : String) (tag : List UInt8) (threshold : Int)
    (tracked : List Statement) : List Statement :=
  acquireStatement s holder name tag threshold :: tracked ++ [flushStatement s holder]

/-- What keeps a function from being tracked. -/
def Unfit (f : FuncDecl) (threshold : Int) (params : List Param) (s : Symbols) : Prop :=
  f.body = none ∨ s.isValid = false ∨ threshold < 1 ∨ ∃ p ∈ params, p.value = none

end Calls

/-- In the call of a method, each argument stands in its slot; a tracker takes the slot before. -/
theorem methodCall_argSlot (s : Symbols) (holder method : String) (args : List Expr) :
    ∃ called written, methodCall s holder method args = .call called written ∧
      (∀ i, written[s.convention.argSlot i]? = args[i]?) ∧
      written.take (s.convention.argSlot 0) =
        if s.convention = .methodExpression then [.ident holder] else [] := by
  by_cases called : s.convention = .methodExpression
  · refine ⟨_, _, if_pos called, fun i => ?_, ?_⟩
    · rw [Convention.argSlot, if_pos called, List.getElem?_cons_succ]
    · simp [Convention.argSlot, called]
  · refine ⟨_, _, if_neg called, fun i => ?_, ?_⟩
    · rw [Convention.argSlot, if_neg called]
    · simp [Convention.argSlot, called]

/-! ## Arguments -/

section Running

variable {V : Type} {W : World V} {scope : Scope V} {s : Symbols} {holder : String}

theorem Scope.declare_self (scope : Scope V) (name : String) (v : Denoted V) :
    scope.declare name v name = some (.value v) := if_pos rfl

theorem Scope.declare_other {name other : String} (differ : other ≠ name) (v : Denoted V) :
    scope.declare name v other = scope other := if_neg differ

@[simp] theorem eval_text (content : String) :
    W.eval scope (.text content) = some (.text (Text.toBytes content)) := by
  rw [World.eval, Expr.source, Text.unquoteBytes?_quote, Option.map_some]

@[simp] theorem eval_bytes (content : List UInt8) :
    W.eval scope (.bytes content) = some (.text content) := by
  rw [World.eval, Expr.source, Text.unquoteBytes?_quoteBytes, Option.map_some]

theorem eval_int {n : Int} (positive : 1 ≤ n) : W.eval scope (.int n) = some (.int n.toNat) := by
  obtain ⟨k, rfl⟩ := Int.eq_ofNat_of_zero_le (by omega : 0 ≤ n)
  have digits : (toString (k : Int)).toList = Nat.toDigits 10 k := by
    show (Int.repr (Int.ofNat k)).toList = _
    simp [Int.repr]
  rw [World.eval, Expr.source, digits, Text.decimal?_toDigits (by omega), Option.map_some]
  rfl

/-- In the scope behind its definition, a variable holds the tracker. -/
structure Tracking (W : World V) (scope : Scope V) (s : Symbols) (holder : String)
    (tracker : Denoted V) : Prop where
  held : scope holder = some (.value tracker)
  yes : scope "true" = some (.value (.truth true))
  no : scope "false" = some (.value (.truth false))
  package : s.convention = .methodExpression → scope s.package = some (.package s.path)
  typed : s.convention = .methodExpression → W.pointsTo tracker s.path s.tracker = true

theorem freshName_ne {taken : List String} {word : String} (other : word.toList.head? ≠ some '_') :
    Text.freshName trackerVariable taken ≠ word := by
  rintro rfl
  obtain ⟨digits, written⟩ := Text.freshName_toList trackerVariable taken
  rw [written] at other
  exact other rfl

theorem Resolves.tracking {taken : List String}
    (resolves : Resolves W scope s (Text.freshName trackerVariable taken)) (calls : List (Call V))
    (args : List (Denoted V)) :
    let tracker := W.result calls (.function s.path s.acquire args)
    Tracking W (scope.declare (Text.freshName trackerVariable taken) tracker) s
      (Text.freshName trackerVariable taken) tracker where
  held := Scope.declare_self _ _ _
  yes := (Scope.declare_other (freshName_ne (by decide)).symm _).trans resolves.yes
  no := (Scope.declare_other (freshName_ne (by decide)).symm _).trans resolves.no
  package called := (Scope.declare_other (resolves.unhidden called).symm _).trans resolves.package
  typed called := resolves.typed called calls args

variable {tracker : Denoted V}

theorem eval_truth (tracking : Tracking W scope s holder tracker) (b : Bool) :
    W.eval scope (.ident (Text.truthText b)) = some (.truth b) := by
  cases b with
  | true => simp only [World.eval, Text.truthText, if_true, tracking.yes]
  | false => simp [World.eval, Text.truthText, tracking.no]

/-! ## Statements -/

/-- Both ways to write the call of a method come to the same call. -/
theorem call?_method (tracking : Tracking W scope s holder tracker) (method : String)
    (args : List Expr) :
    W.call? scope (methodCall s holder method args) =
      (args.mapM (W.eval scope)).map (.method tracker method) := by
  by_cases called : s.convention = .methodExpression
  · have self : W.eval scope (.ident holder) = some tracker := by
      simp only [World.eval, tracking.held]
    rw [methodCall, if_pos called]
    simp only [World.call?, self, tracking.package called, Option.bind_eq_bind, Option.bind_some,
      tracking.typed called, if_true]
    cases args.mapM (W.eval scope) <;> rfl
  · rw [methodCall, if_neg called]
    simp only [World.call?, tracking.held]
    cases args.mapM (W.eval scope) <;> rfl

theorem step_track (tracking : Tracking W scope s holder tracker) (p : Param) (value : Expr)
    (calls : List (Call V)) :
    W.step (scope, calls) (trackStatement s holder p value) =
      (W.eval scope value).map fun v => (scope, calls ++ [trackCall s tracker p v]) := by
  rw [trackStatement, World.step, call?_method tracking]
  simp only [List.mapM_cons, List.mapM_nil, eval_text, eval_truth tracking]
  cases W.eval scope value <;> rfl

theorem step_flush (tracking : Tracking W scope s holder tracker) (calls : List (Call V)) :
    W.step (scope, calls) (flushStatement s holder) =
      some (scope, calls ++ [flushCall s tracker]) := by
  rw [flushStatement, World.step, call?_method tracking]
  rfl

theorem step_acquire (found : scope s.package = some (.package s.path)) (name : String)
    (tag : List UInt8) {threshold : Int} (positive : 1 ≤ threshold) (calls : List (Call V)) :
    W.step (scope, calls) (acquireStatement s holder name tag threshold) =
      some (scope.declare holder (W.result calls (acquireCall s name tag threshold)),
        calls ++ [acquireCall s name tag threshold]) := by
  rw [acquireStatement, World.step]
  simp only [World.call?, List.mapM_cons, List.mapM_nil, eval_text, eval_bytes, eval_int positive,
    found]
  rfl

theorem run_cons (state : Scope V × List (Call V)) (first : Statement) (rest : List Statement) :
    W.run state (first :: rest) = (W.step state first).bind fun next => W.run next rest := rfl

theorem run_append (state : Scope V × List (Call V)) (first rest : List Statement) :
    W.run state (first ++ rest) = (W.run state first).bind fun next => W.run next rest := by
  rw [World.run, List.foldlM_append]
  rfl

theorem trackStatements_cons (p : Param) (params : List Param) :
    trackStatements s holder (p :: params) = p.value.bind fun value =>
      (trackStatements s holder params).map (trackStatement s holder p value :: ·) := by
  simp only [trackStatements, List.mapM_cons, Option.pure_def, Option.bind_eq_bind]
  cases p.value with
  | none => rfl
  | some value =>
      cases params.mapM fun p : Param => p.value.map (trackStatement s holder p) <;> rfl

theorem exists_of_trackStatements_cons {p : Param} {params : List Param}
    {statements : List Statement}
    (made : trackStatements s holder (p :: params) = some statements) :
    ∃ value rest, p.value = some value ∧ trackStatements s holder params = some rest ∧
      statements = trackStatement s holder p value :: rest := by
  rw [trackStatements_cons, Option.bind_eq_some_iff] at made
  obtain ⟨value, given, made⟩ := made
  obtain ⟨rest, later, rfl⟩ := Option.map_eq_some_iff.1 made
  exact ⟨value, rest, given, later, rfl⟩

theorem valuesOf_cons (p : Param) (params : List Param) :
    valuesOf W scope (p :: params) = (p.value.bind (W.eval scope)).bind fun v =>
      (valuesOf W scope params).map (v :: ·) := by
  simp only [valuesOf, List.mapM_cons, Option.pure_def, Option.bind_eq_bind]
  cases p.value.bind (W.eval scope) with
  | none => rfl
  | some value =>
      cases params.mapM fun p : Param => p.value.bind (W.eval scope) <;> rfl

/-- The statements for parameters report each of them, in order. -/
theorem run_track (tracking : Tracking W scope s holder tracker) {params : List Param}
    {statements : List Statement} (made : trackStatements s holder params = some statements)
    (calls : List (Call V)) :
    W.run (scope, calls) statements =
      (valuesOf W scope params).map fun values =>
        (scope, calls ++ List.zipWith (trackCall s tracker) params values) := by
  induction params generalizing statements calls with
  | nil =>
      obtain rfl : [] = statements := Option.some.inj made
      simp [World.run, valuesOf]
  | cons p params ih =>
      obtain ⟨value, rest, given, later, rfl⟩ := exists_of_trackStatements_cons made
      rw [run_cons, step_track tracking, valuesOf_cons, given, Option.bind_some]
      cases W.eval scope value with
      | none => rfl
      | some v =>
          rw [Option.map_some, Option.bind_some, ih later, Option.bind_some, Option.map_map]
          refine congrArg (Option.map · (valuesOf W scope params)) (funext fun values => ?_)
          simp

/-- The statements in front acquire the tracker, report each parameter to it, and flush it. -/
theorem run_front {taken : List String}
    (resolves : Resolves W scope s (Text.freshName trackerVariable taken)) (name : String)
    (tag : List UInt8) {threshold : Int} (positive : 1 ≤ threshold) {params : List Param}
    {tracked : List Statement}
    (made : trackStatements s (Text.freshName trackerVariable taken) params = some tracked)
    (calls : List (Call V)) :
    let tracker := W.result calls (acquireCall s name tag threshold)
    let inner := scope.declare (Text.freshName trackerVariable taken) tracker
    W.run (scope, calls)
        (frontStatements s (Text.freshName trackerVariable taken) name tag threshold tracked) =
      (valuesOf W inner params).map fun values =>
        (inner, calls ++ acquireCall s name tag threshold ::
          List.zipWith (trackCall s tracker) params values ++ [flushCall s tracker]) := by
  intro tracker inner
  have tracking : Tracking W inner s (Text.freshName trackerVariable taken) tracker :=
    resolves.tracking calls _
  rw [frontStatements, List.cons_append, run_cons, step_acquire resolves.package name tag positive,
    Option.bind_some, run_append, run_track tracking made]
  cases valuesOf W inner params with
  | none => rfl
  | some values =>
      simp only [Option.map_some, Option.bind_some, run_cons, step_flush tracking]
      simp [World.run]

end Running

/-! ## All or nothing -/

theorem trackStatements_eq_none_iff {s : Symbols} {holder : String} {params : List Param} :
    trackStatements s holder params = none ↔ ∃ p ∈ params, p.value = none := by
  induction params with
  | nil => simp [trackStatements]
  | cons p params ih =>
      rw [trackStatements_cons, List.exists_mem_cons_iff, ← ih]
      cases p.value <;> simp

theorem length_trackStatements {s : Symbols} {holder : String} {params : List Param}
    {statements : List Statement} (made : trackStatements s holder params = some statements) :
    statements.length = params.length := by
  induction params generalizing statements with
  | nil =>
      obtain rfl : [] = statements := Option.some.inj made
      rfl
  | cons p params ih =>
      obtain ⟨value, rest, -, later, rfl⟩ := exists_of_trackStatements_cons made
      rw [List.length_cons, List.length_cons, ih later]

theorem length_frontStatements {s : Symbols} {holder : String} {params : List Param}
    {tracked : List Statement} (made : trackStatements s holder params = some tracked)
    (name : String) (tag : List UInt8) (threshold : Int) :
    (frontStatements s holder name tag threshold tracked).length = params.length + 2 := by
  simp [frontStatements, length_trackStatements made]

/-- A function is left alone exactly if it is unfit. -/
theorem inject_eq_none_iff {f : FuncDecl} (name : String) (tag : List UInt8) {threshold : Int}
    {params : List Param} {s : Symbols} :
    inject f name tag threshold params s = none ↔ Unfit f threshold params s := by
  rw [inject, Unfit]
  cases f.body with
  | none => simp
  | some body =>
      simp only [reduceCtorEq, false_or, Bool.or_eq_true, Bool.not_eq_true', decide_eq_true_eq]
      split
      · next faulty => exact iff_of_true rfl (by tauto)
      · next sound =>
          rw [Option.map_eq_none_iff, trackStatements_eq_none_iff]
          tauto

/-- What a function becomes. -/
theorem inject_eq_some {f g : FuncDecl} {name : String} {tag : List UInt8} {threshold : Int}
    {params : List Param} {s : Symbols} (made : inject f name tag threshold params s = some g) :
    let holder := Text.freshName trackerVariable f.idents
    ∃ body tracked, f.body = some body ∧ 1 ≤ threshold ∧
      trackStatements s holder params = some tracked ∧
      g = { f with
        body := some (frontStatements s holder name tag threshold tracked ++ body) } := by
  rw [inject] at made
  cases written : f.body with
  | none => simp [written] at made
  | some body =>
      simp only [written, Bool.or_eq_true, decide_eq_true_eq] at made
      split at made
      · cases made
      · next sound =>
          obtain ⟨tracked, found, rfl⟩ := Option.map_eq_some_iff.1 made
          rw [not_or] at sound
          refine ⟨body, tracked, rfl, by omega, found, ?_⟩
          simp [frontStatements]

/-- What is unfit stays as it is, in its file as well.  Any other function gets statements in front
of its body: two and one for each parameter, which acquire a tracker, report the parameters to it
in order, with the given texts, and flush it. -/
theorem inject_faithful (f : FuncDecl) (name : String) (tag : List UInt8) (threshold : Int)
    (params : List Param) (s : Symbols) :
    (Unfit f threshold params s →
      inject f name tag threshold params s = none ∧
      ∀ (file : File) (stats : Stats) (t : Target), file.allFunctions[t.function]? = some f →
        t.name = name → t.tag = tag → t.threshold = threshold → paramsOf f t.summary = params →
        (instrumentTarget s (file, stats) t).1 = file) ∧
    (¬ Unfit f threshold params s → ∃ front body, f.body = some body ∧
      inject f name tag threshold params s = some { f with body := some (front ++ body) } ∧
      front.length = params.length + 2 ∧
      let holder := Text.freshName trackerVariable f.idents
      holder ∉ f.idents ∧
      ∀ (V : Type) (W : World V) (scope : Scope V) (calls : List (Call V)),
        Resolves W scope s holder →
        let tracker := W.result calls (acquireCall s name tag threshold)
        let inner := scope.declare holder tracker
        W.run (scope, calls) front = (valuesOf W inner params).map fun values =>
          (inner, calls ++ acquireCall s name tag threshold ::
            List.zipWith (trackCall s tracker) params values ++ [flushCall s tracker])) := by
  refine ⟨fun unfit => ?_, fun fit => ?_⟩
  · have skipped := (inject_eq_none_iff name tag).2 unfit
    refine ⟨skipped, ?_⟩
    rintro file stats t found rfl rfl rfl rfl
    simp only [instrumentTarget, found, skipped]
  · obtain ⟨g, made⟩ := Option.ne_none_iff_exists'.1
      ((inject_eq_none_iff name tag).not.2 fit)
    obtain ⟨body, tracked, written, positive, found, rfl⟩ := inject_eq_some made
    exact ⟨_, body, written, made, length_frontStatements found name tag threshold,
      Text.freshName_not_mem _ _,
      fun V W scope calls resolves => run_front resolves name tag positive found calls⟩

/-- A function with one parameter. -/
def header : FuncDecl where
  name := { name := "Header" }
  params := [⟨[{ name := "title" }], .basic "string", { name := "string" }⟩]
  body := some [.ofCode "draw(title)"]

/-- The parameter of `header`, as its own value. -/
def headerTitle : Param := ⟨"title", "string", some (.ident "title"), .stable⟩

/-- Trackers are numbered by the calls before; nothing else is known. -/
def numbering : World Nat where
  value? _ _ := none
  result calls _ := .other calls.length
  pointsTo v path type :=
    path == runtimePath && type == "Tracker" && match v with
      | .other _ => true
      | _ => false

/-- What stands in scope in `header`, called with a title. -/
def headerScope : Scope Nat := fun name =>
  if name = "recompose" then some (.package runtimePath)
  else if name = "true" then some (.value (.truth true))
  else if name = "false" then some (.value (.truth false))
  else if name = "title" then some (.value (.text [0x5a, 0xc3, 0xab]))
  else none

/-- With methods called as functions of the type, the title is reported to the tracker. -/
theorem header_injected :
    let s := { Symbols.runtime with convention := .methodExpression }
    ∃ front body, inject header "ui.Header" [0xff] 3 [headerTitle] s =
        some { header with body := some (front ++ body) } ∧
      (numbering.run (headerScope, []) front).map (·.2) =
        some [.function runtimePath "Acquire"
            [.text (Text.toBytes "ui.Header"), .text [0xff], .int 3],
          .method (.other 0) "TrackParameter"
            [.text (Text.toBytes "title"), .text (Text.toBytes "string"),
              .text [0x5a, 0xc3, 0xab], .truth true],
          .method (.other 0) "LogIfThresholdMet" []] := by
  intro s
  have fit : ¬ Unfit header 3 [headerTitle] s := by
    simp [Unfit, header, headerTitle, s, Symbols.isValid, Symbols.runtime]
  obtain ⟨front, body, -, made, -, -, runs⟩ :=
    (inject_faithful header "ui.Header" [0xff] 3 [headerTitle] s).2 fit
  have resolves : Resolves numbering headerScope s
      (Text.freshName trackerVariable header.idents) :=
    ⟨rfl, rfl, rfl, fun _ => freshName_ne (by decide), fun _ _ _ => rfl⟩
  have title : "title" ≠ Text.freshName trackerVariable header.idents :=
    (freshName_ne (by decide)).symm
  have values (tracker : Denoted Nat) : valuesOf numbering
      (headerScope.declare (Text.freshName trackerVariable header.idents) tracker) [headerTitle] =
        some [.text [0x5a, 0xc3, 0xab]] := by
    simp [valuesOf, headerTitle, World.eval, Scope.declare, title, headerScope]
  refine ⟨front, body, made, ?_⟩
  rw [runs Nat numbering headerScope [] resolves, values]
  rfl

end ComposeStability.Instrument
