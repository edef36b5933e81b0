/-
# Instrument.Function -- tracking the calls of a function

The body of a traced function gets statements in front: one acquires the
tracker of the function, one for each parameter reports its value, and one
flushes the tracker.  What was there before follows unchanged.  A function that
can't be instrumented is left as it is.
-/
import ComposeStability.Instrument.Symbols
import ComposeStability.Source.File
import ComposeStability.Stability.Summary
import ComposeStability.Text.Fresh

namespace ComposeStability.Instrument

set_option autoImplicit false

open Source (Expr Statement FuncDecl)

/-- A parameter that is reported to the tracker. -/
structure Param where
  name : String
  type : String
  /-- The expression for its value. -/
  value : Option Expr
  stability : Stability.Value

/-- The name of the variable that holds the tracker, if it is not taken. -/
def trackerVariable : String := "_recomposeTracker"

/-- A call of a method of the tracker. -/
def methodCall (s : Symbols) (tracker method : String) (args : List Expr) : Expr :=
  if s.convention = .methodExpression then
    .call (.select (.paren (.deref (.select (.ident s.package) s.tracker))) method)
      (.ident tracker :: args)
  else .call (.select (.ident tracker) method) args

/-- The statement that acquires the tracker. -/
def acquireStatement (s : Symbols) (tracker name : String) (tag : List UInt8) (threshold : Int) :
    Statement :=
  .define tracker (.call (.select (.ident s.package) s.acquire)
    [.text name, .bytes tag, .int threshold])

/-- The statement that reports a parameter with a given value. -/
def trackStatement (s : Symbols) (tracker : String) (p : Param) (value : Expr) : Statement :=
  .eval (methodCall s tracker s.track
    [.text p.name, .text p.type, value, .ident (Text.truthText (p.stability == .stable))])

/-- The statement that flushes the tracker. -/
def flushStatement (s : Symbols) (tracker : String) : Statement :=
  .eval (methodCall s tracker s.flush [])

/-- The statements that report parameters; each needs a value. -/
def trackStatements (s : Symbols) (tracker : String) (params : List Param) :
    Option (List Statement) :=
  params.mapM fun p => p.value.map (trackStatement s tracker p)

/-- A function with tracking in front of its body, if that is possible. -/
def inject (f : FuncDecl) (name : String) (tag : List UInt8) (threshold : Int) (params : List Param)
    (s : Symbols) : Option FuncDecl :=
  match f.body with
  | none => none
  | some body =>
      if !s.isValid || threshold < 1 then none
      else
        let tracker := Text.freshName trackerVariable f.idents
        (trackStatements s tracker params).map fun tracked =>
          { f with
            body := some (acquireStatement s tracker name tag threshold ::
              tracked ++ flushStatement s tracker :: body) }

/-- The names of parameters in order; unnamed ones have none. -/
def parameterNames (f : FuncDecl) : List (Option String) :=
  f.params.flatMap fun g =>
    if g.names.isEmpty then [none] else g.names.map fun id => some id.name

/-- The parameters of a function that can be referred to, described by its
summary. -/
def paramsOf (f : FuncDecl) (s : Stability.Summary) : List Param :=
  ((parameterNames f).zip s.parameters).filterMap fun (name, p) =>
    match name with
    | none => none
    | some name =>
        if name == "_" then none else some ⟨name, p.type, some (.ident name), p.stability⟩

end ComposeStability.Instrument
