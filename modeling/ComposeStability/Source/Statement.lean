/-
# Source.Statement -- the statements of function bodies

Statements as far as instrumentation writes them: calls, and the definition of
a variable by a call.  Statements that were there before are kept as they are
written.
-/
import ComposeStability.Text.Quoted

namespace ComposeStability.Source

set_option autoImplicit false

inductive Expr where
  /-- An identifier, or any expression that counts as one. -/
  | ident (name : String)
  /-- An expression taken as it is written, with the identifiers in it. -/
  | written (code : String) (names : List String)
  | text (s : String)
  /-- A text given by its bytes, which need not be well formed. -/
  | bytes (content : List UInt8)
  | int (n : Int)
  | select (x : Expr) (name : String)
  | call (fn : Expr) (args : List Expr)
  | deref (x : Expr)
  | paren (x : Expr)

inductive Statement where
  | eval (e : Expr)
  | define (name : String) (value : Expr)

namespace Expr

mutual

/-- An expression as it is written. -/
def source : Expr → String
  | .ident name => name
  | .written code _ => code
  | .text s => Text.quote s
  | .bytes content => Text.quoteBytes content
  | .int n => toString n
  | .select x name => x.source ++ "." ++ name
  | .call fn args => fn.source ++ "(" ++ ", ".intercalate (sources args) ++ ")"
  | .deref x => "*" ++ x.source
  | .paren x => "(" ++ x.source ++ ")"

def sources : List Expr → List String
  | [] => []
  | e :: rest => e.source :: sources rest

end

mutual

/-- The identifiers in an expression. -/
def idents : Expr → List String
  | .ident name => [name]
  | .written _ names => names
  | .text _ | .bytes _ => []
  | .int _ => []
  | .select x name => x.idents ++ [name]
  | .call fn args => fn.idents ++ identsOfAll args
  | .deref x => x.idents
  | .paren x => x.idents

def identsOfAll : List Expr → List String
  | [] => []
  | e :: rest => e.idents ++ identsOfAll rest

end

end Expr

/-! ## Identifiers in code -/

/-- Whether a character may belong to an identifier. -/
def isNameChar (c : Char) : Bool := c == '_' || c.isAlphanum || c.toNat ≥ 0x80

/-- Skips the rest of a literal up to its closing quote. -/
def skipLiteral (quote : Char) : List Char → List Char
  | [] => []
  | '\\' :: c :: rest =>
      if quote == '\x60' then skipLiteral quote (c :: rest) else skipLiteral quote rest
  | c :: rest => if c == quote then rest else skipLiteral quote rest

/-- The identifiers in code, apart from literals.  Each step reads a character at least. -/
def namesFrom : Nat → List Char → List String
  | 0, _ => []
  | _, [] => []
  | fuel + 1, c :: rest =>
      if c == '"' || c == '\x27' || c == '\x60' then namesFrom fuel (skipLiteral c rest)
      else if isNameChar c then
        let (name, rest) := (c :: rest).span isNameChar
        (if c.isDigit then [] else [String.ofList name]) ++ namesFrom fuel rest
      else namesFrom fuel rest

@[inherit_doc namesFrom]
def namesIn (code : String) : List String := namesFrom code.length code.toList

namespace Statement

/-- A statement that counts as one identifier. -/
def verbatim (s : String) : Statement := .eval (.ident s)

/-- A statement taken as it is written. -/
def ofCode (code : String) : Statement := .eval (.written code (namesIn code))

/-- A statement as it is written, on one line. -/
def source : Statement → String
  | .eval e => e.source
  | .define name value => name ++ " := " ++ value.source

/-- The identifiers in a statement. -/
def idents : Statement → List String
  | .eval e => e.idents
  | .define name value => name :: value.idents

end Statement

end ComposeStability.Source
