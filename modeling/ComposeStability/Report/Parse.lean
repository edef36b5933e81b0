/-
# Report.Parse -- reading a stability report

Lines end at a newline, one carriage return before it is dropped, and no line
may be longer than the limit.  Lines that start with `//` are skipped anywhere.
An entry runs from its heading to a blank line, the next heading or the end; it
has to list the parameters of its signature, in order.
-/
import ComposeStability.Report.Write
import ComposeStability.Text.Cut
import ComposeStability.Text.Blank

namespace ComposeStability.Report

set_option autoImplicit false

open Stability (Summary Parameter Value)

/-! ## Causes -/

/-- What is wrong with a line. -/
inductive Problem where
  | headingExpected
  | signatureMissing
  | parametersMissing (function : String) (listed total : Nat)
  | functionExpected
  | malformedSignature
  | malformedParameter (element : String)
  | itemOutsideParams
  | propertyExpected
  | invalidBoolean (value : String)
  | unknownProperty (key : String)
  | itemExpected
  | invalidStability (name : Value.Unrecognized)
  | reasonNotParenthesized
  | parameterMismatch (name : String)
  | unexpectedLine
deriving DecidableEq, Repr

def Problem.message : Problem → String
  | .headingExpected => "expected " ++ heading
  | .signatureMissing => "missing signature"
  | .parametersMissing function listed total =>
      s!"{function}: {listed} of {total} parameters listed"
  | .functionExpected => "expected <visibility> func <name>(...)"
  | .malformedSignature => "malformed signature"
  | .malformedParameter element => "malformed parameter " ++ Text.quote element
  | .itemOutsideParams => "parameter outside of params section"
  | .propertyExpected => "expected <key>: <value>"
  | .invalidBoolean value => "invalid boolean " ++ Text.quote value
  | .unknownProperty key => "unknown property " ++ Text.quote key
  | .itemExpected => "expected <name>: <stability>"
  | .invalidStability name => name.message
  | .reasonNotParenthesized => "reason must be parenthesized"
  | .parameterMismatch name => "parameter " ++ Text.quote name ++ " does not match signature"
  | .unexpectedLine => "unexpected line"

/-- Why a report cannot be read. -/
inductive ReadError where
  /-- The line with this number is not part of a report. -/
  | malformed (line : Nat) (text : String) (problem : Problem)
  | lineTooLong
deriving DecidableEq, Repr

def ReadError.message : ReadError → String
  | .malformed line text problem =>
      "line " ++ toString line ++ ": " ++ problem.message ++ ": " ++ Text.quote text
  | .lineTooLong => "reading report: bufio.Scanner: token too long"

/-! ## Lines -/

/-- The greatest number of bytes in a line. -/
def lineLimit : Nat := 65535

/-- The number of bytes of a text. -/
def byteLength (cs : List Char) : Nat :=
  (String.ofList cs).utf8ByteSize

/-- The lines of a text, carriage returns included.  Nothing after the last
newline is no line. -/
def rawLines (text : List Char) : List (List Char) :=
  let pieces := Text.splitChar '\n' text
  if pieces.getLast? == some [] then pieces.dropLast else pieces

/-- A line without one carriage return at its end. -/
def withoutReturn (line : List Char) : List Char :=
  (['\x0d'].isSuffixOf? line).getD line

/-! ## Parts of lines -/

/-- The elements of a parameter list, divided by commas outside brackets. -/
def elementsFrom (depth : Int) (current : List Char) : List Char → List (List Char)
  | [] => [current.reverse]
  | c :: rest =>
      if c == '(' || c == '[' || c == '\x7b' then elementsFrom (depth + 1) (c :: current) rest
      else if c == ')' || c == ']' || c == '\x7d' then
        elementsFrom (depth - 1) (c :: current) rest
      else if c == ',' && depth ≤ 0 then current.reverse :: elementsFrom depth [] rest
      else elementsFrom depth (c :: current) rest

/-- The elements of a parameter list without surrounding blanks. -/
def elements (cs : List Char) : List (List Char) :=
  if cs.isEmpty then [] else (elementsFrom 0 [] cs).map Text.trimBlanks

/-- A name and a type divided by a colon. -/
def parameterOf (element : List Char) : Except Problem (String × String) :=
  match Text.cut ": ".toList element with
  | some (name, type) => .ok (String.ofList name, String.ofList type)
  | none => .error (.malformedParameter (String.ofList element))

/-- The part of a qualified name after its last dot. -/
def lastName (qualifiedName : String) : String :=
  match Text.cutLastString qualifiedName "." with
  | some (_, name) => name
  | none => qualifiedName

/-- An entry whose signature has been read. -/
structure Entry where
  visibility : String
  qualifiedName : String
  returnType : String
  skippable : Bool := false
  restartable : Bool := false
  /-- A line that opens the list of parameters has been read. -/
  listing : Bool := false
  /-- The parameters whose stability has been read. -/
  listed : List Parameter := []
  /-- The names and types of the parameters still to come. -/
  pending : List (String × String)
deriving DecidableEq, Repr

/-- The summary an entry stands for. -/
def Entry.summary (e : Entry) : Summary where
  name := lastName e.qualifiedName
  qualifiedName := e.qualifiedName
  visibility := e.visibility
  returnType := e.returnType
  restartable := e.restartable
  skippable := e.skippable
  parameters := e.listed

/-- Reads a signature: the visibility ends at the first ` func `, the name at
the first opening parenthesis, and the result starts after the last `): `. -/
def signatureOf (line : List Char) : Except Problem Entry :=
  match Text.cut " func ".toList line with
  | none => .error .functionExpected
  | some ([], _) => .error .functionExpected
  | some (visibility, rest) =>
      match Text.cut ['('] rest with
      | none => .error .malformedSignature
      | some ([], _) => .error .malformedSignature
      | some (name, inner) =>
          match Text.cutLast "): ".toList inner with
          | none => .error .malformedSignature
          | some (params, result) => do
              let pending ← (elements params).mapM parameterOf
              return { visibility := String.ofList visibility
                       qualifiedName := String.ofList name
                       returnType := String.ofList result
                       pending }

/-- Reads a property of an entry. -/
def propertyOf (e : Entry) (text : List Char) : Except Problem Entry :=
  if text = "params:".toList then .ok { e with listing := true }
  else match Text.cut ": ".toList text with
    | none => .error .propertyExpected
    | some (key, value) =>
        match Text.truth? (String.ofList value) with
        | none => .error (.invalidBoolean (String.ofList value))
        | some b =>
            if key = "skippable".toList then .ok { e with skippable := b }
            else if key = "restartable".toList then .ok { e with restartable := b }
            else .error (.unknownProperty (String.ofList key))

/-- The reason in a text: nothing, or something in parentheses. -/
def reasonOf (text : List Char) : Except Problem (List Char) :=
  match text with
  | [] => .ok []
  | '(' :: rest =>
      match [')'].isSuffixOf? rest with
      | some reason => .ok reason
      | none => .error .reasonNotParenthesized
  | _ => .error .reasonNotParenthesized

/-- Reads the stability of the next parameter. -/
def itemOf (e : Entry) (text : List Char) : Except Problem Entry :=
  match Text.cut ": ".toList text with
  | none => .error .itemExpected
  | some (name, rest) =>
      let (value, reason) := (Text.cut [' '] rest).getD (rest, [])
      match Value.parse (String.ofList value) with
      | .error unrecognized => .error (.invalidStability unrecognized)
      | .ok stability => do
          let reason ← reasonOf reason
          match e.pending with
          | [] => .error (.parameterMismatch (String.ofList name))
          | (expected, type) :: pending =>
              if expected = String.ofList name then
                return { e with
                  listed := e.listed ++ [⟨expected, type, stability, String.ofList reason⟩]
                  pending }
              else .error (.parameterMismatch (String.ofList name))

/-! ## Whole reports -/

/-- Where in a report reading has arrived. -/
inductive State where
  /-- Between entries. -/
  | outside
  /-- After a heading. -/
  | headed
  /-- After a signature. -/
  | within (e : Entry)
deriving DecidableEq, Repr

/-- Completes the entry that is being read, if there is one. -/
def finish : State → Except (String × Problem) (List Summary)
  | .outside => .ok []
  | .headed => .error ("", .signatureMissing)
  | .within e =>
      if e.pending.isEmpty then .ok [e.summary]
      else .error ("", .parametersMissing e.qualifiedName e.listed.length
        (e.listed.length + e.pending.length))

/-- Says which text a problem was found in. -/
def withText {α : Type} (text : List Char) (result : Except Problem α) :
    Except (String × Problem) α :=
  result.mapError fun problem => (String.ofList text, problem)

/-- Reads one line: the entries it completes, and where reading goes on. -/
def readLine (state : State) (line : List Char) :
    Except (String × Problem) (List Summary × State) :=
  if ['/', '/'].isPrefixOf line then .ok ([], state)
  else if (Text.trimBlanks line).isEmpty then (finish state).map (·, .outside)
  else if line = heading.toList then (finish state).map (·, .headed)
  else match state with
    | .outside => .error (String.ofList line, .headingExpected)
    | .headed => withText line ((signatureOf line).map fun e => ([], .within e))
    | .within e =>
        match Text.afterStart? itemIndent.toList line with
        | some item =>
            if e.listing then withText item ((itemOf e item).map fun e => ([], .within e))
            else .error (String.ofList line, .itemOutsideParams)
        | none =>
            match Text.afterStart? propertyIndent.toList line with
            | some property =>
                withText property ((propertyOf e property).map fun e => ([], .within e))
            | none => .error (String.ofList line, .unexpectedLine)

/-- Says on which line a problem was found. -/
def onLine {α : Type} (number : Nat) (result : Except (String × Problem) α) :
    Except ReadError α :=
  result.mapError fun (text, problem) => .malformed number text problem

/-- Reads the lines after the first `number` ones. -/
def readLines (number : Nat) (state : State) : List (List Char) → Except ReadError (List Summary)
  | [] => onLine number (finish state)
  | raw :: rest =>
      if byteLength raw ≤ lineLimit then do
        let (done, state) ← onLine (number + 1) (readLine state (withoutReturn raw))
        let more ← readLines (number + 1) state rest
        return done ++ more
      else .error .lineTooLong

/-- The functions that a report lists. -/
def parse (text : String) : Except ReadError (List Summary) :=
  readLines 0 .outside (rawLines text.toList)

end ComposeStability.Report
