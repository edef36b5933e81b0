/-
# Command.Flag -- flags among the arguments of a command

A flag has a name after two dashes and may have a letter after one dash; several
letters may share a dash.  A value follows an equals sign, stands in the next
argument, or follows the letter directly; a switch is on without a value.  Other
arguments may stand anywhere; all arguments after two dashes alone are such.
-/
import ComposeStability.Text.Cut
import ComposeStability.Text.Number
import ComposeStability.Text.Quoted

namespace ComposeStability.Command

set_option autoImplicit false

/-! ## Flags -/

inductive FlagKind where
  | switch
  | text
  | number
deriving DecidableEq, Repr

structure Flag where
  name : String
  letter : Option Char := none
  kind : FlagKind
  usage : String
  /-- The value of a text for which none is given. -/
  initial : String := ""
deriving DecidableEq, Repr

/-- The name of a flag as it is typed. -/
def Flag.typed (f : Flag) : String :=
  match f.letter with
  | some c => "-" ++ String.singleton c ++ ", --" ++ f.name
  | none => "--" ++ f.name

inductive FlagValue where
  | switch (on : Bool)
  | text (s : String)
  | number (n : Int)
deriving DecidableEq, Repr

/-! ## Values -/

/-- The digits and the base that a number is written in. -/
def baseOf : List Char → Nat × List Char
  | '0' :: c :: rest =>
      if c == 'x' || c == 'X' then (16, rest)
      else if c == 'b' || c == 'B' then (2, rest)
      else if c == 'o' || c == 'O' then (8, rest)
      else (8, c :: rest)
  | digits => (10, digits)

/-- What is wrong with a number. -/
inductive NumberFault where
  | invalidSyntax
  | outOfRange
deriving DecidableEq, Repr

def NumberFault.message : NumberFault → String
  | .invalidSyntax => "invalid syntax"
  | .outOfRange => "value out of range"

/-- Reads digits from left to right into an unsigned 64-bit word, passing over underscores.  The
first fault counts: a word that is full refuses the number before the digits after it are seen. -/
def readDigits (base : Nat) : Nat → List Char → Except NumberFault Nat
  | value, [] => .ok value
  | value, '_' :: rest => readDigits base value rest
  | value, c :: rest =>
      match Text.digitValue? base c with
      | none => .error .invalidSyntax
      | some digit =>
          let value := value * base + digit
          if value ≤ 0xffffffffffffffff then readDigits base value rest else .error .outOfRange

/-- The value of a number in any base, or what is wrong with it.  Underscores stand between digits, or
between the mark of the base and a digit. -/
def readNumber (s : String) : Except NumberFault Int := do
  let (negative, unsigned) := Text.sign s.toList
  let (base, digits) := baseOf unsigned
  if digits.isEmpty then throw .invalidSyntax
  let size ← readDigits base 0 digits
  if !Text.underscoresFit (· != '_') (unsigned.head? == some '0') digits then throw .invalidSyntax
  match Text.word? negative size with
  | some n => return n
  | none => throw .outOfRange

/-- The value of a number in any base, or why there is none. -/
def parseNumber (s : String) : Except String Int :=
  (readNumber s).mapError fun fault =>
    "strconv.ParseInt: parsing " ++ Text.quote s ++ ": " ++ fault.message

/-- The value that a text gives a flag, or why it is refused. -/
def FlagKind.value (kind : FlagKind) (s : String) : Except String FlagValue :=
  match kind with
  | .text => .ok (.text s)
  | .number => (parseNumber s).map .number
  | .switch =>
      match Text.truth? s with
      | some on => .ok (.switch on)
      | none => .error ("strconv.ParseBool: parsing " ++ Text.quote s ++ ": invalid syntax")

/-! ## Causes -/

/-- What is wrong with the flags of a command. -/
inductive FlagError where
  | badSyntax (argument : String)
  | unknown (name : String)
  | unknownLetter (c : Char) (letters : String)
  | needsValue (name : String)
  | letterNeedsValue (c : Char) (letters : String)
  | invalid (flag : Flag) (value cause : String)
  | helpRequested
deriving DecidableEq, Repr

/-- A letter in quotes.  Letters are single bytes: of any other character the first byte is shown, by
the first byte of its own UTF-8 form, which is that of `Ã` for all of them. -/
def letterText (c : Char) : String :=
  if c == '\x27' then "'\\''"
  else if 0x80 ≤ c.toNat then "'Ã'"
  else "'" ++ String.ofList (if c == '"' then [c] else Text.escapeChar c) ++ "'"

def FlagError.message : FlagError → String
  | .badSyntax argument => "bad flag syntax: " ++ argument
  | .unknown name => "unknown flag: --" ++ name
  | .unknownLetter c letters => "unknown shorthand flag: " ++ letterText c ++ " in -" ++ letters
  | .needsValue name => "flag needs an argument: --" ++ name
  | .letterNeedsValue c letters => "flag needs an argument: " ++ letterText c ++ " in -" ++ letters
  | .invalid flag value cause =>
      "invalid argument " ++ Text.quote value ++ " for " ++ Text.quote flag.typed ++ " flag: " ++ cause
  | .helpRequested => "pflag: help requested"

/-! ## Parsing -/

/-- The flags that are given, the last one of a name first, and the other arguments. -/
structure Given where
  flags : List (String × FlagValue) := []
  args : List String := []
deriving Repr

namespace Given

/-- Whether a flag is given. -/
def has (g : Given) (name : String) : Bool := (g.flags.lookup name).isSome

/-- Whether a switch is on. -/
def switch (g : Given) (name : String) : Bool := g.flags.lookup name == some (.switch true)

/-- The text of a flag; empty if it is not given. -/
def text (g : Given) (name : String) : String :=
  match g.flags.lookup name with
  | some (.text s) => s
  | _ => ""

/-- The number of a flag; zero if it is not given. -/
def number (g : Given) (name : String) : Int :=
  match g.flags.lookup name with
  | some (.number n) => n
  | _ => 0

/-- Gives a flag a value. -/
def set (g : Given) (f : Flag) (s : String) : Except FlagError Given :=
  match f.kind.value s with
  | .ok value => .ok { g with flags := (f.name, value) :: g.flags }
  | .error cause => .error (.invalid f s cause)

end Given

/-- Reads a flag given by its name.  The result holds the arguments that are left. -/
def readLong (flags : List Flag) (g : Given) (argument : String) (rest : List String) :
    Except FlagError (Given × List String) :=
  let spelled := argument.toList.drop 2
  let (name, value?) : String × Option String := match Text.cut ['='] spelled with
    | some (name, value) => (String.ofList name, some (String.ofList value))
    | none => (String.ofList spelled, none)
  if spelled.head?.all fun c => c == '-' || c == '=' then .error (.badSyntax argument)
  else match flags.find? (·.name == name) with
    | none => .error (if name == "help" then .helpRequested else .unknown name)
    | some f =>
        match value?, f.kind, rest with
        | some value, _, rest => (g.set f value).map (·, rest)
        | none, .switch, rest => (g.set f "true").map (·, rest)
        | none, _, value :: rest => (g.set f value).map (·, rest)
        | none, _, [] => .error (.needsValue name)

/-- What the flags of test runs start with; they are passed over. -/
def testFlagStart : List Char := "test.".toList

/-- Reads flags given by their letters. -/
def readLetters (flags : List Flag) (g : Given) (rest : List String) :
    List Char → Except FlagError (Given × List String)
  | [] => .ok (g, rest)
  | c :: more =>
      if testFlagStart.isPrefixOf (c :: more) then .ok (g, rest)
      else match flags.find? (·.letter == some c) with
      | none =>
          .error (if c == 'h' then .helpRequested else .unknownLetter c (String.ofList (c :: more)))
      | some f =>
          match more, f.kind, rest with
          | '=' :: value :: values, _, rest =>
              (g.set f (String.ofList (value :: values))).map (·, rest)
          | more, .switch, rest => do readLetters flags (← g.set f "true") rest more
          | value :: values, _, rest => (g.set f (String.ofList (value :: values))).map (·, rest)
          | [], _, value :: rest => (g.set f value).map (·, rest)
          | [], _, [] => .error (.letterNeedsValue c (String.ofList [c]))

/-- Whether an argument stands for flags. -/
def isFlag (argument : String) : Bool :=
  match argument.toList with
  | '-' :: _ :: _ => true
  | _ => false

/-- Reads arguments one after the other. -/
def readFrom (flags : List Flag) : Nat → Given → List String → Except FlagError Given
  | 0, g, args => .ok { g with args := g.args ++ args }
  | _, g, [] => .ok g
  | fuel + 1, g, argument :: rest =>
      if !isFlag argument then readFrom flags fuel { g with args := g.args ++ [argument] } rest
      else if argument == "--" then .ok { g with args := g.args ++ rest }
      else do
        let (g, rest) ←
          if Text.startsWith "--" argument then readLong flags g argument rest
          else readLetters flags g rest (argument.toList.drop 1)
        readFrom flags fuel g rest

/-- The flags and other arguments of a command. -/
def readFlags (flags : List Flag) (args : List String) : Except FlagError Given :=
  readFrom flags args.length {} args

end ComposeStability.Command
