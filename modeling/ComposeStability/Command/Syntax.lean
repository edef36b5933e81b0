/-
# Command.Syntax -- the commands and how they are spelled

The first argument that is no flag names a command.  A command has flags of its
own besides those that all commands have.  A name that is no command is refused,
with the names that it may stand for.
-/
import ComposeStability.Command.Flag
import ComposeStability.Text.LowerCase

namespace ComposeStability.Command

set_option autoImplicit false

/-! ## Commands -/

inductive Name where
  | report
  | check
  | instrument
  | inspect
deriving DecidableEq, Repr

/-- The name of the program. -/
def program : String := "stableguard"

namespace Name

/-- The commands in the order of their importance. -/
def all : List Name := [.report, .check, .instrument, .inspect]

def text : Name → String
  | .report => "report"
  | .check => "check"
  | .instrument => "instrument"
  | .inspect => "inspect"

/-- The flags of a command alone, sorted by name. -/
def flags : Name → List Flag
  | .report =>
      [{ name := "name", kind := .text
         usage := "report file name without extension (default from configuration)" },
       { name := "output", letter := some 'o', kind := .text
         usage := "output directory, - for standard output (default from configuration)" }]
  | .check =>
      [{ name := "golden", kind := .text, usage := "golden report file (default: the report path)" },
       { name := "name", kind := .text
         usage := "golden report name without extension (default from configuration)" },
       { name := "output", letter := some 'o', kind := .text
         usage := "directory of the golden report (default from configuration)" },
       { name := "strict", kind := .switch
         usage := "also fail on added, removed and improved functions" }]
  | .instrument =>
      [{ name := "method-expressions", kind := .switch
         usage := "call tracker methods as method expressions" },
       { name := "output", letter := some 'o', kind := .text
         usage := "output directory for instrumented files" }]
  | .inspect =>
      [{ name := "unstable", kind := .switch, usage := "only show functions that are not skippable" }]

/-- The flags that have to be given. -/
def required : Name → List String
  | .instrument => ["output"]
  | _ => []

end Name

/-- The flags of all commands, sorted by name. -/
def commonFlags : List Flag :=
  [{ name := "color", kind := .text, usage := "colorize output (auto|on|off)", initial := "auto" },
   { name := "config", kind := .text, usage := "configuration file (default: search for stableguard.toml)" },
   { name := "jobs", kind := .number, usage := "max packages analyzed in parallel (0=one per package)" },
   { name := "no-cache", kind := .switch, usage := "disable the result cache" },
   { name := "strong-skipping", kind := .switch
     usage := "treat every restartable function as skippable" },
   { name := "tests", kind := .switch, usage := "analyze test files" },
   { name := "trace", kind := .text, usage := "write a runtime trace to file" },
   { name := "verbose", letter := some 'v', kind := .switch, usage := "enable debug logging" }]

/-- The flag that asks for help on something. -/
def helpFlag (subject : String) : Flag :=
  { name := "help", letter := some 'h', kind := .switch, usage := "help for " ++ subject }

/-! ## Subjects -/

/-- The shells that complete command lines. -/
inductive Shell where
  | bash
  | zsh
  | fish
  | powershell
deriving DecidableEq, Repr

namespace Shell

def all : List Shell := [.bash, .zsh, .fish, .powershell]

def text : Shell → String
  | .bash => "bash"
  | .zsh => "zsh"
  | .fish => "fish"
  | .powershell => "powershell"

end Shell

/-- What an argument may name and help may be about: the program, its commands, help itself, and the
scripts that let shells complete command lines. -/
inductive Subject where
  | program
  | command (name : Name)
  | help
  | completion
  | script (shell : Shell)
deriving DecidableEq, Repr

namespace Subject

/-- The word for a subject. -/
def text : Subject → String
  | .program => Command.program
  | .command name => name.text
  | .help => "help"
  | .completion => "completion"
  | .script shell => shell.text

/-- The words that lead to a subject. -/
def path : Subject → String
  | .program => Command.program
  | .script shell => Command.program ++ " completion " ++ shell.text
  | s => Command.program ++ " " ++ s.text

/-- The subjects below a subject. -/
def parts : Subject → List Subject
  | .program => Name.all.map .command ++ [.help, .completion]
  | .completion => Shell.all.map .script
  | _ => []

/-- The flags of a subject alone. -/
def flags : Subject → List Flag
  | .command name => name.flags
  | .script _ =>
      [{ name := "no-descriptions", kind := .switch, usage := "disable completion descriptions" }]
  | _ => []

end Subject

/-! ## Finding the command -/

/-- Whether an argument is a flag whose value, if it has one, is the next argument.  So are flags
that are not known. -/
def takesNext (flags : List Flag) (argument : String) : Bool :=
  let isSwitch (p : Flag → Bool) : Bool := (flags.find? p).any (·.kind == .switch)
  match argument.toList with
  | '-' :: '-' :: name =>
      !name.contains '=' && !isSwitch (·.name == String.ofList name)
  | ['-', c] => c.toNat < 0x80 && c != '=' && !isSwitch (·.letter == some c)
  | _ => false

/-- The arguments that are neither flags nor their values. -/
def operands (flags : List Flag) : List String → List String
  | [] => []
  | "--" :: _ => []
  | argument :: rest =>
      if takesNext flags argument then
        match rest with
        | _ :: next :: more => operands flags (next :: more)
        | _ => []
      else if argument.isEmpty || isFlag argument then operands flags rest
      else argument :: operands flags rest

/-- The arguments without the first operand that equals a name. -/
def without (flags : List Flag) (name : String) : List String → List String
  | [] => []
  | "--" :: rest => "--" :: rest
  | argument :: rest =>
      if takesNext flags argument then
        match rest with
        | value :: more => argument :: value :: without flags name more
        | [] => [argument]
      else if argument == name then rest
      else argument :: without flags name rest

/-- The part of a subject that arguments name, with the other arguments; the subject itself if they
name none.  The flag that asks for help is not known yet, so what follows it does not name a part. -/
def descend (s : Subject) (args : List String) : Subject × List String :=
  match operands commonFlags args with
  | [] => (s, args)
  | typed :: _ =>
      match s.parts.find? (·.text == typed) with
      | some part => (part, without commonFlags typed args)
      | none => (s, args)

/-! ## Names that are close -/

/-- One row of the table of distances between the starts of two words. -/
def nextRow (c : UInt8) (word : List UInt8) (row : List Nat) : List Nat :=
  let step (acc : List Nat × Nat) (entry : UInt8 × Nat × Nat) : List Nat × Nat :=
    let (d, diagonal, above) := entry
    let here := if c == d then diagonal else 1 + min diagonal (min above acc.2)
    (acc.1 ++ [here], here)
  let first := row.headD 0 + 1
  ((word.zip (row.zip row.tail)).foldl step ([first], first)).1

/-- The number of bytes to change, add or drop between two words. -/
def distance (a b : List UInt8) : Nat :=
  (a.foldl (fun row c => nextRow c b row) (List.range (b.length + 1))).getLastD 0

/-- The commands that a name may stand for. -/
def closeTo (typed : String) : List String :=
  let typed := Text.lower typed
  ((Name.all.map (·.text)) ++ [Subject.completion.text]).filter fun name =>
    distance (Text.toBytes typed) (Text.toBytes name) ≤ 2 || Text.startsWith typed name

/-! ## Lines -/

/-- What a command line asks for. -/
inductive Request where
  /-- Help on a subject. -/
  | help (subject : Subject)
  /-- Help on the subject that words name. -/
  | explain (given : Given)
  /-- The script that lets a shell complete command lines. -/
  | script (shell : Shell) (given : Given)
  | run (name : Name) (given : Given)

/-- Why a command line is refused. -/
inductive LineError where
  | unknownCommand (typed : String)
  /-- A script takes no arguments. -/
  | unexpected (typed : String) (subject : Subject)
  | flags (cause : FlagError)
deriving DecidableEq, Repr

def LineError.message : LineError → String
  | .unknownCommand typed =>
      let close := closeTo typed
      let remark := if close.isEmpty then ""
        else "\n\nDid you mean this?\n" ++ String.join (close.map fun name => "\t" ++ name ++ "\n")
      "unknown command " ++ Text.quote typed ++ " for " ++ Text.quote program ++ remark
  | .unexpected typed subject =>
      "unknown command " ++ Text.quote typed ++ " for " ++ Text.quote subject.path
  | .flags cause => cause.message

/-- The subject that words name, with the other arguments.  Any words may follow a subject but the
program. -/
def find (args : List String) : Except LineError (Subject × List String) :=
  let (s, rest) := descend .program args
  match s, operands commonFlags args with
  | .program, typed :: _ => .error (.unknownCommand typed)
  | _, _ => .ok (descend s rest)

/-- Reads the arguments of a subject. -/
def requestOf (s : Subject) (args : List String) : Except LineError Request := do
  let given ← (readFlags (helpFlag s.text :: s.flags ++ commonFlags) args).mapError .flags
  if given.switch "help" then return .help s
  match s with
  | .command name => return .run name given
  | .help => return .explain given
  | .script shell =>
      match given.args with
      | [] => return .script shell given
      | typed :: _ => throw (.unexpected typed s)
  | _ => return .help s

/-- Reads a command line. -/
def readLine (args : List String) : Except LineError Request := do
  let (s, rest) ← find args
  requestOf s rest

end ComposeStability.Command
