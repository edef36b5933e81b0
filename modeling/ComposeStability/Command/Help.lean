/-
# Command.Help -- help on the program and its commands
-/
import ComposeStability.Command.Syntax

namespace ComposeStability.Command

set_option autoImplicit false

/-! ## Flags -/

/-- What a flag is called in help, with the kind of its value. -/
def Flag.heading (f : Flag) : String :=
  let letter := match f.letter with
    | some c => "  -" ++ String.singleton c ++ ", "
    | none => "      "
  let value := match f.kind with
    | .switch => ""
    | .text => " string"
    | .number => " int"
  letter ++ "--" ++ f.name ++ value

/-- Text filled up with blanks. -/
def fill (width : Nat) (s : String) : String :=
  s ++ String.ofList (List.replicate (width - s.length) ' ')

/-- The lines on flags, with what they mean in a column. -/
def flagLines (flags : List Flag) : List String :=
  let flags := flags.mergeSort fun a b => decide (a.name ≤ b.name)
  let width := (flags.map fun f => f.heading.length).foldl max 0
  flags.map fun f =>
    let byDefault := if f.initial.isEmpty then "" else " (default " ++ Text.quote f.initial ++ ")"
    fill width f.heading ++ "   " ++ f.usage ++ byDefault

/-! ## Commands -/

/-- What a command does, in a few words. -/
def Name.short : Name → String
  | .report => "Write the stability report of composable functions"
  | .check => "Compare stability against the golden report"
  | .instrument => "Instrument traced composable functions with recomposition logging"
  | .inspect => "Show the stability of composable functions as a tree"

/-- What a command does. -/
def Name.long : Name → String
  | .report =>
      "Analyze the given packages (default ./...) and write a stability report file"
  | .check =>
      "Analyze the given packages (default ./...) and fail when a function became less stable than " ++
        "recorded in the golden report"
  | .instrument =>
      "Write instrumented copies of all files with //stableguard:trace functions\n" ++
        "below the output directory, together with an overlay for\n\n" ++
        "\tgo build -overlay=<dir>/overlay.json"
  | .inspect => Name.short .inspect

/-- How a command is used. -/
def Name.usage : Name → String
  | .report => "report [flags] [packages]"
  | .check => "check [flags] [packages]"
  | .instrument => "instrument -o <dir> [packages] [flags]"
  | .inspect => "inspect [flags] [packages]"

/-- What the program does. -/
def about : String :=
  "stableguard infers which parameters of composable functions are stable,\n" ++
    "writes stability reports, checks them against a golden copy and instruments\n" ++
    "traced functions with recomposition logging"

/-! ## Subjects -/

namespace Subject

/-- What a subject does, in a few words. -/
def short : Subject → String
  | .program => "Stability analysis for composable Go functions"
  | .command name => name.short
  | .help => "Help about any command"
  | .completion => "Generate the autocompletion script for the specified shell"
  | .script shell => "Generate the autocompletion script for " ++ shell.text

/-- How a shell loads a script, now and in every new session. -/
def loading : Shell → String
  | .bash =>
      "Generate the autocompletion script for the bash shell.\n\n" ++
        "This script depends on the 'bash-completion' package.\n" ++
        "If it is not installed already, you can install it via your OS's package manager.\n\n" ++
        "To load completions in your current shell session:\n\n" ++
        "\tsource <(stableguard completion bash)\n\n" ++
        "To load completions for every new session, execute once:\n\n" ++
        "#### Linux:\n\n" ++
        "\tstableguard completion bash > /etc/bash_completion.d/stableguard\n\n" ++
        "#### macOS:\n\n" ++
        "\tstableguard completion bash > $(brew --prefix)/etc/bash_completion.d/stableguard\n\n" ++
        "You will need to start a new shell for this setup to take effect."
  | .zsh =>
      "Generate the autocompletion script for the zsh shell.\n\n" ++
        "If shell completion is not already enabled in your environment you will need\n" ++
        "to enable it.  You can execute the following once:\n\n" ++
        "\techo \"autoload -U compinit; compinit\" >> ~/.zshrc\n\n" ++
        "To load completions in your current shell session:\n\n" ++
        "\tsource <(stableguard completion zsh)\n\n" ++
        "To load completions for every new session, execute once:\n\n" ++
        "#### Linux:\n\n" ++
        "\tstableguard completion zsh > \"$\x7bfpath[1]\x7d/_stableguard\"\n\n" ++
        "#### macOS:\n\n" ++
        "\tstableguard completion zsh > $(brew --prefix)/share/zsh/site-functions/_stableguard\n\n" ++
        "You will need to start a new shell for this setup to take effect."
  | .fish =>
      "Generate the autocompletion script for the fish shell.\n\n" ++
        "To load completions in your current shell session:\n\n" ++
        "\tstableguard completion fish | source\n\n" ++
        "To load completions for every new session, execute once:\n\n" ++
        "\tstableguard completion fish > ~/.config/fish/completions/stableguard.fish\n\n" ++
        "You will need to start a new shell for this setup to take effect."
  | .powershell =>
      "Generate the autocompletion script for powershell.\n\n" ++
        "To load completions in your current shell session:\n\n" ++
        "\tstableguard completion powershell | Out-String | Invoke-Expression\n\n" ++
        "To load completions for every new session, add the output of the above command\n" ++
        "to your powershell profile."

/-- What a subject does. -/
def long : Subject → String
  | .program => about
  | .command name => name.long
  | .help =>
      "Help provides help for any command in the application.\n" ++
        "Simply type stableguard help [path to command] for full details."
  | .completion =>
      "Generate the autocompletion script for stableguard for the specified shell.\n" ++
        "See each sub-command's help for details on how to use the generated script."
  | .script shell => loading shell

/-- How a subject is used. -/
def usageLine : Subject → String
  | .command name => Command.program ++ " " ++ name.usage
  | .help => Command.program ++ " help [command] [flags]"
  | .script .bash => path (.script .bash)
  | .script shell => path (.script shell) ++ " [flags]"
  | s => s.path ++ " [command]"

/-- The lines on the parts of a subject, by name. -/
def partLines (s : Subject) : List String :=
  (s.parts.mergeSort fun a b => decide (a.text ≤ b.text)).map fun part =>
    "  " ++ fill 11 part.text ++ " " ++ part.short

end Subject

/-- Lines under a heading, after a blank line; nothing without lines. -/
def titled (title : String) (lines : List String) : List String :=
  if lines.isEmpty then [] else ["", title] ++ lines

/-- How a subject is used, with its parts and flags. -/
def usageText (s : Subject) : String :=
  let help := helpFlag s.text :: s.flags
  let flags := match s with
    | .program => titled "Flags:" (flagLines (help ++ commonFlags))
    | _ => titled "Flags:" (flagLines help) ++ titled "Global Flags:" (flagLines commonFlags)
  let more := if s.parts.isEmpty then []
    else ["", "Use \"" ++ s.path ++ " [command] --help\" for more information about a command."]
  String.join ((["Usage:", "  " ++ s.usageLine] ++ titled "Available Commands:" s.partLines ++ flags ++
    more).map (· ++ "\n"))

/-- Help on a subject. -/
def helpText (s : Subject) : String := s.long ++ "\n\n" ++ usageText s

/-- A word in back quotes where they can hold it, else as a literal. -/
def backQuoted (s : String) : String :=
  let holds (c : Char) : Bool :=
    c == '\t' || (' ' ≤ c && c != '\x60' && c != '\x7f' && c != Char.ofNat 0xfeff)
  if s.toList.all holds then "\x60" ++ s ++ "\x60" else Text.quote s

/-- Help on the subject that words name. -/
def explain (words : List String) : String :=
  match find words with
  | .ok (s, _) => helpText s
  | .error _ =>
      "Unknown help topic [" ++ " ".intercalate (words.map backQuoted) ++ "]\n" ++ usageText .program

end ComposeStability.Command
