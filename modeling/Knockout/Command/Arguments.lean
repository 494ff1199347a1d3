import Knockout.Command.Reports
import Knockout.Project.Config

/-!
# Arguments

The command line as a value. Arguments are read from left to right: options with and without a
value, the name of a command, and operands. The value of an option or an operand is only judged
when the next option or operand, or the end, shows that it is complete. After two dashes all else is
an operand.
-/

namespace Knockout

/-- A shell that completions can be printed for. -/
inductive Shell where
  | bash
  | elvish
  | fish
  | powershell
  | zsh
  deriving DecidableEq, Repr

/-- The shell a word stands for. -/
def Shell.ofName? : String → Option Shell
  | "bash" => some .bash
  | "elvish" => some .elvish
  | "fish" => some .fish
  | "powershell" => some .powershell
  | "zsh" => some .zsh
  | _ => none

/-- A command with its arguments. -/
inductive Command where
  | check (paths : List Path) (strict : Bool) (format : Option OutputFormat)
  | tokens (file : Path) (format : Option OutputFormat)
  | report (file : Path) (choice : ReportPart) (strict : Bool) (format : Option OutputFormat)
  | dot (file : Path) (output : Option Path) (strict : Bool)
  | completions (shell : Shell)
  deriving DecidableEq, Repr

/-- A whole command line. -/
structure Invocation where
  /-- A configuration file given by hand. -/
  config : Option Path := none
  command : Command
  deriving DecidableEq, Repr

/-- Why a command line is not carried out. -/
inductive UsageFault where
  /-- There are no arguments at all. -/
  | noArguments
  /-- There are options, but no command. -/
  | noCommand
  | unknownArgument
  | unknownCommand
  /-- An operand that the command needs is not there. -/
  | missingArgument
  /-- A value that is no value of its option or operand, or is not there. -/
  | invalidValue
  /-- A value for an option that takes none. -/
  | superfluousValue
  /-- An option that may come once comes again. -/
  | repeated
  /-- Help was asked for. -/
  | helpWanted
  /-- The version was asked for. -/
  | versionWanted
  deriving DecidableEq, Repr

/-- What is printed when the version is asked for. -/
def versionText : String := "tourney 0.4.1\n"

/-- What is printed when help is asked for. -/
def helpText : String :=
  String.join <| List.map (· ++ "\n")
    ["Usage: tourney [OPTIONS] <COMMAND>",
      "",
      "Commands:",
      "  check        Check tournament files for lexical and syntax errors",
      "  tokens       List the tokens of a tournament file",
      "  report       Print tournament reports",
      "  dot          Export the bracket as a Graphviz DOT graph",
      "  completions  Generate shell completions",
      "  help         Print this message",
      "",
      "Options:",
      "      --config <CONFIG>  Config file (defaults to the nearest tourney.yaml)",
      "  -v, --verbose...       More log output",
      "  -h, --help             Print help",
      "  -V, --version          Print version"]

namespace UsageFault

/-- What is said about a command line that is not carried out. -/
def message : UsageFault → String
  | .noArguments | .helpWanted => helpText
  | .versionWanted => versionText
  | .noCommand => "error: a command is needed\n"
  | .unknownArgument => "error: unexpected argument\n"
  | .unknownCommand => "error: unrecognized command\n"
  | .missingArgument => "error: a required argument is missing\n"
  | .invalidValue => "error: invalid value\n"
  | .superfluousValue => "error: a value for an option that takes none\n"
  | .repeated => "error: an option is used more than once\n"

/-- Whether what was asked for is what is printed. -/
def isAnswer : UsageFault → Bool
  | .helpWanted | .versionWanted => true
  | _ => false

end UsageFault

namespace Arguments

/-- The names of commands. -/
inductive CommandName where
  | check
  | tokens
  | report
  | dot
  | completions
  | help
  deriving DecidableEq, Repr

/-- The command a word names. -/
def CommandName.ofWord? : String → Option CommandName
  | "check" => some .check
  | "tokens" => some .tokens
  | "report" => some .report
  | "dot" => some .dot
  | "completions" => some .completions
  | "help" => some .help
  | _ => none

/-- Options that take no value. -/
inductive Flag where
  | help
  | version
  | verbose
  | strict
  deriving DecidableEq, Repr

/-- What a value may belong to. -/
inductive Slot where
  | config
  | format
  | part
  | output
  | operand
  deriving DecidableEq, Repr

/-- An option. -/
inductive Switch where
  | flag (f : Flag)
  | setting (s : Slot)
  deriving DecidableEq, Repr

/-- An option with the names it has. -/
structure Spec where
  long : String
  short : Option Char := none
  switch : Switch
  deriving DecidableEq, Repr

/-- Where arguments are read: before a command, or after its name. -/
abbrev Level := Option CommandName

/-- The options that every level has. -/
def commonSpecs : List Spec :=
  [⟨"config", none, .setting .config⟩, ⟨"verbose", some 'v', .flag .verbose⟩,
    ⟨"help", some 'h', .flag .help⟩]

/-- The option that asks to judge strictly. -/
def strictSpec : Spec := ⟨"strict", none, .flag .strict⟩

/-- The option that chooses a format. -/
def formatSpec : Spec := ⟨"format", none, .setting .format⟩

/-- The options of a level. -/
def specs : Level → List Spec
  | none => ⟨"version", some 'V', .flag .version⟩ :: commonSpecs
  | some .check => [strictSpec, formatSpec] ++ commonSpecs
  | some .tokens => formatSpec :: commonSpecs
  | some .report =>
    [⟨"section", some 's', .setting .part⟩, strictSpec, formatSpec] ++ commonSpecs
  | some .dot => [⟨"output", some 'o', .setting .output⟩, strictSpec] ++ commonSpecs
  | some .completions => commonSpecs
  | some .help => []

/-- How many operands a level takes; none says that there is no limit. -/
def operandLimit : Level → Option Nat
  | none | some .help => some 0
  | some .check => none
  | some .tokens | some .report | some .dot | some .completions => some 1

/-- Whether a value may fill a slot. Paths may not be empty, all else has its words. -/
def accepts (level : Level) (slot : Slot) (value : String) : Bool :=
  match slot, level with
  | .format, _ => (OutputFormat.ofName? value).isSome
  | .part, _ => (ReportPart.ofName? value).isSome
  | .operand, some .completions => (Shell.ofName? value).isSome
  | _, _ => !value.isEmpty

/-- A value that is being read. -/
structure Pending where
  slot : Slot
  values : List String := []
  deriving DecidableEq, Repr

/-- How far arguments have been read. -/
structure Scan where
  flags : List Flag := []
  /-- The values of options, and the operands. -/
  values : List (Slot × String) := []
  operandCount : Nat := 0
  pending : Option Pending := none
  /-- Whether the option before waits for its value. -/
  waiting : Bool := false
  /-- Whether two dashes have been read. -/
  operandsOnly : Bool := false
  deriving DecidableEq, Repr

namespace Scan

/-- The value given for a slot. -/
def value? (s : Scan) (slot : Slot) : Option String := s.values.lookup slot

/-- Takes a value in: an option has to have one and may come once, and every value has to be
accepted. -/
def take (level : Level) (s : Scan) (slot : Slot) (values : List String) :
    Except UsageFault Scan :=
  if values.isEmpty then .error .invalidValue
  else if slot ≠ .operand ∧ (s.value? slot).isSome then .error .repeated
  else if values.all (accepts level slot) then
    .ok { s with values := s.values ++ values.map (slot, ·) }
  else .error .invalidValue

/-- Takes the pending value in. -/
def settle (level : Level) (s : Scan) : Except UsageFault Scan :=
  match s.pending with
  | none => .ok s
  | some p => take level { s with pending := none, waiting := false } p.slot p.values

/-- A flag. Only the one for more output may come again. -/
def addFlag (level : Level) (s : Scan) (f : Flag) : Except UsageFault Scan := do
  let s ← s.settle level
  match f with
  | .help => .error .helpWanted
  | .version => .error .versionWanted
  | .verbose => return { s with flags := f :: s.flags, waiting := false }
  | .strict =>
    if f ∈ s.flags then .error .repeated
    else return { s with flags := f :: s.flags, waiting := false }

/-- An option that takes a value, with the value if it is attached. -/
def addSetting (level : Level) (s : Scan) (slot : Slot) (attached : Option String) :
    Except UsageFault Scan := do
  let s ← s.settle level
  match attached with
  | some value => return { ← take level s slot [value] with waiting := false }
  | none => return { s with pending := some ⟨slot, []⟩, waiting := true }

/-- An argument that starts with two dashes. -/
def addLong (level : Level) (s : Scan) (body : List Char) : Except UsageFault Scan :=
  let name := String.ofList (body.takeWhile (· != '='))
  let attached :=
    match body.dropWhile (· != '=') with
    | [] => none
    | _ :: value => some (String.ofList value)
  match (specs level).find? (·.long == name), attached with
  | none, _ => .error .unknownArgument
  | some ⟨_, _, .setting slot⟩, _ => s.addSetting level slot attached
  | some ⟨_, _, .flag _⟩, some _ => .error .superfluousValue
  | some ⟨_, _, .flag f⟩, none => s.addFlag level f

/-- An argument that starts with one dash: flags, the last of which may be an option with its
value. -/
def addShort (level : Level) (s : Scan) : List Char → Except UsageFault Scan
  | [] => .ok s
  | c :: cs =>
    match (specs level).find? (·.short == some c) with
    | none => .error .unknownArgument
    | some ⟨_, _, .flag f⟩ => do addShort level (← s.addFlag level f) cs
    | some ⟨_, _, .setting slot⟩ =>
      match cs with
      | [] => s.addSetting level slot none
      | '=' :: value => s.addSetting level slot (some (String.ofList value))
      | value => s.addSetting level slot (some (String.ofList value))

/-- An operand. The operands of a command that takes many are one value until something else comes
between. -/
def addOperand (level : Level) (s : Scan) (arg : String) : Except UsageFault Scan :=
  match operandLimit level with
  | none =>
    match s.pending with
    | some ⟨.operand, values⟩ =>
      .ok { s with pending := some ⟨.operand, values ++ [arg]⟩, waiting := false }
    | _ => do
      let s ← s.settle level
      return { s with pending := some ⟨.operand, [arg]⟩, waiting := false }
  | some limit =>
    if s.operandCount < limit then do
      let s ← s.settle level
      return { s with
        pending := some ⟨.operand, [arg]⟩
        operandCount := s.operandCount + 1
        waiting := false }
    else
      match level, s.operandsOnly && (CommandName.ofWord? arg).isSome with
      | none, false => .error .unknownCommand
      | _, _ => .error .unknownArgument

/-- An argument that names no command. -/
def addArgument (level : Level) (s : Scan) (arg : String) : Except UsageFault Scan :=
  if s.operandsOnly then s.addOperand level arg
  else
    match arg.toList with
    | ['-', '-'] => .ok { s with operandsOnly := true }
    | '-' :: '-' :: body => s.addLong level body
    | '-' :: c :: cs => s.addShort level (c :: cs)
    | _ =>
      match s.waiting, s.pending with
      | true, some p =>
        .ok { s with pending := some { p with values := p.values ++ [arg] }, waiting := false }
      | _, _ => s.addOperand level arg

end Scan

/-- Reads the arguments of a command. -/
def readCommand (name : CommandName) (s : Scan) : List String → Except UsageFault Scan
  | [] => s.settle (some name)
  | arg :: args => do readCommand name (← s.addArgument (some name) arg) args

/-- Answers a call for help on a command. -/
def helpOn : List String → UsageFault
  | [] => .helpWanted
  | [word] => if (CommandName.ofWord? word).isSome then .helpWanted else .unknownCommand
  | _ :: _ :: _ => .unknownCommand

/-- The command that the arguments of its name make. -/
def commandOf (name : CommandName) (s : Scan) : Except UsageFault Command :=
  let operands := (s.values.filter (·.1 == .operand)).map (·.2)
  let strict := s.flags.contains .strict
  let format := (s.value? .format).bind OutputFormat.ofName?
  match name, operands with
  | .check, paths => .ok (.check (paths.map Path.mk) strict format)
  | .tokens, file :: _ => .ok (.tokens ⟨file⟩ format)
  | .report, file :: _ =>
    let choice := ((s.value? .part).bind ReportPart.ofName?).getD .all
    .ok (.report ⟨file⟩ choice strict format)
  | .dot, file :: _ => .ok (.dot ⟨file⟩ ((s.value? .output).map Path.mk) strict)
  | .completions, word :: _ =>
    match Shell.ofName? word with
    | some shell => .ok (.completions shell)
    | none => .error .invalidValue
  | .help, _ => .error .helpWanted
  | _, [] => .error .missingArgument

/-- Reads the arguments before a command, the name of the command and what follows it. What the
command was given is judged before the last option in front of it. -/
def readFrom (s : Scan) : List String → Except UsageFault Invocation
  | [] => do
    let s ← s.settle none
    .error (if s.flags.isEmpty && s.values.isEmpty then .noArguments else .noCommand)
  | arg :: args =>
    let name? := if s.waiting || s.operandsOnly then none else CommandName.ofWord? arg
    match name? with
    | none => do readFrom (← s.addArgument none arg) args
    | some .help => .error (helpOn args)
    | some name => do
      let own ← readCommand name {} args
      let command ← commandOf name own
      let s ← s.settle none
      return { config := ((own.value? .config).or (s.value? .config)).map Path.mk, command }

end Arguments

/-- Reads a command line. -/
def Invocation.ofArguments (args : List String) : Except UsageFault Invocation :=
  Arguments.readFrom {} args

end Knockout
