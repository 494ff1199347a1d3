import Knockout.Command.Arguments
import Knockout.Command.Check
import Knockout.Command.GraphExport
import Knockout.Command.TokenListing

/-!
# Running a command

A command line is carried out in a session: the configuration is loaded first, whatever the
command, and then the command does its work.
-/

namespace Knockout

/-- The script that completes command lines in a shell: the words that may follow. -/
def Shell.script (shell : Shell) : String :=
  let words := "check tokens report dot completions help"
  match shell with
  | .bash => s!"complete -W \"{words}\" tourney\n"
  | .zsh => s!"compdef '_values command {words}' tourney\n"
  | .fish => s!"complete -c tourney -f -a \"{words}\"\n"
  | .elvish =>
    "set edit:completion:arg-completer[tourney] = \x7b|@a| put " ++ words ++ " \x7d\n"
  | .powershell =>
    "Register-ArgumentCompleter -CommandName tourney -ScriptBlock \x7b \"" ++ words ++
      "\".Split() \x7d\n"

/-- Carries out a command with a configuration. -/
def Command.run (s : Session) (config : Config) : Command → Execution
  | .check paths strict format => Check.run s config strict format paths
  | .tokens file format => TokenListing.run s config format file
  | .report file choice strict format => Reports.run s config strict format choice file
  | .dot file output strict => GraphExport.run s config strict output file
  | .completions shell => { stdout := shell.script }

/-- Carries out a command line. -/
def Invocation.run (s : Session) (i : Invocation) : Execution :=
  match s.loadConfig i.config with
  | .error f => { failure := some f }
  | .ok config => i.command.run s config

end Knockout
