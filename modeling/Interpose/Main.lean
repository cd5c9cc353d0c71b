/-
Interpose.Main — the control tool as a program.

The line is read, the daemon is looked for, and the exit code tells what
came of it. The program has no transport of its own, so it finds nobody
anywhere: whoever embeds the library gives `dial` the endpoints that
answer, and runs the command with `Command.run`.
-/
import Interpose.Control.Run
import Interpose.Control.Dial

namespace Interpose.Control

/-- What is said of a line that was not read. -/
def UsageFault.message : UsageFault → String
  | unknownArgument => "unknown argument"
  | unknownCommand => "unknown command"
  | missingValue => "a value is missing"
  | unwantedValue => "a switch takes no value"
  | conflict => "arguments that exclude each other, or one given twice"
  | missingArgument => "an argument is missing"
  | missingCommand => "a command is missing"
  | nothingGiven => "a command is missing"
  | badValue m => m
  | help => "usage: " ++ toolGrammar.name ++ " [OPTIONS] "
      ++ "|".intercalate (toolGrammar.commands.map (·.name))
  | version => toolGrammar.name ++ " " ++ Defaults.daemonVersion

/-- What the program prints and exits with; `answers` tells where a daemon is. -/
def verdict (answers : String → Bool) (address : Option String) (words : List String) :
    String × ExitCode :=
  match Invocation.parse address words with
  | .error e => (e.message, if e.isMistake then .usage else .noError)
  | .ok i =>
    match dial answers i.daemon with
    | .error f => ("Error: " ++ f.message, f.code)
    | .ok endpoint => ("connected to " ++ endpoint, .noError)

end Interpose.Control

open Interpose in
def main (words : List String) : IO UInt32 := do
  let address ← IO.getEnv Defaults.addressVariable
  let (text, code) := Control.verdict (fun _ => false) address words
  if code = .noError then IO.println text else IO.eprintln text
  return UInt32.ofNat code.number
