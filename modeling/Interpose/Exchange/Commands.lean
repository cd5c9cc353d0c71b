/-
Interpose.Exchange.Commands — command lines and their failures, in JSON.

A command is written with its name and its arguments. A failure is written
with its exit code and its message; where the message is not the tool's
own, only the kind of the failure is written.
-/
import Interpose.Exchange.Messages
import Interpose.Control.Command
import Interpose.Control.Error

namespace Interpose.Exchange

open Control

/-! ## Commands -/

def showTarget : Control.Target → Json
  | .all => .str "*"
  | .app t => writeTarget t

/-- The name of a command and its arguments. -/
def commandFields : Command → String × List (String × Json)
  | .status => ("status", [])
  | .sessions => ("sessions", [])
  | .modulesList e d => ("modules ls", [("enabled", .bool e), ("disabled", .bool d)])
  | .modulesSet e d i ms => ("modules set", [("enable", .bool e), ("disable", .bool d),
      ("ignore", .bool i), ("modules", textArray ms)])
  | .modulesInstall m es p sc e => ("modules install", [("module", .str m),
      ("entries", .array (es.map writeEntry)), ("priority", .int p.toInt),
      ("scope", .array (sc.map showTarget)), ("enable", .bool e)])
  | .modulesUninstall m => ("modules uninstall", [("module", .str m)])
  | .modulesPriority m p => ("modules priority", [("module", .str m), ("priority", .int p.toInt)])
  | .scopeList m => ("scope ls", [("module", .str m)])
  | .scopeSet s a r m ts => ("scope set", [("set", .bool s), ("append", .bool a), ("remove", .bool r),
      ("mode", .int (scopeMode a r).code.toInt), ("module", .str m),
      ("targets", .array (ts.map showTarget))])
  | .log f n => ("log", [("follow", .bool f), ("limit", .int n.toNat)])
  | .backup f ms => ("backup", [("file", orNull .str f), ("modules", textArray ms)])
  | .restore f ms => ("restore", [("file", .str f), ("modules", textArray ms)])

/-! ## Failures -/

def diskFaultName : DiskFault → String
  | .notFound => "NotFound"
  | .alreadyExists => "AlreadyExists"
  | .notADirectory => "NotADirectory"
  | .isADirectory => "IsADirectory"
  | .invalid => "InvalidInput"
  | .notEmpty => "DirectoryNotEmpty"
  | .other kind _ => kind

/-- A failure with its exit code. -/
def failureAnswer (f : Failure) : Json :=
  let (variant, message) : String × Json := match f with
    | .noDaemon _ _ => ("NoDaemon", .str f.message)
    | .remote _ => ("Remote", .str f.message)
    | .usage _ => ("Usage", .str f.message)
    | .emptyScope _ => ("EmptyScope", .str f.message)
    | .enableDisable _ => ("EnableDisable", .str f.message)
    | .setScope _ => ("SetScope", .str f.message)
    | .lsScope _ => ("LsScope", .str f.message)
    | .backup m => ("Backup", if m.startsWith "Unknown backup" then .str f.message else .null)
    | .file (.disk e) => ("Io", .str (diskFaultName e))
    | .file .notText => ("Io", .str "InvalidData")
  .record [("error", .str f.code.name), ("code", .int f.code.number), ("text", .str f.code.text),
    ("variant", .str variant), ("message", message)]

/-- Why a command line was not read. -/
def usageFault (e : UsageFault) : Json :=
  let (kind, message) : String × Json := match e with
    | .unknownArgument => ("UnknownArgument", .null)
    | .unknownCommand => ("InvalidSubcommand", .null)
    | .missingValue => ("InvalidValue", .null)
    | .unwantedValue => ("TooManyValues", .null)
    | .conflict => ("ArgumentConflict", .null)
    | .missingArgument => ("MissingRequiredArgument", .null)
    | .missingCommand => ("MissingSubcommand", .null)
    | .nothingGiven => ("DisplayHelpOnMissingArgumentOrSubcommand", .null)
    | .badValue m => ("ValueValidation", .str m)
    | .help => ("DisplayHelp", .null)
    | .version => ("DisplayVersion", .null)
  .record [("error", .str (if e.isMistake then "Usage" else "NoError")), ("kind", .str kind),
    ("message", message)]

end Interpose.Exchange
