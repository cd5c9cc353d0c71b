/-
Interpose.Control.Command — the commands of the control tool.
-/
import Interpose.Control.Grammar
import Interpose.Defaults

namespace Interpose.Control

/-! ## Commands -/

inductive Command where
  | status
  | sessions
  /-- Lists modules; at most one of the two switches is set. -/
  | modulesList (enabled disabled : Bool)
  /-- Enables or disables modules; exactly one of the two switches is set. -/
  | modulesSet (enable disable ignore : Bool) (modules : List String)
  | modulesInstall (moduleId : String) (entries : List EntryPoint) (priority : Int32)
      (scope : List Target) (enable : Bool)
  | modulesUninstall (moduleId : String)
  | modulesPriority (moduleId : String) (priority : Int32)
  | scopeList (moduleId : String)
  | scopeSet (replace append remove : Bool) (moduleId : String) (targets : List Target)
  | log (follow : Bool) (limit : UInt32)
  | backup (file : Option String) (modules : List String)
  | restore (file : String) (modules : List String)
  deriving DecidableEq, Repr, Inhabited

/-- How a scope is edited; it is replaced unless the line says otherwise. -/
def scopeMode (append remove : Bool) : ScopeMode :=
  if append then .append else if remove then .remove else .replace

/-- A command line that has been read. -/
structure Invocation where
  daemon : String
  timeoutMs : UInt64
  verbose : Bool
  command : Command
  deriving DecidableEq, Repr, Inhabited

/-! ## Their grammar -/

/-- A switch with a long name and its first letter. -/
def switch (name : String) (short : Char) : Parameter :=
  { name, long := some name, short := some short }

def place (name : String) (kind : ValueKind) : Parameter :=
  { name, value := some kind, required := true }

def places (name : String) (kind : ValueKind) (required : Bool) : Parameter :=
  { name, value := some kind, repeated := true, many := true, required }

/-- The parameters every command has. -/
def sharedParameters : List Parameter :=
  [{ name := "daemon", long := some "daemon", value := some .text },
   { name := "timeout_ms", long := some "timeout-ms", value := some .word },
   switch "verbose" 'v',
   { name := "help", long := some "help", short := some 'h', asks := some .help }]

def signed32 : ValueKind := .between Int32.minValue.toInt Int32.maxValue.toInt

def fileOption (required : Bool) : Parameter :=
  { name := "file", long := some "file", short := some 'f', value := some .path, required }

/-- A command without others behind it. -/
def leaf (name : String) (own : List Parameter) (choices : List Choice) : Grammar :=
  { name, parameters := own ++ sharedParameters, choices }

def modulesGrammar : Grammar where
  name := "modules"
  parameters := sharedParameters
  commands :=
    [leaf "ls" [switch "enabled" 'e', switch "disabled" 'd']
      [{ members := ["enabled", "disabled"] }],
     leaf "set" [switch "enable" 'e', switch "disable" 'd', switch "ignore" 'i',
        places "modules" .text true]
      [{ required := true, members := ["enable", "disable"] }],
     leaf "install" [place "module" .text,
        { name := "entries", long := some "entry", value := some .entry, repeated := true,
          required := true },
        { name := "priority", long := some "priority", value := some signed32, hyphens := true },
        { name := "scope", long := some "scope", value := some .target, repeated := true },
        { name := "enable", long := some "enable" }] [],
     leaf "uninstall" [place "module" .text] [],
     leaf "priority" [place "module" .text,
        { place "priority" signed32 with hyphens := true }] []]

def scopeGrammar : Grammar where
  name := "scope"
  parameters := sharedParameters
  commands :=
    [leaf "ls" [place "module" .text] [],
     leaf "set" [switch "set" 's', switch "append" 'a',
        { name := "remove", long := some "remove", short := some 'd' },
        place "module" .text, places "targets" .target true]
      [{ members := ["set", "append", "remove"] }]]

/-- The tool as a whole; it alone tells its version. -/
def toolGrammar : Grammar where
  name := "modhookctl"
  parameters := sharedParameters ++
    [{ name := "version", long := some "version", short := some 'V', asks := some .version }]
  commands :=
    [leaf "status" [] [], modulesGrammar, scopeGrammar, leaf "sessions" [] [],
     leaf "log" [switch "follow" 'f',
        { name := "limit", long := some "limit", short := some 'n',
          value := some (.between 0 (UInt32.size - 1)) }] [],
     leaf "backup" [fileOption false, places "modules" .text false] [],
     leaf "restore" [fileOption true, places "modules" .text false] []]

/-! ## Reading -/

/-- The arguments of one command by their names. -/
abbrev Given := List (String × List Argument)

namespace Given

def has (g : Given) (name : String) : Bool := g.any (·.1 = name)

def all (g : Given) (name : String) : List Argument := (g.lookup name).getD []

def text? (g : Given) (name : String) : Option String :=
  match g.all name with
  | .text s :: _ => some s
  | _ => none

def text (g : Given) (name : String) : String := (g.text? name).getD ""

def number? (g : Given) (name : String) : Option Int :=
  match g.all name with
  | .number n :: _ => some n
  | _ => none

def texts (g : Given) (name : String) : List String :=
  (g.all name).filterMap fun | .text s => some s | _ => none

def targets (g : Given) (name : String) : List Target :=
  (g.all name).filterMap fun | .target t => some t | _ => none

def entries (g : Given) (name : String) : List EntryPoint :=
  (g.all name).filterMap fun | .entry e => some e | _ => none

def int32 (g : Given) (name : String) : Int32 := Int32.ofInt ((g.number? name).getD 0)

end Given

/-- The command the names on the way lead to, with what the last one was given. -/
def Command.ofGiven (path : List String) (g : Given) : Command :=
  match path with
  | ["sessions"] => .sessions
  | ["modules", "ls"] => .modulesList (g.has "enabled") (g.has "disabled")
  | ["modules", "set"] =>
    .modulesSet (g.has "enable") (g.has "disable") (g.has "ignore") (g.texts "modules")
  | ["modules", "install"] =>
    .modulesInstall (g.text "module") (g.entries "entries") (g.int32 "priority")
      (g.targets "scope") (g.has "enable")
  | ["modules", "uninstall"] => .modulesUninstall (g.text "module")
  | ["modules", "priority"] => .modulesPriority (g.text "module") (g.int32 "priority")
  | ["scope", "ls"] => .scopeList (g.text "module")
  | ["scope", "set"] =>
    .scopeSet (g.has "set") (g.has "append") (g.has "remove") (g.text "module")
      (g.targets "targets")
  | ["log"] => .log (g.has "follow") (UInt32.ofNat ((g.number? "limit").getD 50).toNat)
  | ["backup"] => .backup (g.text? "file") (g.texts "modules")
  | ["restore"] => .restore (g.text "file") (g.texts "modules")
  | _ => .status

/-- Reads a command line. A parameter that every command has counts where it
stands last on the line; `address` is the daemon's address the environment
gives where the line gives none. -/
def Invocation.parse (address : Option String) (words : List String) :
    Except UsageFault Invocation := do
  let ambient := address.elim [] fun _ => ["daemon"]
  let levels ← walk toolGrammar ambient {} words
  let inner := levels.reverse.map (·.2)
  .ok {
    daemon := (inner.findSome? (Given.text? · "daemon")).getD (address.getD Defaults.daemonAddress)
    timeoutMs := UInt64.ofNat ((inner.findSome? (Given.number? · "timeout_ms")).getD 2000).toNat
    verbose := inner.any (Given.has · "verbose")
    command := Command.ofGiven ((levels.drop 1).map (·.1)) (inner.headD []) }

end Interpose.Control
