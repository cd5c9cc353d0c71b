/-
Interpose.Defaults — the fixed names and numbers both sides agree on.
-/
import Interpose.Time.Duration

namespace Interpose.Defaults

/-- The loopback address the daemon listens on unless told otherwise. -/
def daemonAddress : String := "127.0.0.1:47210"

/-- How long a new process waits for the daemon's answer about its scope. -/
def forkTimeout : Duration := Duration.ofMillis 500

/-- How often a process that carries modules shows that it lives. -/
def heartbeat : Duration := Duration.ofSecs 15

/-- The variable that names another daemon address. -/
def addressVariable : String := "MODHOOK_DAEMON"

/-- The variable that sets another fork timeout, in milliseconds. -/
def timeoutVariable : String := "MODHOOK_TIMEOUT_MS"

/-- What the code path of a module built into the host begins with. -/
def builtinScheme : String := "builtin:"

/-- The version of backup documents that is read and written. -/
def backupVersion : UInt32 := 2

/-- How many log entries are read when no limit is given. -/
def readLimit : UInt32 := 200

/-- The symbol looked up in a library when an entry point names none. -/
def entrySymbol : String := "modhook_module_entry"

/-- The version the daemon reports. -/
def daemonVersion : String := "0.1.0"

/-- The address of a daemon as a URI. -/
def endpointUri (address : String) : String :=
  if address.startsWith "http://" || address.startsWith "https://" then address
  else "http://" ++ address

end Interpose.Defaults
