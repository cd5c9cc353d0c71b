/-
Interpose.Fork.Settings — how a new process reaches the daemon.

Two variables of the environment may change the defaults. A value that
makes no sense changes nothing.
-/
import Interpose.Defaults
import Interpose.Fork.Link
import Interpose.Net.Uri
import Interpose.Text.Blank
import Interpose.Text.Decimal

namespace Interpose

structure ForkSettings where
  /-- The daemon's address, or a whole URI. -/
  endpoint : String := Defaults.daemonAddress
  /-- How long each call to the daemon may take. -/
  timeout : Duration := Defaults.forkTimeout
  /-- How often a process with modules shows that it lives, if it does. -/
  heartbeat : Option Duration := some Defaults.heartbeat
  deriving DecidableEq, Repr, Inhabited

namespace ForkSettings

/-- The settings under an environment. -/
def ofEnvironment (lookup : String → Option String) : ForkSettings :=
  let defaults : ForkSettings := {}
  let address := (lookup Defaults.addressVariable).map fun s => String.ofList (Text.trim s.toList)
  let millis := (lookup Defaults.timeoutVariable).bind fun s =>
    Text.uint64? (String.ofList (Text.trim s.toList))
  { defaults with
    endpoint := (address.filter (· ≠ "")).getD defaults.endpoint
    timeout := ((millis.filter (· ≠ 0)).map Duration.ofMillis).getD defaults.timeout }

def withoutHeartbeat (s : ForkSettings) : ForkSettings := { s with heartbeat := none }

def uri (s : ForkSettings) : String := Defaults.endpointUri s.endpoint

/-- Prepares the line to the daemon; nobody is called yet. Answers how long a
call may take. -/
def prepare (s : ForkSettings) : Except LinkError Duration :=
  if Net.Uri.isValid s.uri then .ok s.timeout else .error (.invalid s.uri)

end ForkSettings

end Interpose
