/-
Interpose.Daemon.Link — a process's line that ends at a daemon.

The line carries each call to the daemon and back. Whatever the daemon
refuses looks the same to the process. A line on which nobody answers is
the other extreme: it fails before anything is asked.
-/
import Interpose.Daemon.Service
import Interpose.Fork.Link

namespace Interpose

/-- What a process gets of a call that the daemon did not answer. -/
def refusedCall {α : Type} (r : Except CallFault α) : Except LinkError α :=
  r.mapError fun _ => .refused

/-- The line of a process to a daemon that answers. -/
def Daemon.link : Link Daemon where
  queryScope app d := (refusedCall (d.queryScope { app := some app }), d)
  register r d :=
    let (a, d) := d.registerSession r
    (refusedCall (a.map (·.livenessToken)), d)
  report pid moduleId diagnostic d :=
    let (a, d) := d.reportFailure { pid, moduleId, diagnostic := some diagnostic }
    (refusedCall (a.map fun _ => ()), d)
  heartbeat pid token d :=
    let (a, d) := d.heartbeat { pid, livenessToken := token }
    (.ok a.known, d)

/-- A line on which nobody answers. -/
def Link.dead {σ : Type} : Link σ where
  queryScope _ s := (.error .connect, s)
  register _ s := (.error .connect, s)
  report _ _ _ s := (.error .connect, s)
  heartbeat _ _ s := (.error .connect, s)

end Interpose
