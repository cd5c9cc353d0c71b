/-
Interpose.Daemon.Manager — the daemon as its clients reach it.
-/
import Interpose.Daemon.Service
import Interpose.Control.Manager

namespace Interpose

/-- What a client gets of a call. -/
def statusOf {α : Type} (r : Except CallFault α) : Except Status α := r.mapError CallFault.status

/-- Each call is answered at once, and the log is written before the next. -/
def Daemon.manager : Control.Manager Daemon where
  status d := (.ok d.status, d)
  registry d := (.ok d.getRegistry, d)
  mutate r d :=
    let (a, d) := d.mutateRegistry r
    (statusOf a, d.settle)
  sessions d := (.ok d.listSessions, d)
  readLog q d := (statusOf (d.readLog q), d)
  watch _ d := (.ok (), d)

end Interpose
