/-
Interpose.Fork.Link — a process's line to the daemon.

A link is whatever answers the four calls. It may have a state of its own,
the daemon's or a script's, which the calls change.
-/
import Interpose.Message
import Interpose.Time.Duration

namespace Interpose

inductive LinkError where
  | connect
  | timeout
  | refused
  | setup
  /-- The text does not name a daemon. -/
  | invalid (uri : String)
  deriving DecidableEq, Repr

/-- The message of a fault, where it is the process's own words. -/
def LinkError.message? : LinkError → Option String
  | invalid uri => some ("invalid daemon endpoint '" ++ uri ++ "'")
  | _ => none

/-- The daemon as one process reaches it; `σ` is what stands behind it. -/
structure Link (σ : Type) where
  queryScope : AppDescriptor → σ → Except LinkError ScopeAnswer × σ
  /-- Answers the liveness token of the session. -/
  register : Registration → σ → Except LinkError String × σ
  report : UInt32 → String → Diagnostic → σ → Except LinkError Unit × σ
  /-- Answers whether the daemon knows the session. -/
  heartbeat : UInt32 → String → σ → Except LinkError Bool × σ

/-! ## Staying known -/

/-- One beat of a process that carries modules. It shows its token; if the
daemon does not know it, or there is no token yet, it registers again and
keeps the new token. An unreachable daemon changes nothing. -/
def Link.beat {σ : Type} (link : Link σ) (reg : Registration) (token : Option String) (s : σ) :
    Option String × σ :=
  let register (s : σ) : Option String × σ :=
    match link.register reg s with
    | (.ok fresh, s) => (some fresh, s)
    | (.error _, s) => (token, s)
  match token with
  | none => register s
  | some t =>
    match link.heartbeat reg.pid t s with
    | (.error _, s) => (token, s)
    | (.ok true, s) => (token, s)
    | (.ok false, s) => register s

end Interpose
