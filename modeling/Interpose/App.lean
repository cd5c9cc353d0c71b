/-
Interpose.App — the identity of a process that has just been forked.
-/
namespace Interpose

/-- What the host tells about a new process: the application it belongs to,
the user it runs for, and the name it runs under. Scopes look at the first
two only. -/
structure AppDescriptor where
  appId : String := ""
  userId : UInt32 := 0
  processName : String := ""
  deriving DecidableEq, Repr, Inhabited

end Interpose
