/-
Interpose.Control.Dial — finding the daemon.
-/
import Interpose.Control.Error
import Interpose.Defaults
import Interpose.Net.Uri

namespace Interpose.Control

/-- The endpoint behind an address, if the address names one and somebody
answers there; `answers` tells where that is so. -/
def dial (answers : String → Bool) (address : String) : Except Failure String :=
  let endpoint := Defaults.endpointUri address
  if !Net.Uri.isValid endpoint then
    .error (.usage ("invalid daemon address '" ++ address ++ "': invalid URI"))
  else if answers endpoint then .ok endpoint
  else .error (.noDaemon endpoint "transport error")

end Interpose.Control
