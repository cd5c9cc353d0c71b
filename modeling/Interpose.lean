import Interpose.Defaults
import Interpose.Diagnostic
import Interpose.Module
import Interpose.Method.Resolve
import Interpose.Control.Target
import Interpose.Host.Run
import Interpose.Script.Setup
import Interpose.Script.Link
import Interpose.Wire.Messages
import Interpose.Json.Parser
import Interpose.Json.Printer
import Interpose.Json.Record
import Interpose.Json.Complaint
import Interpose.Registry.Live
import Interpose.Exchange.Scripts
import Interpose.Exchange.Accounts
import Interpose.Exchange.Calls
import Interpose.Exchange.Commands
import Interpose.Log.Writer
import Interpose.Session.Table
import Interpose.Fork.Settings
import Interpose.Daemon.Link
import Interpose.Daemon.Manager
import Interpose.Control.LogLine
import Interpose.Control.Run
import Interpose.Control.Dial
import Interpose.Main
import Interpose.Proofs.Hook.Reference
import Interpose.Proofs.Hook.CallThrough
import Interpose.Proofs.Apply.Isolation
import Interpose.Proofs.Fork.Trail
import Interpose.Proofs.Keyed
import Interpose.Proofs.Text.Bytes
import Interpose.Proofs.Json.Lexing
import Interpose.Proofs.Json.RoundTrip
import Interpose.Proofs.Disk
import Interpose.Proofs.Registry.Written
import Interpose.Proofs.Registry.Store
import Interpose.Proofs.Registry.Document
import Interpose.Proofs.Registry.Life
import Interpose.Proofs.Registry.Calls
import Interpose.Proofs.Registry.Linear
import Interpose.Proofs.Registry.Durable
import Interpose.Proofs.Wire.Field
import Interpose.Proofs.Wire.Codec
import Interpose.Proofs.Wire.Messages
import Interpose.Proofs.Registry.Scope
import Interpose.Proofs.Fork.Agreement
import Interpose.Proofs.Registry.Watching
import Interpose.Proofs.Fork.Containment
import Interpose.Proofs.Fork.Mirror
import Interpose.Proofs.Session.Liveness
import Interpose.Proofs.Registry.Sealed
import Interpose.Proofs.Daemon.Changes
import Interpose.Proofs.Log.Flush
import Interpose.Proofs.Log.Pipeline
import Interpose.Proofs.Json.Printing
import Interpose.Proofs.Control.Backup
import Interpose.Proofs.Control.Act
import Interpose.Proofs.Control.Restore
import Interpose.Proofs.Control.Order
import Interpose.Proofs.Control.Pieces
import Interpose.Proofs.Control.Scoped
import Interpose.Proofs.Log.Following
import Interpose.Proofs.Wire.Length
import Interpose.Proofs.Wire.Growth
import Interpose.Proofs.Wire.RoundTrip
import Interpose.Proofs.Hook.Bookkeeping
import Interpose.Proofs.Log.Locked
import Interpose.Proofs.Registry.Boot
import Interpose.Proofs.Hook.InFlight
import Interpose.Proofs.Text.Cut
import Interpose.Proofs.Method.Grammar
import Interpose.Proofs.Scope
import Interpose.Proofs.Registry.Edits
import Interpose.Proofs.Session.Stale
import Interpose.Proofs.Session.Reaping
import Interpose.Proofs.Apply.Tenancy
import Interpose.Proofs.Method.Resolution
import Interpose.Proofs.Log.Entries
import Interpose.Proofs.Text.Decimal
import Interpose.Proofs.Control.Listing
import Interpose.Proofs.Control.Installing
import Interpose.Proofs.Hook.Forms
import Interpose.Proofs.Host.Classes
import Interpose.Proofs.Host.Nesting
import Interpose.Proofs.Host.Initialisers
import Interpose.Proofs.Host.Unhooked
import Interpose.Proofs.Apply.Recording
