/-
Interpose.Registry.Shape — the shape of the registry's file, for complaints.

`Registry.Document` says how the file is read; where that fails, this shape
is what the file is held against to tell what is wrong with it.
-/
import Interpose.Json.Complaint

namespace Interpose.Registry

open Json (Shape)

def targetShape : Shape :=
  .record "struct TargetSpec" [("app_id", true, .text), ("user_id", false, .optional .natural32)]

def scopeShape : Shape :=
  .record "adjacently tagged enum ModuleScope"
    [("kind", true, .choice ["all", "apps"]), ("targets", false, .list targetShape)]

def entryShape : Shape :=
  .record "struct EntryPointSpec" [("code_path", true, .text), ("symbol", true, .text)]

def moduleShape : Shape :=
  .record "struct Module"
    [("id", true, .text), ("enabled", true, .truth), ("scope", false, scopeShape),
     ("entry_points", true, .list entryShape), ("priority", false, .integer32),
     ("install_seq", false, .natural64)]

def documentShape : Shape :=
  .record "struct RegistryFile"
    [("version", true, .natural64), ("next_seq", true, .natural64),
     ("modules", true, .table moduleShape)]

def sealedShape : Shape :=
  .record "struct SignedWrapper" [("data", true, documentShape), ("signature", true, .text)]

/-- What is wrong with a file that does not hold a signed document. -/
def complaint (bytes : List UInt8) : String :=
  (Json.complaint? sealedShape bytes).getD "no registry document"

end Interpose.Registry
