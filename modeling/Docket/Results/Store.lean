import Docket.Host.Basic
import Docket.Results.Record

/-! The folder of results: the record of a document lies in a folder of its template, under
the document's name without its ending. -/
namespace Docket

structure ResultStore where
  root : String

/-- Why a record could not be loaded. -/
inductive LoadError
  | disk (e : DiskError)
  | record (f : Json.Fault)

def LoadError.message : LoadError → String
  | disk e => e.message
  | record f => f.message

namespace ResultStore

/-- Where the record of a document lies. -/
def recordPath (s : ResultStore) (templateId document : String) : String :=
  let stem := (Path.stem? document).getD "document"
  Path.join (Path.join s.root templateId) (stem ++ ".json")

variable {m : Type → Type} [Monad m] [Host m]

/-- Whether there is a record that was written no earlier than the document. -/
def isCurrent (s : ResultStore) (templateId document : String) : m Bool := do
  match ← Host.modified? (s.recordPath templateId document), ← Host.modified? document with
  | some record, some source => return source ≤ record
  | _, _ => return false

/-- Writes a record and tells where. -/
def save (s : ResultStore) (r : DocumentRecord) : m (Except DiskError String) := do
  let path := s.recordPath r.templateId r.document
  match ← Host.makeParents path with
  | .error e => return .error e
  | .ok () => return (← Host.writeText path (Json.pretty r.toJson)).map fun () => path

/-- Reads the record at a path. -/
def load (path : String) : m (Except LoadError DocumentRecord) := do
  match ← Host.readText path with
  | .error e => return .error (.disk e)
  | .ok text => return (Json.decodeText DocumentRecord.decoder text).mapError .record

end ResultStore
end Docket
