import Docket.Catalog.Basic
import Docket.Host.Basic
import Docket.Results.Record

/-! Processing one document: extraction by a template and the queries over its fields. -/
namespace Docket

variable {m : Type → Type} [Monad m] [Host m]

/-- Milliseconds since a point in time. -/
def Host.millisecondsSince (start : Time) : m Nat := do
  return ((← now) - start).toNat / 1000000

/-- Runs a query over the fields of a document. -/
def Catalog.answer (c : Catalog Float) (q : Query) (fields : List (String × Float)) : Calculation :=
  .run q (q.inputs (.ofList fields) c.sharedConstants)

/-- What a record notes about a document that cannot be read. -/
def PageError.note (e : PageError) : String := s!"PDF error: {e.message}"

/-- Opens a document; a file that cannot be read is no document. -/
def openDocument (path : String) : m (Except PageError (Pdf.Document Float)) := do
  match ← Host.readDocument path with
  | .ok document => return document
  | .error e => return .error (.parse s!"{path}: {e.message}")

/-- The record of a document: its fields and the queries over them, or why it failed. -/
def DocumentRecord.process (s : Settings Float) (c : Catalog Float) (t : Template Float)
    (queries : List Query) (path : String) (period : Option Period) : m DocumentRecord := do
  let start ← Host.now
  match ← openDocument path with
  | .error e => return failed path t.id period (.ofTime (← Host.now)) e.note
  | .ok document =>
    let found := Extraction.ofDocument s.extraction s.calibration t document
    let extraction := { found with milliseconds := ← Host.millisecondsSince start }
    let calculations := queries.map fun q => c.answer q extraction.numbers
    let processed := Timestamp.ofTime (← Host.now)
    return ⟨path, t.id, period, processed, some extraction, calculations, none⟩

end Docket
