import Docket.Command.Session
import Docket.Intake.Discovery
import Docket.Intake.Lock
import Docket.Results.Process
import Docket.Results.Table

/-! Processing the intake folder: one batch under the lock, a record for each new document
and a summary of all. -/
namespace Docket

structure RunOptions where
  once : Bool
  intake : Option String
  output : Option String
  catalog : Option String
  interval : Option Nat

/-- What became of a batch. -/
structure BatchSummary where
  processed : Nat
  succeeded : Nat
  /-- Names of the documents that failed, and why. -/
  failed : List (String × String)
  /-- Time the batch took. -/
  elapsed : Time

namespace BatchSummary

def nothing : BatchSummary := ⟨0, 0, [], 0⟩

/-- The summary with one more record. -/
def add (s : BatchSummary) (r : DocumentRecord) (name : String) : BatchSummary :=
  if r.isSuccess then { s with processed := s.processed + 1, succeeded := s.succeeded + 1 }
  else
    { s with
      processed := s.processed + 1
      failed := s.failed ++ [(name, r.error.getD "no field found")] }

/-- A number of thousandths of a unit's thousandths, without zeros at the end. -/
def decimal (n size : Nat) (places : Nat) : String :=
  let fraction := (Date.padded places (n % size)).toList.reverse.dropWhile (· == '0')
  let tail := if fraction.isEmpty then "" else "." ++ String.ofList fraction.reverse
  toString (n / size) ++ tail

/-- A span of time in the greatest unit that it fills. -/
def spanText (t : Time) : String :=
  let n := t.toNat
  if 1000000000 ≤ n then decimal n 1000000000 9 ++ "s"
  else if 1000000 ≤ n then decimal n 1000000 6 ++ "ms"
  else if 1000 ≤ n then decimal n 1000 3 ++ "µs"
  else s!"{n}ns"

def lines (s : BatchSummary) : List String :=
  let failures := if s.failed.isEmpty then []
    else ["", "Failed documents:"] ++ s.failed.map fun (name, reason) => s!"  - {name}: {reason}"
  ["", s!"✓ Processed {s.processed} documents in {spanText s.elapsed}",
    s!"   {s.succeeded} successful, {s.failed.length} failed"] ++ failures

end BatchSummary

namespace DocumentRecord

def summaryHeader : Table.Row :=
  ["filename", "template_id", "period", "status", "confidence", "fields_found", "fields_total",
    "queries", "processing_time_ms", "error"]

/-- What a summary says of a record. -/
def summaryRow (r : DocumentRecord) : Table.Row :=
  let period := (r.period.map Period.display).getD ""
  let status := if r.isSuccess then "success" else "error"
  let counts := match r.extraction with
    | some e => [fixedPlaces e.confidence 2, toString e.foundCount, toString e.fields.length,
      toString r.queries.length, toString e.milliseconds]
    | none => ["", "", "", "", ""]
  [r.fileName, r.templateId, period, status] ++ counts ++ [r.error.getD ""]

end DocumentRecord

/-- Seconds after which a lock may be taken over, in 64 bits. -/
def Pipeline.staleSeconds (p : Pipeline) : Nat := p.staleMinutes * 60 % twoTo 64

namespace RunOptions

/-- The settings with what the command line says. -/
def override (o : RunOptions) (s : Settings Float) : Settings Float :=
  let p := s.pipeline
  { s with pipeline :=
      { p with
        intake := o.intake.getD p.intake
        output := o.output.getD p.output
        catalog := o.catalog.getD p.catalog
        pollSeconds := o.interval.getD p.pollSeconds } }

end RunOptions

namespace Batch

variable {m : Type → Type} [Monad m] [Host m]

/-- The documents without a current record. -/
def pending (s : Settings Float) (c : Catalog Float) : Session m (List IntakeDocument) := do
  let p := s.pipeline
  let found ← Session.require .pattern
    (← Session.ask (Intake.discover p.intake p.filePattern c.templates))
  let store : ResultStore := ⟨p.output⟩
  found.filterM fun d => return !(← Session.ask (store.isCurrent d.templateId d.path))

/-- The record of one document of the intake. -/
def record (s : Settings Float) (c : Catalog Float) (d : IntakeDocument) : m DocumentRecord := do
  match c.template d.templateId with
  | .ok t => DocumentRecord.process s c t (c.queriesFor t.id) d.path (some d.period)
  | .error e =>
    return .failed d.path d.templateId (some d.period) (.ofTime (← Host.now)) e.message

/-- Processes documents one by one until the lock is lost; a record that cannot be stored still
counts. -/
def processAll (s : Settings Float) (c : Catalog Float) (lock : Lock) (summary : BatchSummary)
    (records : List DocumentRecord) :
    List IntakeDocument → m (BatchSummary × List DocumentRecord)
  | [] => return (summary, records)
  | d :: rest => do
    let r ← record s c d
    let _ ← ResultStore.save ⟨s.pipeline.output⟩ r
    let summary := summary.add r ((Path.fileName? d.path).getD "")
    match ← lock.refresh with
    | .ok false => return (summary, records ++ [r])
    | _ => processAll s c lock summary (records ++ [r]) rest

def writeSummary (s : Settings Float) (records : List DocumentRecord) : Session m Unit := do
  let path := Path.join s.pipeline.output "summary.csv"
  Session.demand (Host.makeParents path)
  Session.demand <| Host.writeText path <|
    Table.write (DocumentRecord.summaryHeader :: records.map DocumentRecord.summaryRow)

/-- A batch under a held lock. -/
def underLock (s : Settings Float) (c : Catalog Float) (lock : Lock) (start : Time) :
    Session m BatchSummary := do
  let documents ← pending s c
  if documents.isEmpty then return .nothing
  Session.say s!"ℹ Found {documents.length} documents to process"
  let (summary, records) ← Session.ask (processAll s c lock .nothing [] documents)
  writeSummary s records
  return { summary with elapsed := (← Session.ask (Host.now : m Time)) - start }

/-- A batch; none is run while another holds the lock. The lock is given back in any case. -/
def run (s : Settings Float) (c : Catalog Float) : Session m BatchSummary := do
  let start ← Session.ask (Host.now : m Time)
  let request := Lock.Request.of s.pipeline.intake s.pipeline.staleSeconds
  match ← Session.demand (Lock.acquire request) with
  | none => return .nothing
  | some lock =>
    try
      let summary ← underLock s c lock start
      Session.ask lock.release
      return summary
    catch e =>
      Session.ask lock.release
      throw e

end Batch

namespace RunOptions

variable {m : Type → Type} [Monad m] [Host m]

/-- The settings and the catalog of a run. -/
def prepare (o : RunOptions) (named : Option String) (usual : String) :
    Session m (Settings Float × Catalog Float) := do
  let settings := o.override (← Session.settings named usual)
  if !(← Session.ask (Host.isFolder settings.pipeline.intake)) then
    throw (.noIntake settings.pipeline.intake)
  return (settings, ← Session.catalog settings.pipeline.catalog)

def printSummary (s : BatchSummary) : Session m Unit := s.lines.forM Session.say

/-- Processes a single batch. -/
def runOnce (o : RunOptions) (named : Option String) (usual : String) : Session m Unit := do
  let (settings, catalog) ← o.prepare named usual
  printSummary (← Batch.run settings catalog)

end RunOptions
end Docket
