import Docket.Command.Run
import Docket.Proofs.Host.Writing

/-! Processing on a machine: it leaves the machine as it is, and its record names the document
and the template it was asked for. -/
namespace Docket

theorem Catalog.template_id {α : Type} {c : Catalog α} {id : String} {t : Template α}
    (found : c.template id = .ok t) : t.id = id := by
  unfold template at found
  split at found
  · rename_i known
    cases found
    simpa using List.find?_some known
  · cases found

namespace Machine

/-- What opening a document on a machine gives. -/
def opening (m : Machine) (path : String) : Except PageError (Pdf.Document Float) :=
  match m.tree.file m.home path with
  | .ok (_, _, content) => documentOf content
  | .error e => .error (.parse s!"{path}: {e.message}")

theorem opening_of_opens {m : Machine} {path : String} {content : Content}
    (opened : m.Opens path content) : m.opening path = documentOf content := by
  obtain ⟨place, id, file⟩ := opened
  rw [opening, file]

theorem run_openDocument (m : Machine) (path : String) :
    (openDocument path : StateM Machine (Except PageError (Pdf.Document Float))).run m =
      (m.opening path, m) := by
  have read : (Host.readDocument path : StateM Machine
      (Except DiskError (Except PageError (Pdf.Document Float)))).run m =
      ((m.tree.file m.home path).map fun found => documentOf found.2.2, m) := rfl
  rw [openDocument, run_bind_of read, opening]
  cases m.tree.file m.home path <;> rfl

end Machine

namespace DocumentRecord
open Machine

/-- The record of a document that opened so at a time. -/
def outcome (s : Settings Float) (c : Catalog Float) (t : Template Float) (queries : List Query)
    (path : String) (period : Option Period) (time : Time) :
    Except PageError (Pdf.Document Float) → DocumentRecord
  | .error e => failed path t.id period (.ofTime time) e.note
  | .ok document =>
    let found := Extraction.ofDocument s.extraction s.calibration t document
    let extraction := { found with milliseconds := 0 }
    ⟨path, t.id, period, .ofTime time, some extraction,
      queries.map fun q => c.answer q extraction.numbers, none⟩

theorem run_process (s : Settings Float) (c : Catalog Float) (t : Template Float)
    (queries : List Query) (path : String) (period : Option Period) (m : Machine) :
    (process s c t queries path period : StateM Machine DocumentRecord).run m =
      (outcome s c t queries path period m.clock (m.opening path), m) := by
  have now : (Host.now : StateM Machine Time).run m = (m.clock, m) := rfl
  have elapsed : (Host.millisecondsSince m.clock : StateM Machine Nat).run m = (0, m) := by
    show (((m.clock - m.clock).toNat / 1000000 : Nat), m) = (0, m)
    rw [Int.sub_self]
    rfl
  rw [process, run_bind_of now, run_bind_of (run_openDocument m path)]
  cases m.opening path with
  | error e => rfl
  | ok document =>
    dsimp only
    rw [run_bind_of elapsed]
    rfl

theorem outcome_names (s : Settings Float) (c : Catalog Float) (t : Template Float)
    (queries : List Query) (path : String) (period : Option Period) (time : Time)
    (opened : Except PageError (Pdf.Document Float)) :
    (outcome s c t queries path period time opened).document = path ∧
      (outcome s c t queries path period time opened).templateId = t.id := by
  cases opened <;> exact ⟨rfl, rfl⟩

end DocumentRecord

namespace Batch
open Machine

/-- The record of a document of the intake that opened so at a time. -/
def outcome (s : Settings Float) (c : Catalog Float) (d : IntakeDocument) (time : Time)
    (opened : Except PageError (Pdf.Document Float)) : DocumentRecord :=
  match c.template d.templateId with
  | .ok t => .outcome s c t (c.queriesFor t.id) d.path (some d.period) time opened
  | .error e => .failed d.path d.templateId (some d.period) (.ofTime time) e.message

theorem run_record (s : Settings Float) (c : Catalog Float) (d : IntakeDocument) (m : Machine) :
    (record s c d : StateM Machine DocumentRecord).run m =
      (outcome s c d m.clock (m.opening d.path), m) := by
  rw [record, outcome]
  cases c.template d.templateId with
  | ok t => exact DocumentRecord.run_process s c t _ d.path _ m
  | error e => rfl

theorem outcome_names (s : Settings Float) (c : Catalog Float) (d : IntakeDocument) (time : Time)
    (opened : Except PageError (Pdf.Document Float)) :
    (outcome s c d time opened).document = d.path ∧
      (outcome s c d time opened).templateId = d.templateId := by
  rw [outcome]
  cases found : c.template d.templateId with
  | ok t =>
    have names := DocumentRecord.outcome_names s c t (c.queriesFor t.id) d.path (some d.period)
      time opened
    exact ⟨names.1, names.2.trans (Catalog.template_id found)⟩
  | error e => exact ⟨rfl, rfl⟩

end Batch
end Docket
