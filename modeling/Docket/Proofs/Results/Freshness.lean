import Mathlib
import Docket.Proofs.Json.Atoms
import Docket.Proofs.Json.Pretty
import Docket.Proofs.Results.Processing
import Docket.Proofs.Results.Storing

/-! When a record counts as current although its document has changed. Batches visit a document in
three steps, a writer replaces its content, and the steps mix. A record is dated by the moment it
was stored, so what is written between the reading of the document and that moment passes for
older than the record; any other write makes the record count as old until a batch has read the
document again. -/
namespace Docket
open Machine FileTree

/-- A document of one template, as the batches of an installation see it. -/
structure Errand where
  settings : Settings Float
  catalog : Catalog Float
  path : String
  templateId : String

/-- How far a batch has come with the document. -/
inductive Visit
  | asking (period : Period)
  | reading (period : Period)
  | storing (r : DocumentRecord)
  | ended

def Visit.isStoring : Visit → Bool
  | storing _ => true
  | _ => false

namespace Errand

def store (e : Errand) : ResultStore := ⟨e.settings.pipeline.output⟩

def recordPath (e : Errand) : String := e.store.recordPath e.templateId e.path

def document (e : Errand) (period : Period) : IntakeDocument := ⟨e.path, e.templateId, period⟩

def isCurrent (e : Errand) (m : Machine) : Bool :=
  ((e.store.isCurrent e.templateId e.path : StateM Machine Bool).run m).1

def next (e : Errand) : Visit → StateM Machine Visit
  | .asking period => do
    return if ← e.store.isCurrent e.templateId e.path then .ended else .reading period
  | .reading period => do
    return .storing (← Batch.record e.settings e.catalog (e.document period))
  | .storing r => do
    let _ ← e.store.saving r
    return .ended
  | .ended => return .ended

theorem run_isCurrent (e : Errand) (m : Machine) :
    (e.store.isCurrent e.templateId e.path : StateM Machine Bool).run m = (e.isCurrent m, m) := by
  rw [isCurrent, ResultStore.run_isCurrent]

theorem next_asking (e : Errand) (period : Period) (m : Machine) :
    (e.next (.asking period)).run m = (if e.isCurrent m then .ended else .reading period, m) := by
  rw [next, run_bind_of (run_isCurrent e m)]
  rfl

theorem next_reading (e : Errand) (period : Period) (m : Machine) :
    (e.next (.reading period)).run m =
      (.storing (Batch.outcome e.settings e.catalog (e.document period) m.clock
        (m.opening e.path)), m) := by
  rw [next, run_bind_of (Batch.run_record e.settings e.catalog (e.document period) m)]
  rfl

theorem next_storing (e : Errand) (r : DocumentRecord) (m : Machine) :
    (e.next (.storing r)).run m = (.ended, ((e.store.saving r).run m).2) := by
  rw [next, StateT.run_bind]
  rfl

theorem run_refreshed (s : Settings Float) (c : Catalog Float) (lock : Lock)
    (summary : BatchSummary) (records : List DocumentRecord) (m : Machine) :
    ((do
      match ← lock.refresh with
      | .ok false => return (summary, records)
      | _ => Batch.processAll s c lock summary records [] :
      StateM Machine (BatchSummary × List DocumentRecord)).run m).2 =
      ((lock.refresh : StateM Machine (Except DiskError Bool)).run m).2 := by
  rw [StateT.run_bind]
  generalize (lock.refresh : StateM Machine (Except DiskError Bool)).run m = refreshed
  obtain ⟨_ | _ | _, m'⟩ := refreshed <;> rfl

/-- A visit that nothing comes between stores what a batch stores of the document. -/
theorem run_processAll (e : Errand) (lock : Lock) (summary : BatchSummary)
    (records : List DocumentRecord) (period : Period) (m : Machine) :
    ((Batch.processAll e.settings e.catalog lock summary records [e.document period] :
      StateM Machine (BatchSummary × List DocumentRecord)).run m).2 =
      ((lock.refresh : StateM Machine (Except DiskError Bool)).run
        ((e.next (.reading period) >>= e.next).run m).2).2 := by
  have path : (e.document period).path = e.path := rfl
  rw [Batch.processAll, run_bind_of (Batch.run_record e.settings e.catalog (e.document period) m),
    run_bind_of (next_reading e period m), next_storing, path]
  generalize Batch.outcome e.settings e.catalog (e.document period) m.clock (m.opening e.path) = r
  simp only [ResultStore.saving, store]
  rw [StateT.run_bind]
  generalize (ResultStore.save _ r : StateM Machine (Except DiskError String)).run m = stored
  exact run_refreshed e.settings e.catalog lock _ _ stored.2

def source (e : Errand) (m : Machine) : Location := placeOf m.home e.path

def target (e : Errand) (m : Machine) : Location := placeOf m.home e.recordPath

/-- A record that processing the document makes of a content. -/
def Tells (e : Errand) (content : Content) (r : DocumentRecord) : Prop :=
  ∃ period time, r = Batch.outcome e.settings e.catalog (e.document period) time
    (documentOf content)

/-- The text at the record's path, if there is one, was made of the document's content. -/
def Reflects (e : Errand) (m : Machine) : Prop :=
  ∃ content, m.Opens e.path content ∧
    ∀ text, m.Opens e.recordPath (.text text) →
      ∃ r, e.Tells content r ∧ text = Json.pretty r.toJson

structure Scene where
  machine : Machine
  visit : Visit

/-- What may happen next: a batch comes to the document, takes a step, the document's content is
replaced, the clock is set, or something is done that leaves the document and its record alone. -/
inductive Turn (e : Errand)
  | visit (period : Period)
  | step
  | write (content : Content)
  | clock (time : Time)
  | aside (act : Machine → Machine)
      (spares : ∀ m : Machine,
        m.Keeps (fun place => place = e.source m ∨ place = e.target m) (act m))

/-- Storing a record that belongs elsewhere, as of another document of the batch. -/
def Turn.other {e : Errand} (r : DocumentRecord)
    (apart : ∀ home, let place := placeOf home (e.store.recordPath r.templateId r.document)
      placeOf home e.path ≠ place ∧ placeOf home e.recordPath ≠ place) : e.Turn :=
  .aside (fun m => ((e.store.saving r).run m).2) fun m =>
    (e.store.saved r m).keeps.mono fun _ spared here =>
      spared.elim (fun source => (apart m.home).1 (source.symm.trans here))
        fun target => (apart m.home).2 (target.symm.trans here)

def Turn.isWrite {e : Errand} : e.Turn → Bool
  | write _ => true
  | _ => false

def turn (e : Errand) (s : Scene) : e.Turn → Scene
  | .visit period =>
    match s.visit with
    | .ended => { s with visit := .asking period }
    | _ => s
  | .step =>
    let after := (e.next s.visit).run s.machine
    ⟨after.2, after.1⟩
  | .write content =>
    match s.machine.tree.write s.machine.home e.path content s.machine.clock with
    | .ok tree => { s with machine := { s.machine with tree } }
    | .error _ => s
  | .clock time => { s with machine := { s.machine with clock := time } }
  | .aside act _ => { s with machine := act s.machine }

def run (e : Errand) (s : Scene) (turns : List e.Turn) : Scene := turns.foldl e.turn s

/-- The document is a file that can be reached, and not the file of its own record. -/
structure Stands (e : Errand) (m : Machine) : Prop where
  reached : ∃ place, m.tree.locate m.home e.path = .ok place
  file : (m.tree.fileAt (e.source m)).isSome = true
  apart : e.target m ≠ e.source m

/-- A record as new as the document was made of its content, and so is one about to be stored. -/
structure Faithful (e : Errand) (s : Scene) : Prop where
  standing : ∀ content written text recorded,
    s.machine.tree.fileAt (e.source s.machine) = some (content, written) →
    s.machine.tree.fileAt (e.target s.machine) = some (.text text, recorded) →
    written ≤ recorded → ∃ r, e.Tells content r ∧ text = Json.pretty r.toJson
  storing : ∀ r content written, s.visit = .storing r →
    s.machine.tree.fileAt (e.source s.machine) = some (content, written) → e.Tells content r

/-- No visit is between its reading and its storing, and the record that stands is older than
the present. -/
def Quiet (e : Errand) (s : Scene) : Prop :=
  s.visit.isStoring = false ∧
    ∀ file ∈ s.machine.tree.fileAt (e.target s.machine), file.2 < s.machine.clock

instance (e : Errand) (s : Scene) : Decidable (e.Quiet s) := inferInstanceAs (Decidable (_ ∧ _))

/-- The last of the writes, if there is one, finds its scene quiet. -/
def LastQuiet (e : Errand) : Scene → List e.Turn → Prop
  | _, [] => True
  | s, t :: turns =>
    (t.isWrite = true → turns.any Turn.isWrite = true ∨ e.Quiet s) ∧ e.LastQuiet (e.turn s t) turns

def LastQuiet.decide (e : Errand) : (s : Scene) → (turns : List e.Turn) →
    Decidable (e.LastQuiet s turns)
  | _, [] => inferInstanceAs (Decidable True)
  | s, t :: turns =>
    have := LastQuiet.decide e (e.turn s t) turns
    inferInstanceAs (Decidable (_ ∧ _))

instance (e : Errand) (s : Scene) (turns : List e.Turn) : Decidable (e.LastQuiet s turns) :=
  LastQuiet.decide e s turns

theorem current_modified {e : Errand} {m : Machine} (current : e.isCurrent m = true) :
    ∃ record source, m.tree.standing m.home e.recordPath = some record ∧
      m.tree.standing m.home e.path = some source ∧ source.modified ≤ record.modified := by
  rw [isCurrent, ResultStore.run_isCurrent] at current
  split at current
  · rename_i record source standsRecord standsSource
    exact ⟨record, source, standsRecord, standsSource, of_decide_eq_true current⟩
  · cases current

theorem reflects_of_faithful {e : Errand} {s : Scene} (stands : e.Stands s.machine)
    (faithful : e.Faithful s) (current : e.isCurrent s.machine = true) :
    e.Reflects s.machine := by
  obtain ⟨record, source, standsRecord, standsSource, newer⟩ := current_modified current
  obtain ⟨⟨content, written⟩, file⟩ := Option.isSome_iff_exists.mp stands.file
  have opened : s.machine.Opens e.path content :=
    (opens_iff s.machine e.path content).mpr ⟨stands.reached, written, file⟩
  refine ⟨content, opened, fun text stored => ?_⟩
  exact faithful.standing content source.modified text record.modified
    (fileAt_of_opens opened standsSource) (fileAt_of_opens stored standsRecord) newer

theorem Stands.of_keeps {e : Errand} {m m' : Machine} {at' : Location → Prop}
    (stands : e.Stands m) (kept : m.Keeps at' m')
    (file : (m'.tree.fileAt (e.source m)).isSome = true) : e.Stands m' := by
  obtain ⟨place, located⟩ := stands.reached
  refine ⟨⟨place, ?_⟩, ?_, ?_⟩
  · rw [kept.home]
    exact locate_of_more kept.tree.folders located
  · rwa [source, kept.home]
  · rw [target, source, kept.home]
    exact stands.apart

theorem Faithful.of_same {e : Errand} {s s' : Scene} (faithful : e.Faithful s)
    (home : s'.machine.home = s.machine.home)
    (source : s'.machine.tree.fileAt (e.source s.machine) =
      s.machine.tree.fileAt (e.source s.machine))
    (target : s'.machine.tree.fileAt (e.target s.machine) =
      s.machine.tree.fileAt (e.target s.machine))
    (visit : s'.visit.isStoring = true → s'.visit = s.visit) : e.Faithful s' := by
  have sources : e.source s'.machine = e.source s.machine := by rw [Errand.source, home]; rfl
  have targets : e.target s'.machine = e.target s.machine := by rw [Errand.target, home]; rfl
  constructor
  · intro content written text recorded
    rw [sources, targets, source, target]
    exact faithful.standing content written text recorded
  · intro r content written storing
    rw [sources, source]
    refine faithful.storing r content written ?_
    rw [← visit (by rw [storing]; rfl), storing]

theorem stands_turn {e : Errand} {s : Scene} (stands : e.Stands s.machine) (t : e.Turn) :
    e.Stands (e.turn s t).machine := by
  cases t with
  | visit period =>
    rw [turn]
    split <;> exact stands
  | step =>
    rw [turn]
    cases s.visit with
    | asking period => rw [next_asking]; exact stands
    | reading period => rw [next_reading]; exact stands
    | storing r =>
      rw [next_storing]
      have saved := e.store.saved r s.machine
      generalize (e.store.saving r).run s.machine = answer at saved ⊢
      exact stands.of_keeps saved.keeps (saved.isSome_fileAt stands.file)
    | ended => exact stands
  | write content =>
    simp only [turn]
    split
    · rename_i tree written
      obtain ⟨-, there, kept⟩ := write_ok written
      have kept' : s.machine.Keeps (· ≠ e.source s.machine) { s.machine with tree } :=
        ⟨rfl, rfl, kept⟩
      exact stands.of_keeps kept' (Option.isSome_of_mem there)
    · exact stands
  | clock time => exact ⟨stands.reached, stands.file, stands.apart⟩
  | aside act spares =>
    have kept := spares s.machine
    refine stands.of_keeps kept ?_
    have same := kept.tree.files (e.source s.machine) (.inl rfl)
    exact (congrArg Option.isSome same).trans stands.file

/-- A record that processing the document makes is stored at the document's record path. -/
theorem Tells.path {e : Errand} {content : Content} {r : DocumentRecord}
    (tells : e.Tells content r) : e.store.recordPath r.templateId r.document = e.recordPath := by
  obtain ⟨period, time, rfl⟩ := tells
  obtain ⟨document, templateId⟩ := Batch.outcome_names e.settings e.catalog (e.document period)
    time (documentOf content)
  rw [document, templateId]
  rfl

theorem tells_reading {e : Errand} {m : Machine} (stands : e.Stands m) (period : Period)
    {content : Content} {written : Time}
    (file : m.tree.fileAt (e.source m) = some (content, written)) :
    e.Tells content (Batch.outcome e.settings e.catalog (e.document period) m.clock
      (m.opening e.path)) := by
  have opened : m.Opens e.path content :=
    (opens_iff m e.path content).mpr ⟨stands.reached, written, file⟩
  rw [opening_of_opens opened]
  exact ⟨period, m.clock, rfl⟩

theorem faithful_stored {e : Errand} {s : Scene} (stands : e.Stands s.machine)
    (faithful : e.Faithful s) {r : DocumentRecord} (storing : s.visit = .storing r) :
    e.Faithful ⟨((e.store.saving r).run s.machine).2, .ended⟩ := by
  obtain ⟨⟨content, written⟩, file⟩ := Option.isSome_iff_exists.mp stands.file
  have tells := faithful.storing r content written storing file
  have saved := e.store.saved r s.machine
  rw [tells.path] at saved
  generalize (e.store.saving r).run s.machine = answer at saved ⊢
  obtain ⟨result, m⟩ := answer
  have home : m.home = s.machine.home := saved.keeps.home
  have source : m.tree.fileAt (e.source s.machine) = s.machine.tree.fileAt (e.source s.machine) :=
    saved.keeps.tree.files _ stands.apart.symm
  rcases saved.fileAt_cases with fresh | same
  · -- The record has just been written, and the document is what it was when it was read.
    refine ⟨fun content' written' text recorded file' stored newer => ?_, fun _ _ _ ended => ?_⟩
    · dsimp only at file' stored
      rw [Errand.source, home] at file'
      rw [Errand.target, home] at stored
      have contents := (file'.symm.trans source).trans file
      have texts := stored.symm.trans fresh
      cases contents
      cases texts
      exact ⟨r, tells, rfl⟩
    · cases ended
  · exact faithful.of_same home source same fun storing => by cases storing

theorem faithful_turn {e : Errand} {s : Scene} (stands : e.Stands s.machine)
    (faithful : e.Faithful s) {t : e.Turn} (other : t.isWrite = false) :
    e.Faithful (e.turn s t) := by
  cases t with
  | visit period =>
    rw [turn]
    split
    · exact faithful.of_same rfl rfl rfl fun storing => by cases storing
    · exact faithful
  | step =>
    rw [turn]
    cases visit : s.visit with
    | asking period =>
      rw [next_asking]
      refine faithful.of_same rfl rfl rfl fun storing => ?_
      dsimp only at storing
      split at storing <;> cases storing
    | reading period =>
      rw [next_reading]
      refine ⟨faithful.standing, fun r content written reads file => ?_⟩
      cases reads
      exact tells_reading stands period file
    | storing r =>
      rw [next_storing]
      dsimp only
      exact faithful_stored stands faithful visit
    | ended => exact faithful.of_same rfl rfl rfl fun storing => by cases storing
  | write content => cases other
  | clock time => exact faithful.of_same rfl rfl rfl fun _ => rfl
  | aside act spares =>
    have kept := spares s.machine
    exact faithful.of_same kept.home (kept.tree.files _ (.inl rfl)) (kept.tree.files _ (.inr rfl))
      fun _ => rfl

theorem faithful_write {e : Errand} {s : Scene} (stands : e.Stands s.machine) (quiet : e.Quiet s)
    (content : Content) : e.Faithful (e.turn s (.write content)) := by
  obtain ⟨place, located⟩ := stands.reached
  obtain ⟨file, there⟩ := Option.isSome_iff_exists.mp stands.file
  have here : place = e.source s.machine := locate_eq_placeOf located
  subst here
  obtain ⟨tree, written⟩ := write_of_fileAt located there content s.machine.clock
  obtain ⟨-, source, kept⟩ := write_ok written
  have target := kept.files (e.target s.machine) stands.apart
  rw [turn, written]
  refine ⟨fun content' written' text recorded file' stored newer => ?_, fun r _ _ storing => ?_⟩
  · -- The document is dated by the clock, and the record that stands is older than that.
    have times := file'.symm.trans source
    have older := quiet.2 _ (target.symm.trans stored)
    cases times
    exact absurd newer (not_le.mpr older)
  · have idle := quiet.1
    rw [show s.visit = .storing r from storing] at idle
    cases idle

theorem stands_run {e : Errand} {s : Scene} (stands : e.Stands s.machine) (turns : List e.Turn) :
    e.Stands (e.run s turns).machine := by
  induction turns generalizing s with
  | nil => exact stands
  | cons t turns ih => exact ih (stands_turn stands t)

theorem faithful_run {e : Errand} {s : Scene} {turns : List e.Turn} (stands : e.Stands s.machine)
    (faithful : turns.any Turn.isWrite = false → e.Faithful s) (quiet : e.LastQuiet s turns) :
    e.Faithful (e.run s turns) := by
  -- A scene before the last write need not be faithful: what it holds is overwritten. So the
  -- induction asks for it only where no write is ahead.
  induction turns generalizing s with
  | nil => exact faithful rfl
  | cons t turns ih =>
    obtain ⟨first, rest⟩ := quiet
    refine ih (stands_turn stands t) (fun unwritten => ?_) rest
    cases written : t.isWrite with
    | false =>
      refine faithful_turn stands (faithful ?_) written
      rw [List.any_cons, written, unwritten]
      rfl
    | true =>
      have now : e.Quiet s := by
        rcases first written with more | now
        · rw [unwritten] at more
          cases more
        · exact now
      cases t with
      | write content => exact faithful_write stands now content
      | _ => cases written

/-- If the last write falls neither between the reading of the document and the storing of its
record nor at the time of the record that stands, then a record that counts as current was made of
what the document holds. -/
theorem current_reflects (e : Errand) (s : Scene) (turns : List e.Turn)
    (stands : e.Stands s.machine) (faithful : e.Faithful s) (quiet : e.LastQuiet s turns)
    (current : e.isCurrent (e.run s turns).machine = true) :
    e.Reflects (e.run s turns).machine :=
  reflects_of_faithful (stands_run stands turns) (faithful_run stands (fun _ => faithful) quiet)
    current

def intake : Machine where
  tree := ⟨[(["intake"], .folder 0),
    (["intake", "a.pdf"], .file 0 (.document (.error .encrypted)) 1000)], 1⟩
  home := []
  clock := 1000
  processId := 0
  drawn := 0

def monthly : Errand where
  settings := .standard
  catalog := ⟨[⟨"monthly", "Monthly", "", .standard, [], []⟩], [], []⟩
  path := "intake/a.pdf"
  templateId := "monthly"

def neighbour : DocumentRecord :=
  .failed "intake/b.pdf" "monthly" none (.ofTime 1000) "PDF error: PDF is encrypted"

theorem neighbour_apart (home : Location) :
    let place := placeOf home (monthly.store.recordPath neighbour.templateId neighbour.document)
    placeOf home monthly.path ≠ place ∧ placeOf home monthly.recordPath ≠ place := by
  have other := placeOf_names
    (monthly.store.recordPath neighbour.templateId neighbour.document) (by decide +kernel)
    (by decide +kernel) home
  have source := placeOf_names monthly.path (by decide +kernel) (by decide +kernel) home
  have target := placeOf_names monthly.recordPath (by decide +kernel) (by decide +kernel) home
  dsimp only
  rw [other, source, target]
  refine ⟨fun same => ?_, fun same => ?_⟩
  · have names := List.append_cancel_left same
    exact absurd names (by decide +kernel)
  · have names := List.append_cancel_left same
    exact absurd names (by decide +kernel)

/-- The document is replaced after its record has been stored, and visited again. -/
def inTurn : List monthly.Turn :=
  [.visit ⟨2024, 1⟩, .step, .step, .step, .clock 2000, .write (.document (.error .noPages)),
    .other neighbour neighbour_apart, .visit ⟨2024, 1⟩, .step, .step, .step]

/-- The document is replaced after it has been read and before its record is stored. -/
def between : List monthly.Turn :=
  [.visit ⟨2024, 1⟩, .step, .step, .clock 2000, .write (.document (.error .noPages)), .step]

theorem stands_intake : monthly.Stands intake := by
  refine ⟨⟨["intake", "a.pdf"], ?_⟩, ?_, ?_⟩
  · decide
  · decide
  · decide

theorem faithful_intake : monthly.Faithful ⟨intake, .ended⟩ := by
  have none : intake.tree.fileAt (monthly.target intake) = none := by
    rfl
  refine ⟨fun content written text recorded _ stored => ?_, fun r _ _ storing => ?_⟩
  · rw [none] at stored
    cases stored
  · cases storing

theorem current_reflects_inTurn :
    (monthly.Stands intake ∧ monthly.Faithful ⟨intake, .ended⟩ ∧
      monthly.LastQuiet ⟨intake, .ended⟩ inTurn ∧
      monthly.isCurrent (monthly.run ⟨intake, .ended⟩ inTurn).machine = true) ∧
      monthly.Reflects (monthly.run ⟨intake, .ended⟩ inTurn).machine := by
  have run : monthly.LastQuiet ⟨intake, .ended⟩ inTurn ∧
      monthly.isCurrent (monthly.run ⟨intake, .ended⟩ inTurn).machine = true := by
    decide +kernel
  obtain ⟨quiet, current⟩ := run
  exact ⟨⟨stands_intake, faithful_intake, quiet, current⟩,
    current_reflects monthly ⟨intake, .ended⟩ inTurn stands_intake faithful_intake quiet current⟩

/-- The text of the record of a document that could not be opened ends with the reason. -/
theorem pretty_failed (document templateId : String) (period : Option Period)
    (processed : Timestamp) (error : String) :
    ∃ before, (Json.pretty (DocumentRecord.failed document templateId period processed
      error).toJson).toList = before ++ ((Json.quote error).toList ++ "\n\x7d".toList) := by
  have members : (DocumentRecord.failed document templateId period processed error).toJson =
      .object (([("document", .string document), ("template_id", .string templateId)] ++
        memberOf "period" Period.toJson period ++ [("processed_at", .string processed.display)] ++
        [] ++ [("queries", .array [])]) ++ [("error", .string error)]) := rfl
  have suffix := Json.Value.pretty_suffix
    ([("document", .string document), ("template_id", .string templateId)] ++
      memberOf "period" Period.toJson period ++ [("processed_at", .string processed.display)] ++
      [] ++ [("queries", .array [])]) "error" (.string error)
  rw [Json.prettyAt] at suffix
  rw [members]
  exact suffix

def encryptedRecord : DocumentRecord :=
  .failed "intake/a.pdf" "monthly" (some ⟨2024, 1⟩) (.ofTime 1000) (PageError.note .encrypted)

theorem encryptedRecord_not_told {r : DocumentRecord}
    (tells : monthly.Tells (.document (.error .noPages)) r) :
    Json.pretty encryptedRecord.toJson ≠ Json.pretty r.toJson := by
  obtain ⟨period, time, told⟩ := tells
  have failed : r = .failed "intake/a.pdf" "monthly" (some period) (.ofTime time)
      (PageError.note .noPages) := told
  -- The texts may differ in their periods and times; it is enough that the reasons do.
  intro same
  rw [failed] at same
  obtain ⟨before, stored⟩ := pretty_failed "intake/a.pdf" "monthly" (some ⟨2024, 1⟩)
    (.ofTime 1000) (PageError.note .encrypted)
  obtain ⟨before', present⟩ := pretty_failed "intake/a.pdf" "monthly" (some period)
    (.ofTime time) (PageError.note .noPages)
  have texts := stored.symm.trans ((congrArg String.toList same).trans present)
  rw [Json.Atom.toList_quote, Json.Atom.toList_quote] at texts
  have reasons := (List.append_inj' texts (by decide)).2
  exact absurd reasons (by decide)

def overtaken : Machine where
  tree := ⟨[(["results", "monthly", "a.json"],
      .file 1 (.text (Json.pretty encryptedRecord.toJson)) 2000),
    (["results", "monthly"], .folder 2000), (["results"], .folder 2000),
    (["intake", "a.pdf"], .file 0 (.document (.error .noPages)) 2000), (["intake"], .folder 0)], 2⟩
  home := []
  clock := 2000
  processId := 0
  drawn := 0

theorem run_between : monthly.run ⟨intake, .ended⟩ between = ⟨overtaken, .ended⟩ := by
  rfl

/-- A write between the reading and the storing is lost: the record counts as current and tells of
the content before. -/
theorem between_not_reflected :
    (monthly.Stands intake ∧ monthly.Faithful ⟨intake, .ended⟩ ∧
      (monthly.run ⟨intake, .ended⟩ between).visit = .ended ∧
      monthly.isCurrent (monthly.run ⟨intake, .ended⟩ between).machine = true) ∧
      ¬ monthly.Reflects (monthly.run ⟨intake, .ended⟩ between).machine := by
  rw [run_between]
  have current : monthly.isCurrent overtaken = true := by decide +kernel
  have source : overtaken.tree.file overtaken.home monthly.path =
      .ok (["intake", "a.pdf"], 0, .document (.error .noPages)) := by rfl
  have target : overtaken.Opens monthly.recordPath
      (.text (Json.pretty encryptedRecord.toJson)) :=
    ⟨["results", "monthly", "a.json"], 1, by rfl⟩
  refine ⟨⟨stands_intake, faithful_intake, rfl, current⟩, ?_⟩
  rintro ⟨content, ⟨place, id, opened⟩, stored⟩
  rw [source] at opened
  cases opened
  obtain ⟨r, tells, same⟩ := stored _ target
  exact encryptedRecord_not_told tells same

end Errand
end Docket
