import Docket.Proofs.Intake.Looking
import Docket.Proofs.Intake.Routing
import Docket.Proofs.Intake.Surroundings
import Docket.Proofs.Results.RoundTrip

/-! Whose record a batch leaves where the record of a document belongs. The place is told by the
folder of the template and the document's name without its ending, so documents whose names differ
in the folder or in the ending share it. Each overwrites the record of the one before, and the
record of the last stands for all of them. -/
namespace Docket
open Machine FileTree

def recordStem (document : String) : String := (Path.stem? document).getD "document"

theorem plain_recordName (document : String) : Path.Plain (recordStem document ++ ".json") := by
  have whole : '/' ∉ (recordStem document).toList := by
    cases told : Path.stem? document with
    | none =>
      rw [recordStem, told]
      decide
    | some stem =>
      rw [recordStem, told]
      exact Path.whole_of_stem told
  have long (name : String) (short : name.length < 5) : recordStem document ++ ".json" ≠ name := by
    rintro rfl
    rw [String.length_append] at short
    have five : ".json".length = 5 := rfl
    omega
  refine ⟨long _ (by decide), long _ (by decide), long _ (by decide), ?_⟩
  rw [String.toList_append, List.mem_append]
  exact fun known => known.elim whole (by decide)

namespace ResultStore

theorem placeOf_recordPath (store : ResultStore) (home : Location) (templateId document : String) :
    placeOf home (store.recordPath templateId document) =
      placeOf home (Path.join store.root templateId) ++ [recordStem document ++ ".json"] :=
  placeOf_join (plain_recordName document) home _

theorem elsewhere_recordPath (store : ResultStore) (home : Location)
    (templateId document : String) {name : String}
    (other : ∀ stem : String, stem ++ ".json" ≠ name) :
    Elsewhere name (placeOf home (store.recordPath templateId document)) := by
  rw [Elsewhere, placeOf_recordPath, List.getLast?_append, List.getLast?_singleton]
  exact fun same => other _ (Option.some.inj same)

end ResultStore

namespace Machine

structure Stands (m : Machine) (path text : String) (written : Time) : Prop where
  located : ∃ place, m.tree.locate m.home path = .ok place
  there : m.tree.fileAt (placeOf m.home path) = some (.text text, written)

theorem Stands.of_keeps {m m' : Machine} {path text : String} {written : Time}
    {at' : Location → Prop} (stands : m.Stands path text written) (kept : m.Keeps at' m')
    (spared : at' (placeOf m.home path)) : m'.Stands path text written := by
  obtain ⟨⟨place, located⟩, there⟩ := stands
  refine ⟨⟨place, ?_⟩, ?_⟩
  · rw [kept.home]
    exact locate_of_more kept.tree.folders located
  · rw [kept.home]
    exact (kept.tree.files _ spared).trans there

theorem Stands.opens {m : Machine} {path text : String} {written : Time}
    (stands : m.Stands path text written) : m.Opens path (.text text) :=
  (opens_iff m path _).mpr ⟨stands.located, written, stands.there⟩

theorem Stands.standing {m : Machine} {path text : String} {written : Time}
    (stands : m.Stands path text written) :
    (m.tree.standing m.home path).map FileEntry.modified = some written := by
  obtain ⟨⟨place, located⟩, there⟩ := stands
  rw [standing_of_locate located, locate_eq_placeOf located]
  rw [fileAt] at there
  split at there
  · rename_i known
    cases there
    rw [known]
    rfl
  · cases there

end Machine

namespace Batch

def store (s : Settings Float) : ResultStore := ⟨s.pipeline.output⟩

def recordPath (s : Settings Float) (d : IntakeDocument) : String :=
  (store s).recordPath d.templateId d.path

def slot (s : Settings Float) (home : Location) (d : IntakeDocument) : Location :=
  placeOf home (recordPath s d)

/-- Two documents whose templates have one folder and whose names agree up to their endings. -/
def Shares (s : Settings Float) (home : Location) (d e : IntakeDocument) : Prop :=
  placeOf home (Path.join s.pipeline.output d.templateId) =
      placeOf home (Path.join s.pipeline.output e.templateId) ∧
    recordStem d.path = recordStem e.path

instance (s : Settings Float) (home : Location) (d e : IntakeDocument) :
    Decidable (Shares s home d e) := inferInstanceAs (Decidable (_ ∧ _))

theorem shares_iff {s : Settings Float} {home : Location} {d e : IntakeDocument} :
    Shares s home d e ↔ slot s home d = slot s home e := by
  rw [slot, slot, recordPath, recordPath, ResultStore.placeOf_recordPath,
    ResultStore.placeOf_recordPath, List.append_singleton_inj, String.append_left_inj]
  rfl

def told (s : Settings Float) (c : Catalog Float) (d : IntakeDocument) (m : Machine) :
    DocumentRecord := ((record s c d : StateM Machine DocumentRecord).run m).1

def storing (s : Settings Float) (c : Catalog Float) (d : IntakeDocument) (m : Machine) :
    Except DiskError String × Machine := ((store s).saving (told s c d m)).run m

/-- The machine after a document of the batch. -/
def after (s : Settings Float) (c : Catalog Float) (lock : Lock) (m : Machine)
    (d : IntakeDocument) : Machine :=
  ((lock.refresh : StateM Machine (Except DiskError Bool)).run (storing s c d m).2).2

/-- Every record is stored, and the lock is not lost. -/
def Smooth (s : Settings Float) (c : Catalog Float) (lock : Lock) :
    List IntakeDocument → Machine → Prop
  | [], _ => True
  | d :: rest, m =>
    (storing s c d m).1.isOk = true ∧
      ((lock.refresh : StateM Machine (Except DiskError Bool)).run (storing s c d m).2).1 ≠
        .ok false ∧
      Smooth s c lock rest (after s c lock m d)

def Smooth.decide (s : Settings Float) (c : Catalog Float) (lock : Lock) :
    (documents : List IntakeDocument) → (m : Machine) → Decidable (Smooth s c lock documents m)
  | [], _ => inferInstanceAs (Decidable True)
  | d :: rest, m =>
    have := Smooth.decide s c lock rest (after s c lock m d)
    inferInstanceAs (Decidable (_ ∧ _ ∧ _))

instance (s : Settings Float) (c : Catalog Float) (lock : Lock) (documents : List IntakeDocument)
    (m : Machine) : Decidable (Smooth s c lock documents m) := Smooth.decide s c lock documents m

variable {s : Settings Float} {c : Catalog Float} {lock : Lock}

theorem smooth_append {before rest : List IntakeDocument} {m : Machine} :
    Smooth s c lock (before ++ rest) m ↔
      Smooth s c lock before m ∧ Smooth s c lock rest (before.foldl (after s c lock) m) := by
  induction before generalizing m with
  | nil => simp [Smooth]
  | cons d before ih => simp only [List.cons_append, Smooth, ih, List.foldl_cons, and_assoc]

theorem run_told (s : Settings Float) (c : Catalog Float) (d : IntakeDocument) (m : Machine) :
    (record s c d : StateM Machine DocumentRecord).run m = (told s c d m, m) := by
  rw [told, run_record]

theorem told_names (s : Settings Float) (c : Catalog Float) (d : IntakeDocument) (m : Machine) :
    (told s c d m).document = d.path ∧ (told s c d m).templateId = d.templateId := by
  rw [told, run_record]
  exact outcome_names s c d m.clock (m.opening d.path)

theorem produced_told (s : Settings Float) (c : Catalog Float) (d : IntakeDocument)
    (m : Machine) : (told s c d m).Produced := by
  rw [told, record]
  cases c.template d.templateId with
  | ok t => exact .processed s c t _ d.path _ m _ rfl
  | error e => exact .failed d.path d.templateId _ m.clock e.message

theorem run_processAll {documents : List IntakeDocument} {m : Machine}
    (smooth : Smooth s c lock documents m) (summary : BatchSummary)
    (records : List DocumentRecord) :
    ((processAll s c lock summary records documents :
      StateM Machine (BatchSummary × List DocumentRecord)).run m).2 =
      documents.foldl (after s c lock) m := by
  induction documents generalizing m summary records with
  | nil => rfl
  | cons d rest ih =>
    obtain ⟨-, held, later⟩ := smooth
    have next := ih later (summary.add (told s c d m) ((Path.fileName? d.path).getD ""))
      (records ++ [told s c d m])
    simp only [List.foldl_cons, after, storing, ResultStore.saving, store] at held next ⊢
    rw [processAll, run_bind_of (run_told s c d m), run_bind, run_bind]
    split
    · rename_i lost
      exact absurd lost held
    · exact next

/-- The places that neither the lock nor the summary of a batch may take. -/
def Spared (place : Location) : Prop :=
  Elsewhere Lock.fileName place ∧ Elsewhere "summary.csv" place

theorem spared_slot (s : Settings Float) (home : Location) (d : IntakeDocument) :
    Spared (slot s home d) := by
  have ends (stem name : String) (other : name.toList.getLast? ≠ some 'n') :
      stem ++ ".json" ≠ name := by
    rintro rfl
    refine other ?_
    rw [String.toList_append, List.getLast?_append]
    rfl
  exact ⟨(store s).elsewhere_recordPath home _ _ fun stem => ends stem _ (by decide),
    (store s).elsewhere_recordPath home _ _ fun stem => ends stem _ (by decide)⟩

section Held
variable (named : lock.path = Path.join s.pipeline.intake Lock.fileName)
include named

theorem keeps_after (m : Machine) (d : IntakeDocument) :
    m.Keeps (fun place => Spared place ∧ place ≠ slot s m.home d) (after s c lock m d) := by
  have saved := (store s).saved (told s c d m) m
  obtain ⟨document, templateId⟩ := told_names s c d m
  rw [document, templateId] at saved
  refine .trans (saved.keeps.mono fun place spared => spared.2) ?_
  exact (Lock.spares_refresh named (storing s c d m).2).mono fun place spared => spared.1.1

theorem stands_after {d : IntakeDocument} {m : Machine}
    (stored : (storing s c d m).1.isOk = true) :
    (after s c lock m d).Stands (recordPath s d) (Json.pretty (told s c d m).toJson) m.clock := by
  have saved : ResultStore.Saved (recordPath s d) (Json.pretty (told s c d m).toJson) m
      (storing s c d m).2 (storing s c d m).1 := by
    have saved := (store s).saved (told s c d m) m
    obtain ⟨document, templateId⟩ := told_names s c d m
    rwa [document, templateId] at saved
  have fresh := Lock.spares_refresh named (storing s c d m).2
  have spared : Elsewhere Lock.fileName (slot s m.home d) := (spared_slot s m.home d).1
  rw [after]
  generalize (lock.refresh : StateM Machine (Except DiskError Bool)).run (storing s c d m).2 =
    refreshed at fresh ⊢
  generalize storing s c d m = answer at stored saved fresh
  obtain ⟨result, m'⟩ := answer
  cases saved with
  | stored located there kept =>
    dsimp only at located there kept fresh
    have stands : m'.Stands (recordPath s d) (Json.pretty (told s c d m).toJson) m.clock :=
      ⟨⟨_, located⟩, kept.home ▸ there⟩
    exact stands.of_keeps fresh (kept.home ▸ spared)
  | refused e kept => cases stored

theorem keeps_foldl (documents : List IntakeDocument) (m : Machine) :
    m.Keeps (fun place => Spared place ∧ ∀ d ∈ documents, slot s m.home d ≠ place)
      (documents.foldl (after s c lock) m) := by
  induction documents generalizing m with
  | nil => exact Keeps.rfl' _ m
  | cons d rest ih =>
    have first := keeps_after (c := c) named m d
    have later := ih (after s c lock m d)
    rw [first.home] at later
    -- a place is spared by the first document and by the rest for the same reason
    refine .trans (first.mono fun place spared => ?_) (later.mono fun place spared => ?_)
    · exact ⟨spared.1, Ne.symm (spared.2 d List.mem_cons_self)⟩
    · exact ⟨spared.1, fun e known => spared.2 e (List.mem_cons_of_mem d known)⟩

/-- The record of a document stands as it was stored if no later document shares its place. -/
theorem stands_foldl {before later : List IntakeDocument} {last : IntakeDocument} {m : Machine}
    (smooth : Smooth s c lock (before ++ last :: later) m)
    (others : ∀ e ∈ later, ¬ Shares s m.home e last) :
    ((before ++ last :: later).foldl (after s c lock) m).Stands (recordPath s last)
      (Json.pretty (told s c last (before.foldl (after s c lock) m)).toJson) m.clock := by
  have first := keeps_foldl (c := c) named before m
  obtain ⟨-, stored, -, -⟩ := smooth_append.mp smooth
  rw [List.foldl_append, List.foldl_cons]
  generalize before.foldl (after s c lock) m = m₁ at first stored ⊢
  have stands := stands_after named stored
  have home : (after s c lock m₁ last).home = m.home :=
    (keeps_after (c := c) named m₁ last).home.trans first.home
  -- no step moves the clock, so the record is written at the time the batch began
  rw [first.clock] at stands
  refine stands.of_keeps (keeps_foldl named later _) ⟨?_, fun e known same => ?_⟩
  · exact spared_slot s _ last
  · rw [home] at same
    exact others e known (shares_iff.mpr same)

theorem located_foldl {documents : List IntakeDocument} {m : Machine}
    (smooth : Smooth s c lock documents m) {d : IntakeDocument} (listed : d ∈ documents) :
    let m' := documents.foldl (after s c lock) m
    ∃ place, m'.tree.locate m'.home (recordPath s d) = .ok place := by
  obtain ⟨before, later, rfl⟩ := List.append_of_mem listed
  obtain ⟨-, stored, -, -⟩ := smooth_append.mp smooth
  rw [List.foldl_append, List.foldl_cons]
  obtain ⟨place, located⟩ := (stands_after named stored).located
  have kept := keeps_foldl (c := c) named later
    (after s c lock (before.foldl (after s c lock) m) d)
  refine ⟨place, ?_⟩
  rw [kept.home]
  exact locate_of_more kept.tree.folders located

end Held

theorem plain_summary : Path.Plain "summary.csv" :=
  ⟨by decide, by decide, by decide, by decide⟩

theorem spares_writeSummary (s : Settings Float) (records : List DocumentRecord) :
    Session.Spares (Elsewhere "summary.csv") (writeSummary s records) := by
  refine Session.spares_bind (Session.spares_demand (spares_makeParents _ _)) fun _ => ?_
  exact Session.spares_demand (spares_writeText plain_summary s.pipeline.output _)

def request (s : Settings Float) : Lock.Request :=
  .of s.pipeline.intake s.pipeline.staleSeconds

/-- What a batch does that has found something comes to an end with its summary. -/
theorem run_underLock {documents : List IntakeDocument} {p p' : Printed} {m m' : Machine}
    (found : (pending s c).runOn p m = ((.ok documents, p'), m')) (some : documents ≠ [])
    (smooth : Smooth s c lock documents m') (start : Time) :
    ∃ records p'', ((underLock s c lock start).runOn p m).2 =
      ((writeSummary s records).runOn p'' (documents.foldl (after s c lock) m')).2 := by
  have nonempty : documents.isEmpty = false := by simpa using some
  rw [underLock, Session.runOn_bind, found]
  dsimp only
  rw [nonempty, if_neg Bool.false_ne_true, Session.runOn_bind, Session.runOn_say]
  dsimp only
  rw [Session.runOn_bind, Session.runOn_ask, run_processAll smooth .nothing []]
  have now : Machine.Still (Host.now : StateM Machine Time) := fun _ => rfl
  exact ⟨_, _, Session.machine_of_bind
    (fun _ => Session.still_bind (Session.still_ask now) fun _ => Session.still_pure _) _ _⟩

theorem keeps_underLock {documents : List IntakeDocument} {p p' : Printed} {m m' : Machine}
    (found : (pending s c).runOn p m = ((.ok documents, p'), m')) (some : documents ≠ [])
    (smooth : Smooth s c lock documents m') (start : Time) :
    (documents.foldl (after s c lock) m').Keeps (Elsewhere "summary.csv")
      ((underLock s c lock start).runOn p m).2 := by
  obtain ⟨records, p'', ran⟩ := run_underLock found some smooth start
  rw [ran]
  exact spares_writeSummary s records p'' _

def locked (s : Settings Float) (m : Machine) : Machine :=
  ((Lock.acquire (request s) : StateM Machine (Except DiskError (Option Lock))).run m).2

/-- A batch that takes the lock is what is done under it, and the lock is given back in any case. -/
theorem runOn_run {p : Printed} {m : Machine}
    (acquired : ((Lock.acquire (request s) :
      StateM Machine (Except DiskError (Option Lock))).run m).1 = .ok (some lock)) :
    (run s c).runOn p m = (((underLock s c lock m.clock).runOn p (locked s m)).1,
      ((lock.release : StateM Machine Unit).run
        ((underLock s c lock m.clock).runOn p (locked s m)).2).2) := by
  have now : (Session.ask (Host.now : StateM Machine Time)).runOn p m = ((.ok m.clock, p), m) := rfl
  rw [run, Session.runOn_bind, now]
  dsimp only
  rw [Session.runOn_bind, Session.runOn_demand]
  unfold locked request at *
  rw [acquired]
  dsimp only [Except.mapError]
  rw [Session.runOn_bind, Session.runOn_tryCatch, Session.runOn_bind]
  generalize (underLock s c lock m.clock).runOn p _ = answer
  obtain ⟨⟨_ | _, p'⟩, m'⟩ := answer <;> rfl

theorem run_locked {p : Printed} {m : Machine}
    (acquired : ((Lock.acquire (request s) :
      StateM Machine (Except DiskError (Option Lock))).run m).1 = .ok (some lock)) :
    ((run s c).runOn p m).2 = ((lock.release : StateM Machine Unit).run
      ((underLock s c lock m.clock).runOn p (locked s m)).2).2 := by
  rw [runOn_run acquired]

def ended (s : Settings Float) (c : Catalog Float) (p : Printed) (m : Machine) : Machine :=
  ((run s c).runOn p m).2

/-- A batch that takes the lock, finds these documents, stores the record of each of them and holds
the lock to the end. -/
structure Course (s : Settings Float) (c : Catalog Float) (p : Printed) (m : Machine)
    (lock : Lock) (documents : List IntakeDocument) : Prop where
  acquired : ((Lock.acquire (request s) :
    StateM Machine (Except DiskError (Option Lock))).run m).1 = .ok (some lock)
  found : ((pending s c).runOn p (locked s m)).1.1 = .ok documents
  smooth : Smooth s c lock documents (locked s m)

/-- What is found where the record of a document belongs is the record of another, or its own. -/
structure Shows (s : Settings Float) (d last : IntakeDocument) (r : DocumentRecord)
    (written : Time) (m : Machine) : Prop where
  text : m.Opens (recordPath s d) (.text (Json.pretty r.toJson))
  document : r.document = last.path
  loaded : (∀ x ∈ r.doubles, Json.Restored x) → r.Fits →
    ∃ r', ((ResultStore.load (recordPath s d) :
      StateM Machine (Except LoadError DocumentRecord)).run m).1 = .ok r' ∧
        r'.document = last.path
  current : ∀ other, recordStem other = recordStem d.path →
    (((store s).isCurrent d.templateId other : StateM Machine Bool).run m).1 =
      ((m.tree.standing m.home other).any fun source => decide (source.modified ≤ written))

section Course
variable {p : Printed} {m : Machine} {documents : List IntakeDocument}

theorem Course.named (course : Course s c p m lock documents) :
    lock.path = Path.join s.pipeline.intake Lock.fileName := Lock.path_of_acquire course.acquired

theorem Course.keeps_ended (course : Course s c p m lock documents) (some : documents ≠ []) :
    (documents.foldl (after s c lock) (locked s m)).Keeps Spared (ended s c p m) := by
  have found : (pending s c).runOn p (locked s m) =
      ((.ok documents, ((pending s c).runOn p (locked s m)).1.2), locked s m) :=
    Prod.ext (Prod.ext course.found rfl) (still_pending s c p _)
  have kept := keeps_underLock found some course.smooth m.clock
  rw [ended, run_locked course.acquired]
  refine (kept.mono fun place spared => spared.2).trans ?_
  exact (Lock.spares_release course.named _).mono fun place spared => spared.1

theorem Course.stands_ended {before later : List IntakeDocument} {last : IntakeDocument}
    (course : Course s c p m lock (before ++ last :: later))
    (others : ∀ e ∈ later, ¬ Shares s (locked s m).home e last) {d : IntakeDocument}
    (listed : d ∈ before ++ last :: later) (shares : Shares s (locked s m).home d last) :
    (ended s c p m).Stands (recordPath s d)
      (Json.pretty (told s c last (before.foldl (after s c lock) (locked s m))).toJson)
      (locked s m).clock := by
  have kept := course.keeps_ended (by simp)
  have located := located_foldl course.named course.smooth listed
  have stands := stands_foldl course.named course.smooth others
  have home := (keeps_foldl (c := c) course.named (before ++ last :: later) (locked s m)).home
  have place := shares_iff.mp shares
  rw [← home] at place
  have here : ((before ++ last :: later).foldl (after s c lock) (locked s m)).Stands
      (recordPath s d) _ _ := ⟨located, (congrArg _ place).trans stands.there⟩
  exact here.of_keeps kept (spared_slot s _ d)

theorem exists_last {q : IntakeDocument → Prop} {documents : List IntakeDocument}
    (some : ∃ d ∈ documents, q d) :
    ∃ before last later, documents = before ++ last :: later ∧ q last ∧ ∀ e ∈ later, ¬ q e := by
  induction documents with
  | nil =>
    obtain ⟨d, none, -⟩ := some
    cases none
  | cons first rest ih =>
    by_cases later : ∃ d ∈ rest, q d
    · obtain ⟨before, last, after, split, holds, none⟩ := ih later
      exact ⟨first :: before, last, after, by rw [split, List.cons_append], holds, none⟩
    · obtain ⟨d, listed, holds⟩ := some
      have none : ∀ e ∈ rest, ¬ q e := fun e known holds => later ⟨e, known, holds⟩
      rcases List.mem_cons.mp listed with rfl | known
      · exact ⟨[], d, rest, rfl, holds, none⟩
      · exact absurd holds (none d known)

theorem shows_of_stands {d last : IntakeDocument} {m m' : Machine} {written : Time}
    (stands : m'.Stands (recordPath s d) (Json.pretty (told s c last m).toJson) written) :
    Shows s d last (told s c last m) written m' := by
  refine ⟨stands.opens, (told_names s c last m).1, fun restored fits => ?_, fun other same => ?_⟩
  · exact ⟨_, ResultStore.load_of_opens (produced_told s c last m) restored fits stands.opens,
      (told_names s c last m).1⟩
  · have path : (store s).recordPath d.templateId other = recordPath s d := by
      rw [recordPath, ResultStore.recordPath, ResultStore.recordPath, ← recordStem, ← recordStem,
        same]
    rw [ResultStore.run_isCurrent, path]
    have standing := stands.standing
    cases record : m'.tree.standing m'.home (recordPath s d) with
    | none =>
      rw [record] at standing
      cases standing
    | some e =>
      rw [record] at standing
      cases standing
      cases m'.tree.standing m'.home other <;> rfl

/-- Where the record of a document of a batch belongs, a batch that stores every record leaves the
record of the last of its documents that share the place, and by it every document of that place
counts as current that is no younger. -/
theorem shows_last (course : Course s c p m lock documents) {d : IntakeDocument}
    (listed : d ∈ documents) :
    ∃ before last later, documents = before ++ last :: later ∧
      Shares s (locked s m).home last d ∧
      (∀ e ∈ later, ¬ Shares s (locked s m).home e d) ∧
      Shows s d last (told s c last (before.foldl (after s c lock) (locked s m)))
        (locked s m).clock (ended s c p m) := by
  have self : ∃ e ∈ documents, Shares s (locked s m).home e d := ⟨d, listed, rfl, rfl⟩
  obtain ⟨before, last, later, rfl, shares, others⟩ := exists_last self
  refine ⟨before, last, later, rfl, shares, others, ?_⟩
  have place := shares_iff.mp shares
  have apart : ∀ e ∈ later, ¬ Shares s (locked s m).home e last := fun e known also =>
    others e known (shares_iff.mpr ((shares_iff.mp also).trans place))
  exact shows_of_stands (course.stands_ended apart listed (shares_iff.mpr place.symm))

end Course

theorem runOn_pending {p : Printed} {m : Machine} {documents : List IntakeDocument}
    (found : ((Intake.discover s.pipeline.intake s.pipeline.filePattern c.templates :
      StateM Machine (Except Glob.PatternError (List IntakeDocument))).run m).1 = .ok documents) :
    (pending s c).runOn p m = (documents.filterM fun d => do
      return !(← Session.ask ((store s).isCurrent d.templateId d.path)) :
        Session (StateM Machine) (List IntakeDocument)).runOn p m := by
  have still := Intake.still_discover s.pipeline.intake s.pipeline.filePattern c.templates m
  rw [pending, Session.runOn_bind, Session.runOn_ask, found, still]
  rfl

def everything : Settings Float :=
  ⟨.standard, .standard, { Pipeline.standard with filePattern := "*" }⟩

def statements : Catalog Float := ⟨[lineOf "monthly" "MS_" "Revenue"], [], []⟩

/-- One statement in two forms, neither of which has pages. -/
def pair : Machine where
  tree := ⟨[(["intake"], .folder 0),
    (["intake", "MS_2024-03.pdf"], .file 0 (.document (.error .noPages)) 0),
    (["intake", "MS_2024-03.txt"], .file 1 (.document (.error .noPages)) 0)], 2⟩
  home := []
  clock := 1000
  processId := 7
  drawn := 0

def pairLock : Lock :=
  ⟨"intake/.docfield.lock", "7-00000000-0000-4000-8000-000000000000"⟩

def pdfForm : IntakeDocument := ⟨"intake/MS_2024-03.pdf", "monthly", ⟨2024, 3⟩⟩

def textForm : IntakeDocument := ⟨"intake/MS_2024-03.txt", "monthly", ⟨2024, 3⟩⟩

def pairDocuments : List IntakeDocument := [pdfForm, textForm]

/-- A batch gets the lock, finds the statement in both forms, and has no record of either. -/
theorem seen_pair :
    ((Lock.acquire (request everything) :
      StateM Machine (Except DiskError (Option Lock))).run pair).1 = .ok (some pairLock) ∧
    (Glob.PathPattern.read (Path.join everything.pipeline.intake
      everything.pipeline.filePattern)).toOption.map (fun q =>
        ((Intake.visit statements.templates q).run (locked everything pair)).1.filterMap id) =
      some pairDocuments ∧
    ((pairDocuments.filterM fun d => do
      return !(← Session.ask ((store everything).isCurrent d.templateId d.path)) :
        Session (StateM Machine) (List IntakeDocument)).runOn .nothing
          (locked everything pair)).1.1.toOption = some pairDocuments ∧
    Smooth everything statements pairLock pairDocuments (locked everything pair) := by
  decide +kernel

theorem discover_pair :
    ((Intake.discover everything.pipeline.intake everything.pipeline.filePattern
      statements.templates : StateM Machine (Except Glob.PatternError
        (List IntakeDocument))).run (locked everything pair)).1 = .ok pairDocuments :=
  Intake.discover_of_visited seen_pair.2.1 (by decide)

theorem course_pair : Course everything statements .nothing pair pairLock pairDocuments := by
  obtain ⟨acquired, -, kept, smooth⟩ := seen_pair
  refine ⟨acquired, ?_, smooth⟩
  rw [runOn_pending discover_pair]
  exact Session.ok_of_toOption kept

theorem shows_last_pair :
    Course everything statements .nothing pair pairLock pairDocuments ∧
      pdfForm ∈ pairDocuments ∧
      ∃ before last later, pairDocuments = before ++ last :: later ∧
        Shares everything (locked everything pair).home last pdfForm ∧
        (∀ e ∈ later, ¬ Shares everything (locked everything pair).home e pdfForm) ∧
        Shows everything pdfForm last (told everything statements last
          (before.foldl (after everything statements pairLock) (locked everything pair)))
          (locked everything pair).clock (ended everything statements .nothing pair) :=
  ⟨course_pair, List.mem_cons_self, shows_last course_pair List.mem_cons_self⟩

/-- The record of the statement in one form is overwritten by that of the other. -/
theorem pair_overwritten :
    ¬ ∀ (s : Settings Float) (c : Catalog Float) (p : Printed) (m : Machine) (lock : Lock)
      (documents : List IntakeDocument), c.validate = .ok () → Course s c p m lock documents →
      ∀ d ∈ documents, ∃ r, ((ResultStore.load (recordPath s d) :
        StateM Machine (Except LoadError DocumentRecord)).run (ended s c p m)).1 = .ok r ∧
          r.document = d.path := by
  intro own
  have accepted : statements.validate = .ok () := Catalog.validate_eq_ok_iff.mpr (by decide +kernel)
  have listed : pdfForm ∈ [pdfForm] ++ textForm :: [] := List.mem_cons_self
  obtain ⟨r, loaded, document⟩ := own _ _ _ _ _ _ accepted course_pair pdfForm listed
  have shares : Shares everything (locked everything pair).home pdfForm textForm := by
    decide +kernel
  have course : Course everything statements .nothing pair pairLock ([pdfForm] ++ textForm :: []) :=
    course_pair
  have stands := course.stands_ended (fun e none => by cases none) listed shares
  have facts : (∀ x ∈ (told everything statements textForm
      ([pdfForm].foldl (after everything statements pairLock)
        (locked everything pair))).doubles, Json.Restored x) ∧
      (told everything statements textForm ([pdfForm].foldl
        (after everything statements pairLock) (locked everything pair))).Fits := by
    decide +kernel
  obtain ⟨r', found, other⟩ := (shows_of_stands stands).loaded facts.1 facts.2
  cases loaded.symm.trans found
  exact absurd (document.symm.trans other) (by decide)

end Batch
end Docket
