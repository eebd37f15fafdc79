import Docket.Proofs.Intake.Rediscovery
import Docket.Proofs.Intake.Surroundings
import Docket.Proofs.Results.Sharing

/-! A second batch after a first. What a batch writes are its records, its summary and the lock;
where none of these is itself a document, and no document is reached through a folder that the batch
has made, everything that is found again has a record by now. -/
namespace Docket
open Machine FileTree

namespace Session

variable {β γ : Type}

theorem runOn_filterM_asked {f : β → StateM Machine Bool} (still : ∀ b, Machine.Still (f b))
    (bs : List β) (p : Printed) (m : Machine) :
    (bs.filterM fun b => do return !(← ask (f b)) : Session (StateM Machine) (List β)).runOn p m =
      ((.ok (bs.filter fun b => !((f b).run m).1), p), m) := by
  have go (kept : List β) :
      (bs.filterAuxM (fun b => do return !(← ask (f b))) kept :
        Session (StateM Machine) (List β)).runOn p m =
        ((.ok ((bs.filter fun b => !((f b).run m).1).reverse ++ kept), p), m) := by
    induction bs generalizing kept with
    | nil => rfl
    | cons b bs ih =>
      rw [List.filterAuxM, runOn_bind, runOn_bind, runOn_ask, still b m]
      refine (ih _).trans ?_
      cases told : ((f b).run m).1 <;> simp [told]
  rw [List.filterM, runOn_bind, go]
  dsimp only
  rw [List.append_nil, List.reverse_reverse]
  rfl

/-- A session that writes at some places only, when it starts in a folder. -/
def Grows (home : Location) (written : Location → Prop) (x : Session (StateM Machine) β) : Prop :=
  ∀ (p : Printed) (m : Machine), m.home = home → m.Grown written (x.runOn p m).2

variable {home : Location} {written : Location → Prop}

theorem grows_demand {x : StateM Machine (Except DiskError β)}
    (grows : Machine.Grows home written x) : Grows home written (demand x) := by
  intro p m here
  rw [runOn_demand]
  exact grows m here

theorem grows_bind {x : Session (StateM Machine) β} {f : β → Session (StateM Machine) γ}
    (first : Grows home written x) (second : ∀ b, Grows home written (f b)) :
    Grows home written (x >>= f) := by
  intro p m here
  have grown := first p m here
  rw [runOn_bind]
  generalize x.runOn p m = answer at grown
  obtain ⟨⟨_ | b, p'⟩, m'⟩ := answer
  · exact grown
  · exact grown.trans (second b p' m' (grown.home.trans here))

end Session

theorem ResultStore.grows_saving (store : ResultStore) (r : DocumentRecord) (home : Location) :
    Grows home (· = placeOf home (store.recordPath r.templateId r.document)) (store.saving r) := by
  apply grows_bind (grows_makeParents _)
  intro result
  split
  · exact grows_pure _
  · exact grows_bind (grows_writeText _ _) fun _ => grows_pure _

theorem Lock.grows_refresh (l : Lock) (home : Location) :
    Grows home (· = placeOf home l.path) (l.refresh : StateM Machine (Except DiskError Bool)) := by
  intro m here
  rw [refresh, run_bind_of (run_isOwned l m)]
  split
  · exact grows_bind (grows_touch l.path) (fun _ => grows_pure _) m here
  · exact .rfl' _ m

namespace Batch

variable {s : Settings Float} {c : Catalog Float} {lock : Lock} {documents : List IntakeDocument}

def summaryPath (s : Settings Float) : String := Path.join s.pipeline.output "summary.csv"

/-- The places of the records and the summary of a batch. -/
def Wrote (s : Settings Float) (home : Location) (documents : List IntakeDocument)
    (place : Location) : Prop :=
  place = placeOf home (summaryPath s) ∨ ∃ d ∈ documents, place = slot s home d

theorem grown_after (s : Settings Float) (c : Catalog Float) (lock : Lock) (d : IntakeDocument)
    (m : Machine) :
    m.Grown (fun place => place = placeOf m.home lock.path ∨ place = slot s m.home d)
      (after s c lock m d) := by
  have saved : m.Grown (· = slot s m.home d) (storing s c d m).2 := by
    have saved := (store s).grows_saving (told s c d m) m.home m rfl
    obtain ⟨document, templateId⟩ := told_names s c d m
    rwa [document, templateId] at saved
  rw [after]
  generalize (storing s c d m).2 = m' at saved
  have fresh := lock.grows_refresh m.home m' saved.home
  exact (saved.mono fun _ here => .inr here).trans (fresh.mono fun _ here => .inl here)

theorem grown_foldl (s : Settings Float) (c : Catalog Float) (lock : Lock)
    (documents : List IntakeDocument) (m : Machine) :
    m.Grown (fun place =>
        place = placeOf m.home lock.path ∨ ∃ d ∈ documents, place = slot s m.home d)
      (documents.foldl (after s c lock) m) := by
  induction documents generalizing m with
  | nil => exact .rfl' _ m
  | cons d rest ih =>
    have first := grown_after s c lock d m
    have later := ih (after s c lock m d)
    rw [first.home] at later
    refine (first.mono fun place => ?_).trans (later.mono fun place => ?_)
    · exact Or.imp_right fun here => ⟨d, List.mem_cons_self, here⟩
    · exact Or.imp_right fun ⟨e, known, here⟩ => ⟨e, List.mem_cons_of_mem d known, here⟩

theorem grows_writeSummary (s : Settings Float) (records : List DocumentRecord) (home : Location) :
    Session.Grows home (· = placeOf home (summaryPath s)) (writeSummary s records) :=
  Session.grows_bind (Session.grows_demand (grows_makeParents _)) fun _ =>
    Session.grows_demand (grows_writeText _ _)

section Course
variable {p : Printed} {m m₂ : Machine}

theorem Course.taken (course : Course s c p m lock documents) :
    Lock.Beside m (locked s m) ∧
      ∃ e, (locked s m).tree.standing (locked s m).home lock.path = some e ∧ e.kind = .regular := by
  have takes := Lock.takes_acquire (request s) m
  have named := course.named
  rw [course.acquired] at takes
  change Lock.Takes (request s) m _ (locked s m) at takes
  generalize locked s m = m' at takes ⊢
  cases takes with
  | granted id m' beside drawn free inscribed =>
    exact ⟨beside, _, inscribed, rfl⟩

/-- A batch writes its records, its summary and the lock before it gives the lock back. -/
theorem Course.exists_ended (course : Course s c p m lock documents) :
    ∃ m', (locked s m).Grown (fun place => place = placeOf m.home lock.path ∨
        Wrote s m.home documents place) m' ∧
      ended s c p m = ((lock.release : StateM Machine Unit).run m').2 := by
  have home : (locked s m).home = m.home := course.taken.1.home
  have found : (pending s c).runOn p (locked s m) =
      ((.ok documents, ((pending s c).runOn p (locked s m)).1.2), locked s m) :=
    Prod.ext (Prod.ext course.found rfl) (still_pending s c p _)
  refine ⟨_, ?_, run_locked course.acquired⟩
  by_cases none : documents = []
  · have idle : ((underLock s c lock m.clock).runOn p (locked s m)).2 = locked s m := by
      rw [underLock, Session.runOn_bind, found, none]
      rfl
    rw [idle]
    exact .rfl' _ _
  · obtain ⟨records, p', ran⟩ := run_underLock found none course.smooth m.clock
    rw [ran]
    have stored := grown_foldl s c lock documents (locked s m)
    rw [home] at stored
    have summed := grows_writeSummary s records m.home p' _ (stored.home.trans home)
    refine (stored.mono fun place => ?_).trans (summed.mono fun place => ?_)
    · exact Or.imp_right .inr
    · exact fun here => .inr (.inl here)

end Course

/-- A machine after a batch, seen from the machine on which the batch held the lock. -/
structure Since (written : Location → Prop) (locks : Location) (m m' : Machine) : Prop where
  home : m'.home = m.home
  formed : m'.tree.Formed
  changed : ∀ place, place ≠ locks →
    Change (written place) m.clock ( m.tree.entry? place) ( m'.tree.entry? place)
  before : m.tree.hasFolder locks = false
  now : m'.tree.hasFolder locks = false

namespace Since

variable {written : Location → Prop} {locks : Location} {m m' m'' : Machine}

theorem folders (since : Since written locks m m') {place : Location}
    (folder : m.tree.hasFolder place = true) : m'.tree.hasFolder place = true := by
  have apart : place ≠ locks := by
    rintro rfl
    rw [since.before] at folder
    cases folder
  have changed := since.changed place apart
  unfold hasFolder at folder ⊢
  generalize m.tree.entry? place = old, m'.tree.entry? place = new at changed folder
  cases changed with
  | same => exact folder
  | made free => simp [free] at folder
  | filled here file =>
    rcases old with _ | ⟨id, content, time⟩ | time
    · cases folder
    · cases folder
    · exact absurd rfl (file time)

theorem confined (since : Since written locks m m') (confined : Lock.Confined locks m' m'') :
    Since written locks m m'' := by
  refine ⟨confined.home.trans since.home, confined.tree.formed since.formed, ?_, since.before, ?_⟩
  · intro place apart
    rw [confined.tree.entries place apart]
    exact since.changed place apart
  · rw [confined.tree.folders]
    exact since.now

theorem locate (since : Since written locks m m') {path : String} {place : Location}
    (located : m.tree.locate m.home path = .ok place) :
    m'.tree.locate m'.home path = .ok place := by
  rw [since.home]
  exact locate_of_more (fun _ => since.folders) located

/-- What stood at a path still does, or something that was written since. -/
theorem standing (since : Since written locks m m') {path : String} {e : FileEntry}
    (apart : placeOf m.home path ≠ locks) (there : m.tree.standing m.home path = some e) :
    ∃ e', m'.tree.standing m'.home path = some e' ∧
      (e'.modified = e.modified ∨ e'.modified = m.clock) := by
  obtain ⟨place, located, known⟩ := (standing_eq_some _ _ _ _).mp there
  rw [← locate_eq_placeOf located] at apart
  have changed := since.changed place apart
  rw [standing_of_locate (since.locate located)]
  rw [known] at changed
  generalize m'.tree.entry? place = new at changed
  cases changed with
  | same => exact ⟨e, rfl, .inl rfl⟩
  | made free => cases free
  | filled here file id content => exact ⟨_, rfl, .inr rfl⟩

end Since

section Course
variable {p : Printed} {m m₂ : Machine}

theorem Course.since (course : Course s c p m lock documents) (formed : m.tree.Formed)
    (tree : m₂.tree = (ended s c p m).tree) (home : m₂.home = (ended s c p m).home) :
    Since (Wrote s m.home documents) (placeOf m.home lock.path) (locked s m) m₂ := by
  obtain ⟨beside, e, there, kind⟩ := course.taken
  obtain ⟨m', grown, ended⟩ := course.exists_ended
  obtain ⟨place, located, known⟩ := (standing_eq_some _ _ _ _).mp there
  have locks : place = placeOf m.home lock.path := by
    rw [locate_eq_placeOf located, beside.home]
  have first := Lock.confined_acquire (request s) formed
  have last := Lock.confined_release lock m'
  rw [show (request s).path = lock.path from course.named.symm] at first
  rw [grown.home.trans beside.home, ← ended] at last
  subst locks
  refine ⟨?_, ?_, fun other apart => ?_, ?_, ?_⟩
  · rw [home, last.home, grown.home]
  · rw [tree]
    exact last.tree.formed (grown.tree.formed (first.tree.formed formed))
  · rw [tree, last.tree.entries other apart]
    exact (grown.tree.entries other).mono fun here => here.resolve_left apart
  · simp [hasFolder, known, kind]
  · rw [tree, last.tree.folders, hasFolder]
    have changed := grown.tree.entries (placeOf m.home lock.path)
    rw [known] at changed
    generalize m'.tree.entry? (placeOf m.home lock.path) = new at changed
    cases changed with
    | same => simp [kind]
    | made free => cases free
    | filled => rfl

end Course

/-- What a batch finds on a machine, with or without a record. -/
abbrev findings (s : Settings Float) (c : Catalog Float) (m : Machine) :
    Except Glob.PatternError (List IntakeDocument) :=
  ((Intake.discover s.pipeline.intake s.pipeline.filePattern c.templates :
    StateM Machine (Except Glob.PatternError (List IntakeDocument))).run m).1

def Discovers (s : Settings Float) (c : Catalog Float) (m : Machine) (d : IntakeDocument) : Prop :=
  ∃ found, findings s c m = .ok found ∧ d ∈ found

theorem findings_of_visited {m : Machine}
    (visited : (Glob.PathPattern.read (Path.join s.pipeline.intake
      s.pipeline.filePattern)).toOption.map (fun q =>
        ((Intake.visit c.templates q).run m).1.filterMap id) = some documents)
    (sorted : documents.Pairwise fun a b => Path.le a.path b.path = true) :
    findings s c m = .ok documents := Intake.discover_of_visited visited sorted

def current (s : Settings Float) (d : IntakeDocument) (m : Machine) : Bool :=
  (((store s).isCurrent d.templateId d.path : StateM Machine Bool).run m).1

theorem runOn_pending_filter {p : Printed} {m : Machine} {found : List IntakeDocument}
    (known : findings s c m = .ok found) :
    (pending s c).runOn p m = ((.ok (found.filter fun d => !current s d m), p), m) := by
  have still (d : IntakeDocument) :
      Machine.Still ((store s).isCurrent d.templateId d.path : StateM Machine Bool) := by
    intro m
    rw [ResultStore.run_isCurrent]
  rw [runOn_pending known]
  exact Session.runOn_filterM_asked still found p m

theorem pending_eq_ok {p : Printed} {m : Machine} :
    ((pending s c).runOn p m).1.1 = .ok documents ↔
      ∃ found, findings s c m = .ok found ∧
          documents = found.filter fun d => !current s d m := by
  cases known : findings s c m with
  | error e =>
    have none : ((pending s c).runOn p m).1.1 = .error (.pattern e) := by
      unfold findings at known
      rw [pending, Session.runOn_bind, Session.runOn_ask, known]
      rfl
    simp [none]
  | ok found =>
    rw [runOn_pending_filter known]
    simp [eq_comm]

theorem current_of_modified {d : IntakeDocument} {m : Machine} {e r : FileEntry}
    (source : m.tree.standing m.home d.path = some e)
    (record : m.tree.standing m.home (recordPath s d) = some r)
    (younger : e.modified ≤ r.modified) : current s d m = true := by
  unfold recordPath at record
  rw [current, ResultStore.run_isCurrent, source, record]
  exact decide_eq_true younger

theorem modified_of_current {d : IntakeDocument} {m : Machine} {e : FileEntry}
    (source : m.tree.standing m.home d.path = some e) (known : current s d m = true) :
    ∃ r, m.tree.standing m.home (recordPath s d) = some r ∧ e.modified ≤ r.modified := by
  unfold recordPath
  rw [current, ResultStore.run_isCurrent, source] at known
  cases record : m.tree.standing m.home ((store s).recordPath d.templateId d.path) with
  | none => simp [record] at known
  | some r =>
    rw [record] at known
    exact ⟨r, rfl, of_decide_eq_true known⟩

/-- A second batch with nothing changed since the first, which wrote no document and made no folder
on the way to one. -/
structure Rerun (s : Settings Float) (c : Catalog Float) (p : Printed) (m m₂ : Machine)
    (documents : List IntakeDocument) : Prop where
  formed : m.tree.Formed
  tree : m₂.tree = (ended s c p m).tree
  home : m₂.home = (ended s c p m).home
  /-- No document was written after the first batch. -/
  punctual : ∀ d, Discovers s c (locked s m) d → ∀ e,
    (locked s m).tree.standing (locked s m).home d.path = some e → e.modified ≤ m.clock
  unlocked : ∀ t ∈ c.templates, t.matchesName Lock.fileName = false
  unwritten : ∀ d, Discovers s c (locked s m₂) d →
    ¬ Wrote s m.home documents (placeOf m.home d.path)
  /-- A way that goes up goes through folders that were there before. -/
  trodden : ∀ d, Discovers s c (locked s m₂) d → ".." ∈ Path.pieces d.path → ∀ place,
    (locked s m₂).Passes d.path place → m.tree.hasFolder place = true

theorem ne_lock_of_routed {templates : List (Template Float)} {d : IntakeDocument}
    {t : Template Float} (routed : Intake.RoutedTo templates d t)
    (unlocked : ∀ t ∈ templates, t.matchesName Lock.fileName = false)
    (home : Location) (folder : String) :
    placeOf home d.path ≠ placeOf home (Path.join folder Lock.fileName) := by
  obtain ⟨name, named, chosen, -⟩ := routed
  obtain ⟨above, place⟩ := placeOf_fileName named home
  intro same
  rw [place, placeOf_join Lock.plain_fileName] at same
  obtain ⟨-, rfl⟩ := List.append_singleton_inj.mp same
  have matched := Intake.matches_of_templateFor chosen
  rw [unlocked t (Intake.mem_of_templateFor chosen)] at matched
  cases matched

section Rerun
variable {p : Printed} {m m₂ : Machine}

theorem Course.since_locked (course : Course s c p m lock documents)
    (rerun : Rerun s c p m m₂ documents) :
    Lock.Confined (placeOf m.home lock.path) m₂ (locked s m₂) ∧
      Since (Wrote s m.home documents) (placeOf m.home lock.path) (locked s m) (locked s m₂) := by
  have since := course.since rerun.formed rerun.tree rerun.home
  have confined := Lock.confined_acquire (request s) since.formed
  rw [show (request s).path = lock.path from course.named.symm, since.home,
    course.taken.1.home] at confined
  exact ⟨confined, since.confined confined⟩

/-- What the second batch finds the first has found, in the same state. -/
theorem Course.discovers (course : Course s c p m lock documents)
    (rerun : Rerun s c p m m₂ documents) {d : IntakeDocument}
    (discovered : Discovers s c (locked s m₂) d) :
    Discovers s c (locked s m) d ∧ ∃ e,
      (locked s m).tree.standing (locked s m).home d.path = some e ∧
        (locked s m₂).tree.standing (locked s m₂).home d.path = some e := by
  obtain ⟨-, since⟩ := course.since_locked rerun
  have beside := course.taken.1
  have unwritten := rerun.unwritten d discovered
  have trodden := rerun.trodden d discovered
  obtain ⟨found', there, listed⟩ := discovered
  obtain ⟨found, known, -⟩ := pending_eq_ok.mp course.found
  obtain ⟨-, -, -, told⟩ := (Intake.mem_discover there d).mp listed
  obtain ⟨-, ⟨t, routed⟩, id, content, written, file⟩ := Intake.documentOf_eq_some told
  obtain ⟨place, located, entry⟩ := (standing_eq_some _ _ _ _).mp file
  have here : place = placeOf m.home d.path := by
    rw [locate_eq_placeOf located, since.home, beside.home]
  have apart : place ≠ placeOf m.home lock.path := by
    rw [here, course.named]
    exact ne_lock_of_routed routed rerun.unlocked m.home _
  have same : FileTree.entry? (locked s m₂).tree place =
      FileTree.entry? (locked s m).tree place := by
    have changed := since.changed place apart
    rw [entry] at changed ⊢
    generalize FileTree.entry? (locked s m).tree place = old at changed
    cases changed with
    | same => rfl
    | filled wrote => exact absurd (here ▸ wrote) unwritten
  have led : Led (locked s m) (locked s m₂) d.path := by
    by_cases up : ".." ∈ Path.pieces d.path
    · refine ⟨since.home, fun place passes => ?_⟩
      rw [beside.folders]
      exact trodden up place passes
    · have formed := (Lock.confined_acquire (request s) rerun.formed).tree.formed rerun.formed
      refine led_of_straight since.home formed located ?_ (by rw [← same, entry]; rfl) up
      simp [hasFolder, entry, FileEntry.kind]
  refine ⟨⟨found, known, Intake.mem_of_led known there since.formed listed led ?_⟩, _, ?_, file⟩
  · intro other located'
    cases located.symm.trans located'
    exact same
  · rw [standing_of_locate (led.locate located), ← same, entry]

theorem Course.stored (course : Course s c p m lock documents) {d : IntakeDocument}
    (listed : d ∈ documents) :
    ∃ text, (ended s c p m).Stands (recordPath s d) text (locked s m).clock := by
  have self : ∃ e ∈ documents, Shares s (locked s m).home e d := ⟨d, listed, rfl, rfl⟩
  obtain ⟨before, last, later, rfl, shares, others⟩ := exists_last self
  have place := shares_iff.mp shares
  refine ⟨_, course.stands_ended (fun e known also => ?_) listed (shares_iff.mpr place.symm)⟩
  exact others e known (shares_iff.mpr ((shares_iff.mp also).trans place))

theorem slot_ne_lock (home home' : Location) (d : IntakeDocument)
    (named : lock.path = Path.join s.pipeline.intake Lock.fileName) :
    placeOf home (recordPath s d) ≠ placeOf home' lock.path := by
  rw [named]
  exact elsewhere_ne Lock.plain_fileName (spared_slot s home d).1 home' _

/-- Every document that is found again has a record of the first batch or of one before it. -/
theorem Course.settled (course : Course s c p m lock documents)
    (rerun : Rerun s c p m m₂ documents) {d : IntakeDocument}
    (discovered : Discovers s c (locked s m₂) d) : current s d (locked s m₂) = true := by
  obtain ⟨confined, since⟩ := course.since_locked rerun
  obtain ⟨beside, -⟩ := course.taken
  obtain ⟨first, e, before, now⟩ := course.discovers rerun discovered
  have punctual := rerun.punctual d first e before
  by_cases listed : d ∈ documents
  · obtain ⟨text, stands⟩ := course.stored listed
    have record := stands.standing
    rw [← rerun.tree, ← rerun.home] at record
    rw [← confined.standing (slot_ne_lock m₂.home m.home d course.named)] at record
    obtain ⟨r, record, written⟩ := Option.map_eq_some_iff.mp record
    apply current_of_modified now record
    rw [written, beside.clock]
    exact punctual
  · -- the first batch has left it out as current
    obtain ⟨found, known, rfl⟩ := pending_eq_ok.mp course.found
    obtain ⟨found', known', among⟩ := first
    cases known.symm.trans known'
    have current : current s d (locked s m) = true := by simpa [among] using listed
    obtain ⟨r, record, younger⟩ := modified_of_current before current
    obtain ⟨r', record, written⟩ := since.standing (slot_ne_lock _ _ d course.named) record
    apply current_of_modified now record
    rcases written with same | anew
    · rwa [same]
    · rwa [anew, beside.clock]

theorem Course.nothing_pending (course : Course s c p m lock documents)
    (rerun : Rerun s c p m m₂ documents) (p₂ : Printed) :
    ((pending s c).runOn p₂ (locked s m₂)).1.1 = .ok [] := by
  obtain ⟨found, known, -⟩ := pending_eq_ok.mp course.found
  cases read : Glob.PathPattern.read (Path.join s.pipeline.intake s.pipeline.filePattern) with
  | error e =>
    rw [findings, Intake.discover, read] at known
    cases known
  | ok pattern =>
    obtain ⟨found', known'⟩ : ∃ found', findings s c (locked s m₂) = .ok found' :=
      ⟨_, Intake.run_discover read _⟩
    refine pending_eq_ok.mpr ⟨found', known', ?_⟩
    symm
    rw [List.filter_eq_nil_iff]
    intro d listed
    rw [course.settled rerun ⟨found', known', listed⟩]
    decide

theorem Course.able (course : Course s c p m lock documents)
    (rerun : Rerun s c p m m₂ documents) : Lock.Able lock.path m₂ := by
  have since := course.since rerun.formed rerun.tree rerun.home
  obtain ⟨beside, e, there, kind⟩ := course.taken
  obtain ⟨place, located, known⟩ := (standing_eq_some _ _ _ _).mp there
  have here : place = placeOf m.home lock.path := by
    rw [locate_eq_placeOf located, beside.home]
  cases e with
  | folder time => cases kind
  | file id content time =>
    have file : (locked s m).tree.fileAt place = some (content, time) := by rw [fileAt, known]
    exact ⟨place, since.locate located, endsWith_of_fileAt located file, here ▸ since.now⟩

end Rerun

theorem acquire_ne_error {m : Machine} (able : Lock.Able (request s).path m) (e : DiskError) :
    ((Lock.acquire (request s) : StateM Machine (Except DiskError (Option Lock))).run m).1 ≠
      .error e := by
  intro failed
  have takes := Lock.takes_acquire (request s) m
  rw [failed] at takes
  generalize ((Lock.acquire (request s) :
    StateM Machine (Except DiskError (Option Lock))).run m).2 = m' at takes
  cases takes with
  | failed e unable => exact unable able

theorem runOn_run_none {p : Printed} {m : Machine}
    (refused : ((Lock.acquire (request s) :
      StateM Machine (Except DiskError (Option Lock))).run m).1 = .ok none) :
    (run s c).runOn p m = ((.ok .nothing, p), locked s m) := by
  have now : (Session.ask (Host.now : StateM Machine Time)).runOn p m = ((.ok m.clock, p), m) := rfl
  rw [run, Session.runOn_bind, now]
  dsimp only
  rw [Session.runOn_bind, Session.runOn_demand]
  unfold locked request at *
  rw [refused]
  rfl

/-- A batch that finds nothing gives the lock back as soon as it has taken it. -/
theorem runOn_idle {p p' : Printed} {m : Machine}
    (idle : (pending s c).runOn p (locked s m) = ((.ok [], p'), locked s m))
    (able : Lock.Able (request s).path m) :
    ((run s c).runOn p m).1.1 = .ok .nothing ∧
      (ended s c p m = locked s m ∨ ∃ lock : Lock, lock.path = (request s).path ∧
        ended s c p m = ((lock.release : StateM Machine Unit).run (locked s m)).2) := by
  cases taken : ((Lock.acquire (request s) :
      StateM Machine (Except DiskError (Option Lock))).run m).1 with
  | error e => exact absurd taken (acquire_ne_error able e)
  | ok result =>
    cases result with
    | none =>
      rw [ended, runOn_run_none taken]
      exact ⟨rfl, .inl rfl⟩
    | some lock =>
      have work : (underLock s c lock m.clock).runOn p (locked s m) =
          ((.ok .nothing, p'), locked s m) := by
        rw [underLock, Session.runOn_bind, idle]
        rfl
      rw [ended, runOn_run taken, work]
      exact ⟨rfl, .inr ⟨lock, Lock.path_of_acquire taken, rfl⟩⟩

/-- A second batch with nothing changed since the first has nothing to do: every document it finds
has a current record, and nothing but the lock is written. -/
theorem nothing_again {p : Printed} {m m₂ : Machine} (course : Course s c p m lock documents)
    (rerun : Rerun s c p m m₂ documents) (p₂ : Printed) :
    ((pending s c).runOn p₂ (locked s m₂)).1.1 = .ok [] ∧
      ((run s c).runOn p₂ m₂).1.1 = .ok .nothing ∧
      ∀ place, place ≠ placeOf m.home lock.path →
        FileTree.entry? (ended s c p₂ m₂).tree place = m₂.tree.entry? place := by
  have none := course.nothing_pending rerun p₂
  have able := course.able rerun
  have path : lock.path = (request s).path := course.named
  obtain ⟨confined, since⟩ := course.since_locked rerun
  have idle : (pending s c).runOn p₂ (locked s m₂) =
      ((.ok [], ((pending s c).runOn p₂ (locked s m₂)).1.2), locked s m₂) :=
    Prod.ext (Prod.ext none rfl) (still_pending s c p₂ _)
  obtain ⟨nothing, before | ⟨lock', named, before⟩⟩ := runOn_idle idle (path ▸ able)
  · refine ⟨none, nothing, fun place apart => ?_⟩
    rw [before, confined.tree.entries place apart]
  · refine ⟨none, nothing, fun place apart => ?_⟩
    have last := Lock.confined_release lock' (locked s m₂)
    rw [named, ← path, since.home, course.taken.1.home] at last
    rw [before, last.tree.entries place apart, confined.tree.entries place apart]

/-- A batch once it is known what it has to do. -/
def work (s : Settings Float) (c : Catalog Float) (lock : Lock) (start : Time)
    (documents : List IntakeDocument) : Session (StateM Machine) BatchSummary := do
  if documents.isEmpty then return .nothing
  Session.say s!"ℹ Found {documents.length} documents to process"
  let (summary, records) ← Session.ask (processAll s c lock .nothing [] documents)
  writeSummary s records
  return { summary with elapsed := (← Session.ask (Host.now : StateM Machine Time)) - start }

-- What a batch finds is sorted, which does not compute; what it makes of what it has found does.
theorem ended_eq {p : Printed} {m : Machine}
    (acquired : ((Lock.acquire (request s) :
      StateM Machine (Except DiskError (Option Lock))).run m).1 = .ok (some lock))
    {found : List IntakeDocument}
    (known : findings s c (locked s m) = .ok found) :
    ended s c p m = ((lock.release : StateM Machine Unit).run
      ((work s c lock m.clock (found.filter fun d => !current s d (locked s m))).runOn p
        (locked s m)).2).2 := by
  have split : underLock s c lock m.clock = pending s c >>= work s c lock m.clock := rfl
  rw [ended, run_locked acquired, split, Session.runOn_bind, runOn_pending_filter known]

-- Both are said of any machine: of one that has run a batch they would run the batch again.
theorem tree_later (m : Machine) (time : Time) :
    ({ m with clock := time } : Machine).tree = m.tree := rfl

theorem home_later (m : Machine) (time : Time) :
    ({ m with clock := time } : Machine).home = m.home := rfl

/-- The same two statements after a batch, a second later. -/
def pairAgain : Machine :=
  { ended everything statements .nothing pair with clock := 1000000001000 }

def pairEnd : Machine := ((pairLock.release : StateM Machine Unit).run
  ((work everything statements pairLock pair.clock pairDocuments).runOn .nothing
    (locked everything pair)).2).2

theorem ended_pair : ended everything statements .nothing pair = pairEnd := by
  obtain ⟨found, known, kept⟩ := pending_eq_ok.mp course_pair.found
  cases known.symm.trans discover_pair
  rw [ended_eq course_pair.acquired discover_pair, ← kept, pairEnd]

theorem discover_pairAgain :
    findings everything statements (locked everything pairAgain) = .ok pairDocuments := by
  rw [pairAgain, ended_pair]
  exact findings_of_visited (by decide +kernel) (by decide)

instance (s : Settings Float) (home : Location) (documents : List IntakeDocument)
    (place : Location) : Decidable (Wrote s home documents place) :=
  inferInstanceAs (Decidable (_ ∨ _))

theorem Discovers.mem {m : Machine} {found : List IntakeDocument}
    (known : findings s c m = .ok found)
    {d : IntakeDocument} (discovered : Discovers s c m d) : d ∈ found := by
  obtain ⟨found', known', listed⟩ := discovered
  cases known.symm.trans known'
  exact listed

theorem rerun_pair :
    Rerun everything statements .nothing pair pairAgain pairDocuments := by
  constructor
  · exact formed_of_entries (by decide +kernel)
  · exact tree_later _ _
  · exact home_later _ _
  · intro d discovered e there
    have known : ∀ d ∈ pairDocuments, ((locked everything pair).tree.standing
        (locked everything pair).home d.path).all fun e => decide (e.modified ≤ pair.clock) := by
      decide +kernel
    have all := known d (discovered.mem discover_pair)
    rw [there] at all
    exact of_decide_eq_true all
  · decide +kernel
  · intro d discovered
    have apart : ∀ d ∈ pairDocuments,
        ¬ Wrote everything pair.home pairDocuments (placeOf pair.home d.path) := by
      decide +kernel
    exact apart d (discovered.mem discover_pairAgain)
  · intro d discovered up
    have straight : ∀ d ∈ pairDocuments, ".." ∉ Path.pieces d.path := by decide +kernel
    exact absurd up (straight d (discovered.mem discover_pairAgain))

theorem nothing_again_pair :
    Course everything statements .nothing pair pairLock pairDocuments ∧
      Rerun everything statements .nothing pair pairAgain pairDocuments ∧
      ((pending everything statements).runOn .nothing (locked everything pairAgain)).1.1 =
        .ok [] ∧
      ((run everything statements).runOn .nothing pairAgain).1.1 = .ok .nothing ∧
      ∀ place, place ≠ placeOf pair.home pairLock.path →
        FileTree.entry? (ended everything statements .nothing pairAgain).tree place =
          pairAgain.tree.entry? place :=
  ⟨course_pair, rerun_pair, nothing_again course_pair rerun_pair .nothing⟩

/-- The results lie in a folder of the intake that the pattern goes through and up again. -/
def burrowing : Settings Float :=
  ⟨.standard, .standard,
    { Pipeline.standard with filePattern := "*/*/../MS_*.pdf", output := "intake/c/out" }⟩

/-- Two statements in folders of which only one has a folder in it. -/
def burrow : Machine where
  tree := ⟨[(["intake"], .folder 0), (["intake", "a"], .folder 0),
    (["intake", "a", "b"], .folder 0),
    (["intake", "a", "MS_2024-03.pdf"], .file 0 (.document (.error .noPages)) 0),
    (["intake", "c"], .folder 0),
    (["intake", "c", "MS_2024-04.pdf"], .file 1 (.document (.error .noPages)) 0)], 2⟩
  home := []
  clock := 1000
  processId := 7
  drawn := 0

def marchForm : IntakeDocument := ⟨"intake/a/b/../MS_2024-03.pdf", "monthly", ⟨2024, 3⟩⟩

def aprilForm : IntakeDocument := ⟨"intake/c/out/../MS_2024-04.pdf", "monthly", ⟨2024, 4⟩⟩

/-- The first batch gets the lock and finds, without a record, the statement in the folder that has
a folder in it. -/
theorem seen_burrow :
    ((Lock.acquire (request burrowing) :
      StateM Machine (Except DiskError (Option Lock))).run burrow).1 = .ok (some pairLock) ∧
    (Glob.PathPattern.read (Path.join burrowing.pipeline.intake
      burrowing.pipeline.filePattern)).toOption.map (fun q =>
        ((Intake.visit statements.templates q).run (locked burrowing burrow)).1.filterMap id) =
      some [marchForm] ∧
    ([marchForm].filter fun d => !current burrowing d (locked burrowing burrow)) = [marchForm] ∧
    Smooth burrowing statements pairLock [marchForm] (locked burrowing burrow) := by
  decide +kernel

theorem discover_burrow :
    findings burrowing statements (locked burrowing burrow) = .ok [marchForm] :=
  findings_of_visited seen_burrow.2.1 (List.pairwise_singleton _ _)

theorem course_burrow : Course burrowing statements .nothing burrow pairLock [marchForm] := by
  obtain ⟨acquired, -, left, smooth⟩ := seen_burrow
  exact ⟨acquired, pending_eq_ok.mpr ⟨_, discover_burrow, left.symm⟩, smooth⟩

def burrowEnd : Machine := ((pairLock.release : StateM Machine Unit).run
  ((work burrowing statements pairLock burrow.clock [marchForm]).runOn .nothing
    (locked burrowing burrow)).2).2

theorem ended_burrow : ended burrowing statements .nothing burrow = burrowEnd := by
  rw [ended_eq course_burrow.acquired discover_burrow, seen_burrow.2.2.1, burrowEnd]

def burrowAgain : Machine :=
  { ended burrowing statements .nothing burrow with clock := 1000000001000 }

/-- A second batch finds a statement through the folder that the first has made, and no file in
it. -/
theorem seen_burrowAgain :
    (Glob.PathPattern.read (Path.join burrowing.pipeline.intake
      burrowing.pipeline.filePattern)).toOption.map (fun q =>
        ((Intake.visit statements.templates q).run (locked burrowing burrowAgain)).1.filterMap id) =
      some [marchForm, aprilForm] ∧
    ([marchForm, aprilForm].filter fun d => !current burrowing d (locked burrowing burrowAgain)) =
      [aprilForm] ∧
    (Glob.PathPattern.read (Path.join burrowing.pipeline.intake
      burrowing.pipeline.filePattern)).toOption.all (fun q =>
        ((Glob.find q : StateM Machine (List String)).run (locked burrowing burrowAgain)).1.all
          fun x => !(placeOf burrow.home burrowing.pipeline.output).isPrefixOf
            (placeOf burrow.home x)) = true := by
  rw [burrowAgain, ended_burrow]
  decide +kernel

theorem outside_burrow (q : Glob.PathPattern) (read : Glob.PathPattern.read
      (Path.join burrowing.pipeline.intake burrowing.pipeline.filePattern) = .ok q)
    (x : String)
    (found : x ∈ ((Glob.find q : StateM Machine (List String)).run
      (locked burrowing burrowAgain)).1) :
    ¬ placeOf burrow.home burrowing.pipeline.output <+: placeOf burrow.home x := by
  intro inside
  obtain ⟨-, -, all⟩ := seen_burrowAgain
  rw [read] at all
  have apart := List.all_eq_true.mp all x found
  rw [List.isPrefixOf_iff_prefix.mpr inside] at apart
  cases apart

theorem old_burrow (place : Location) (e : FileEntry) (known : burrow.tree.entry? place = some e) :
    e.modified ≤ burrow.clock := by
  have listed : ∀ x ∈ burrow.tree.entries, x.2.modified ≤ burrow.clock := by decide
  by_cases root : place = []
  · subst root
    cases known
    decide
  · exact listed _ (mem_entries root known)

/-- It is not enough that no file in the folder of results is found: a folder that the first batch
has made may lead to a document beside it. -/
theorem burrow_pending :
    ¬ ∀ (s : Settings Float) (c : Catalog Float) (p : Printed) (m m₂ : Machine) (lock : Lock)
      (documents : List IntakeDocument), c.validate = .ok () → m.tree.Formed →
      Course s c p m lock documents → m₂.tree = (ended s c p m).tree →
      m₂.home = (ended s c p m).home → m.clock ≤ m₂.clock →
      (∀ place e, m.tree.entry? place = some e → e.modified ≤ m.clock) →
      (∀ t ∈ c.templates, t.matchesName Lock.fileName = false) →
      (∀ q, Glob.PathPattern.read (Path.join s.pipeline.intake s.pipeline.filePattern) = .ok q →
        ∀ x ∈ ((Glob.find q : StateM Machine (List String)).run (locked s m₂)).1,
          ¬ placeOf m.home s.pipeline.output <+: placeOf m.home x) →
      ∀ p₂, ((pending s c).runOn p₂ (locked s m₂)).1.1 = .ok [] := by
  intro idle
  have accepted : statements.validate = .ok () := Catalog.validate_eq_ok_iff.mpr (by decide +kernel)
  have formed : burrow.tree.Formed := formed_of_entries (by decide +kernel)
  have none := idle burrowing statements .nothing burrow burrowAgain pairLock [marchForm] accepted
    formed course_burrow (tree_later _ _) (home_later _ _) (by decide +kernel) old_burrow
    (by decide +kernel) outside_burrow .nothing
  obtain ⟨found, known, nothing⟩ := pending_eq_ok.mp none
  obtain ⟨visited, left, -⟩ := seen_burrowAgain
  have found' : findings burrowing statements (locked burrowing burrowAgain) =
      .ok [marchForm, aprilForm] := findings_of_visited visited (by decide +kernel)
  cases found'.symm.trans known
  rw [left] at nothing
  cases nothing

end Batch
end Docket
