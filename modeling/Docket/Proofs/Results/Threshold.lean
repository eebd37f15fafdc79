import Docket.Proofs.Results.Settling

/-! The age at which a batch takes a lock file for abandoned. It is counted in seconds of 64 bits.
As long as they hold the minutes of the settings, a batch passes by every lock file that is younger
than that; beyond, the count starts again at zero, and a batch removes lock files that are far from
old. -/
namespace Docket.Batch
open Machine FileTree

section Batch
variable {s : Settings Float} {c : Catalog Float} {p : Printed} {m : Machine}

theorem runOn_of_young {e : FileEntry} (there : (request s).entry m = some e)
    (young : Lock.age m.clock e.modified < (request s).staleAfter) :
    (run s c).runOn p m = ((.ok .nothing, p), m) := by
  have refused := Lock.acquire_of_young there young
  have same : locked s m = m := congrArg Prod.snd refused
  rw [runOn_run_none (congrArg Prod.fst refused), same]

theorem findings_bare (bare : c.templates = []) {found : List IntakeDocument}
    (known : findings s c m = .ok found) : found = [] := by
  refine List.eq_nil_iff_forall_not_mem.mpr fun d listed => ?_
  obtain ⟨-, -, -, told⟩ := (Intake.mem_discover known d).mp listed
  obtain ⟨-, ⟨t, routed⟩, -⟩ := Intake.documentOf_eq_some told
  obtain ⟨name, -, chosen, -⟩ := routed
  have among := Intake.mem_of_templateFor chosen
  rw [bare] at among
  cases among

/-- A batch that has no templates to look for leaves everything as it is. -/
theorem underLock_bare (bare : c.templates = []) (lock : Lock) (start : Time) :
    ((underLock s c lock start).runOn p m).2 = m := by
  have still := still_pending s c p m
  cases asked : (pending s c).runOn p m with
  | mk answer m' =>
    rw [asked] at still
    rw [underLock, Session.runOn_bind, asked]
    obtain ⟨_ | documents, p'⟩ := answer
    · exact still
    · have told : ((pending s c).runOn p m).1.1 = .ok documents := by rw [asked]
      obtain ⟨found, known, rfl⟩ := pending_eq_ok.mp told
      cases findings_bare bare known
      exact still

/-- When a batch is over that has taken a lock file for abandoned, the file is gone. -/
theorem entry_ended (bare : c.templates = []) (able : Lock.Able (request s).path m)
    (old : ∀ e, (request s).entry m = some e →
      (request s).staleAfter ≤ Lock.age m.clock e.modified) :
    (request s).entry (ended s c p m) = none := by
  have takes := Lock.takes_acquire (request s) m
  cases acquired : (Lock.acquire (request s) :
      StateM Machine (Except DiskError (Option Lock))).run m with
  | mk result m' =>
    rw [acquired] at takes
    cases takes with
    | refused e there young => exact absurd (old e there) (Nat.not_le_of_lt young)
    | failed e unable => exact absurd able unable
    | granted id _ beside drawn free inscribed =>
      let lock : Lock := ⟨(request s).path, Lock.tokenOf m.processId m.drawn⟩
      have own : lock.named ((request s).entry m') = true := by
        rw [inscribed, Lock.named_text, Lock.isNamed_inscription]
      obtain ⟨m'', released, -, -, gone⟩ := Lock.run_release_own own
      have taken : locked s m = m' := congrArg Prod.snd acquired
      rw [ended, run_locked (congrArg Prod.fst acquired), taken, underLock_bare bare, released]
      exact gone

end Batch

/-- A batch passes by a lock file that is younger than the minutes of the settings. -/
def PassesBy (minutes : Nat) : Prop :=
  ∀ (s : Settings Float) (c : Catalog Float) (p : Printed) (m : Machine) (e : FileEntry),
    s.pipeline.staleMinutes = minutes → (request s).entry m = some e →
    Lock.age m.clock e.modified < minutes * 60 * 1000000000 →
      (run s c).runOn p m = ((.ok .nothing, p), m)

/-- The standard settings but for the age of a lock that counts as abandoned. -/
def patient (minutes : Nat) : Settings Float :=
  { Settings.standard with pipeline := { Pipeline.standard with staleMinutes := minutes } }

def bare : Catalog Float := ⟨[], [], []⟩

def heldTree : FileTree where
  entries := [(["intake"], .folder 0), (["intake", Lock.fileName], .file 0 (.text "held") 0)]
  nextId := 1

/-- An intake folder with a lock file that is so many seconds old. -/
def held (seconds : Nat) : Machine where
  tree := heldTree
  home := []
  clock := seconds * 1000000000
  processId := 1
  drawn := 0

theorem leads_held (minutes seconds : Nat) :
    (held seconds).tree.Leads (held seconds).home (request (patient minutes)).path
      ["intake", Lock.fileName] := by
  have leads : heldTree.Leads [] (Path.join Pipeline.standard.intake Lock.fileName)
      ["intake", Lock.fileName] := ⟨by decide, by decide, by decide⟩
  have path : (request (patient minutes)).path =
      Path.join Pipeline.standard.intake Lock.fileName := by
    simp only [request, Lock.Request.of, patient]
  rw [path]
  exact leads

theorem entry_held (minutes seconds : Nat) : (request (patient minutes)).entry (held seconds) =
    some (.file 0 (.text "held") 0) := by
  rw [Lock.Request.entry, standing_of_locate (leads_held minutes seconds).located]
  rfl

theorem age_held (seconds : Nat) : Lock.age (held seconds).clock 0 = seconds * 1000000000 := by
  have clock : (held seconds).clock = seconds * 1000000000 := rfl
  rw [Lock.age, clock]
  omega

theorem entry_ended_held {minutes seconds : Nat} (old : minutes * 60 % twoTo 64 ≤ seconds)
    (p : Printed) :
    (request (patient minutes)).entry (ended (patient minutes) bare p (held seconds)) = none := by
  refine entry_ended rfl ⟨_, leads_held minutes seconds⟩ fun e there => ?_
  rw [entry_held] at there
  cases there
  rw [FileEntry.modified, age_held]
  exact Nat.mul_le_mul_right _ old

theorem request_iff (minutes : Nat) :
    (∀ s : Settings Float, s.pipeline.staleMinutes = minutes →
      request s = ⟨Path.join s.pipeline.intake Lock.fileName, minutes * 60 * 1000000000⟩) ↔
      minutes * 60 < twoTo 64 := by
  constructor
  · intro exactly
    have told := exactly (patient minutes) rfl
    have seconds : minutes * 60 % twoTo 64 * 1000000000 = minutes * 60 * 1000000000 :=
      congrArg Lock.Request.staleAfter told
    rw [← Nat.mul_right_cancel (by decide) seconds]
    exact Nat.mod_lt _ (by decide)
  · rintro fits s rfl
    rw [request, Lock.Request.of, Pipeline.staleSeconds, Nat.mod_eq_of_lt fits]

/-- A batch counts a lock file as abandoned after the minutes of the settings, and passes by every
younger one, exactly if the seconds of these minutes fit into 64 bits. -/
theorem passesBy_iff (minutes : Nat) :
    ((∀ s : Settings Float, s.pipeline.staleMinutes = minutes →
      request s = ⟨Path.join s.pipeline.intake Lock.fileName, minutes * 60 * 1000000000⟩) ↔
        minutes * 60 < twoTo 64) ∧
      (PassesBy minutes ↔ minutes * 60 < twoTo 64) := by
  refine ⟨request_iff minutes, fun passes => ?_, fun fits s c p m e told there young => ?_⟩
  · by_contra many
    -- the lock file is as old as what is left of the seconds
    have less : minutes * 60 % twoTo 64 < minutes * 60 :=
      (Nat.mod_lt _ (by decide +kernel)).trans_le (Nat.le_of_not_lt many)
    have passed := passes (patient minutes) bare .nothing (held (minutes * 60 % twoTo 64)) _ rfl
      (entry_held minutes _) (by
        rw [FileEntry.modified, age_held]
        exact Nat.mul_lt_mul_of_pos_right less (by decide))
    have gone := entry_ended_held (Nat.le_refl (minutes * 60 % twoTo 64)) .nothing
    rw [ended, passed, entry_held] at gone
    cases gone
  · refine runOn_of_young there ?_
    rw [(request_iff minutes).mpr fits s told]
    exact young

/-- The minutes are as many seconds as 44 more than 64 bits hold, and a lock file is removed that is
an hour old. -/
theorem overflow_removes :
    let minutes := 307445734561825861
    minutes < twoTo 64 ∧ 3600 < minutes * 60 ∧
      (request (patient minutes)).entry (held 3600) = some (.file 0 (.text "held") 0) ∧
      (request (patient minutes)).entry
        (ended (patient minutes) bare .nothing (held 3600)) = none := by
  intro minutes
  exact ⟨by decide +kernel, by decide, entry_held _ _, entry_ended_held (by decide +kernel) _⟩

end Docket.Batch
