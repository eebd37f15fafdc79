import Docket.Proofs.Intake.Exclusion
import Docket.Proofs.Intake.Inscription

/-! The lock's operations taken in one go. Nothing comes between the steps of an attempt, so it
finds what it looked at; what a holder does depends on whether the file of the lock names it. -/
namespace Docket

namespace FileTree

variable {t t' : FileTree} {home : Location} {path : String} {place : Location}

/-- A path that leads to a place for a file. -/
structure Leads (t : FileTree) (home : Location) (path : String) (place : Location) : Prop where
  located : t.locate home path = .ok place
  plain : Text.endsWith path "/" = false
  file : t.hasFolder place = false

theorem Leads.congr (leads : t.Leads home path place)
    (folders : ∀ other, t'.hasFolder other = t.hasFolder other) : t'.Leads home path place :=
  ⟨(locate_eq_ok folders home path place).mpr leads.located, leads.plain,
    (folders place).trans leads.file⟩

theorem Leads.create (leads : t.Leads home path place) (free : t.entry? place = none)
    (time : Time) : t.create home path time = .ok (t.nextId, t.add place (.text "") time) := by
  simp [FileTree.create, target, withoutEnd_eq leads.plain, leads.located, leads.plain, free, bind,
    Except.bind]

theorem Leads.opens (leads : t.Leads home path place) {e : FileEntry}
    (there : t.entry? place = some e) : ∃ id content, t.file home path = .ok (place, id, content) := by
  cases e with
  | file id content time =>
    exact ⟨id, content, (file_eq_ok t home path place id content).mpr
      ⟨time, (find_eq_ok t home path place _).mpr ⟨leads.located, there⟩⟩⟩
  | folder time =>
    have folder := leads.file
    rw [hasFolder, there] at folder
    cases folder

theorem remove_of_file {id : Nat} {content : Content}
    (opened : t.file home path = .ok (place, id, content)) :
    t.remove home path = .ok (t.erase place) := by
  simp [remove, opened, bind, Except.bind]

theorem stamp_of_file {id : Nat} {content : Content}
    (opened : t.file home path = .ok (place, id, content)) (time : Time) :
    t.stamp home path time = .ok (t.set place (.file id content time)) := by
  simp [stamp, opened, bind, Except.bind]

theorem leads_of_file {id : Nat} {content : Content}
    (opened : t.file home path = .ok (place, id, content)) : t.Leads home path place := by
  obtain ⟨time, found⟩ := (file_eq_ok t home path place id content).mp opened
  obtain ⟨located, known⟩ := (find_eq_ok t home path place _).mp found
  have there : t.fileAt place = some (content, time) := by rw [fileAt, known]
  exact ⟨located, endsWith_of_fileAt located there, by rw [hasFolder, known]; rfl⟩

theorem exists_file_of_remove (removed : t.remove home path = .ok t') :
    ∃ place id content, t.file home path = .ok (place, id, content) ∧ t' = t.erase place := by
  cases opened : t.file home path with
  | error e => simp [remove, opened, bind, Except.bind] at removed
  | ok answer =>
    obtain ⟨place, id, content⟩ := answer
    rw [remove_of_file opened] at removed
    cases removed
    exact ⟨place, id, content, rfl, rfl⟩

theorem folders_of_create {time : Time} {id : Nat} (made : t.create home path time = .ok (id, t'))
    (other : Location) : t'.hasFolder other = t.hasFolder other := by
  unfold create target at made
  cases located : t.locate home (withoutEnd path) with
  | error e => simp [located, bind, Except.bind] at made
  | ok place =>
    cases ends : Text.endsWith path "/" with
    | true => simp [located, ends, bind, Except.bind] at made
    | false =>
      cases free : t.entry? place with
      | some e => simp [located, ends, free, bind, Except.bind] at made
      | none =>
        simp only [located, ends, free, bind, Except.bind, Bool.false_eq_true, if_false,
          Except.ok.injEq, Prod.mk.injEq] at made
        obtain ⟨rfl, rfl⟩ := made
        have file : t.hasFolder place = false := by rw [hasFolder, free]; rfl
        exact hasFolder_set file t.nextId (.text "") time other

theorem walk_ne_taken (t : FileTree) (here : Location) (pieces : List String) :
    t.walk here pieces ≠ .error .taken := by
  induction pieces generalizing here with
  | nil => simp [walk]
  | cons piece rest ih =>
    rw [walk]
    split
    · simp
    · simp
    · split
      · exact ih _
      · split
        · exact ih _
        · split
          · simp
          · exact ih _

theorem locate_ne_taken (t : FileTree) (home : Location) (path : String) :
    t.locate home path ≠ .error .taken := by
  unfold locate
  split
  · simp
  · split
    · simp
    · exact walk_ne_taken t _ _

/-- A file cannot be made anew only where something stands. -/
theorem standing_of_create_taken {time : Time}
    (refused : t.create home path time = .error .taken) : t.standing home path ≠ none := by
  unfold create target at refused
  cases located : t.locate home (withoutEnd path) with
  | error e =>
    simp only [located, bind, Except.bind, Except.error.injEq] at refused
    exact absurd (refused ▸ located) (locate_ne_taken t home _)
  | ok place =>
    cases ends : Text.endsWith path "/" with
    | true => simp [located, ends, bind, Except.bind] at refused
    | false =>
      rw [withoutEnd_eq ends] at located
      rw [standing_of_locate located]
      intro free
      simp [withoutEnd_eq ends, located, ends, free, bind, Except.bind] at refused

end FileTree

namespace Lock
open Machine FileTree

/-- What is common to a machine before and after a deed with the lock. -/
structure Beside (m m' : Machine) : Prop where
  home : m'.home = m.home
  clock : m'.clock = m.clock
  folders : ∀ place, m'.tree.hasFolder place = m.tree.hasFolder place

theorem Beside.trans {m m' m'' : Machine} (first : Beside m m') (second : Beside m' m'') :
    Beside m m'' :=
  ⟨second.home.trans first.home, second.clock.trans first.clock,
    fun place => (second.folders place).trans (first.folders place)⟩

/-- Whether a lock file can be made at a path and removed there. -/
def Able (path : String) (m : Machine) : Prop := ∃ place, m.tree.Leads m.home path place

theorem Able.congr {path : String} {m m' : Machine} (able : Able path m) (beside : Beside m m') :
    Able path m' := by
  obtain ⟨place, leads⟩ := able
  exact ⟨place, beside.home ▸ leads.congr beside.folders⟩

section Attempt
variable {r : Request} {m : Machine}

theorem Able.made (able : Able r.path m) (vacant : r.entry m = none) :
    ∃ answer, m.tree.create m.home r.path m.clock = .ok answer := by
  obtain ⟨place, leads⟩ := able
  exact ⟨_, leads.create ((standing_of_locate leads.located).symm.trans vacant) m.clock⟩

theorem Able.cleared (able : Able r.path m) {e : FileEntry} (there : r.entry m = some e) :
    ∃ tree, m.tree.remove m.home r.path = .ok tree ∧ Able r.path { m with tree } ∧
      r.entry { m with tree } = none := by
  obtain ⟨place, leads⟩ := able
  obtain ⟨id, content, opened⟩ := leads.opens ((standing_of_locate leads.located).symm.trans there)
  have removed := remove_of_file opened
  exact ⟨_, removed, ⟨place, leads.congr (hasFolder_erase leads.file)⟩, standing_of_remove removed⟩

theorem next_looking : Attempt.looking.next r m =
    (match r.entry m with
      | none => .creating
      | some e => if age m.clock e.modified < r.staleAfter then .done (.ok none) else .clearing,
      m) := by
  rw [Attempt.next, Attempt.step, StateT.run_bind, run_modified, Request.entry]
  cases m.tree.standing m.home r.path with
  | none => rfl
  | some e =>
    let answer : StateM Machine Attempt.OnMachine :=
      if age m.clock e.modified < r.staleAfter then pure (.done (.ok none)) else pure .clearing
    show answer.run m = _
    by_cases young : age m.clock e.modified < r.staleAfter
    · simp only [answer, if_pos young]
      rfl
    · simp only [answer, if_neg young]
      rfl

theorem next_clearing : Attempt.clearing.next r m =
    match m.tree.remove m.home r.path with
    | .ok tree => (.creating, { m with tree })
    | .error .notFound => (.creating, m)
    | .error e => (.done (.error e), m) := by
  rw [Attempt.next, Attempt.step, StateT.run_bind, run_remove]
  cases m.tree.remove m.home r.path with
  | ok tree => rfl
  | error e => cases e <;> rfl

theorem next_creating : Attempt.creating.next r m =
    match m.tree.create m.home r.path m.clock with
    | .ok (id, tree) =>
      (.writing id ⟨r.path, tokenOf m.processId m.drawn⟩
        (lines m.processId (tokenOf m.processId m.drawn) m.clock),
        { m with tree, drawn := m.drawn + 1 })
    | .error .taken => (.done (.ok none), m)
    | .error e => (.done (.error e), m) := by
  rw [Attempt.next, Attempt.step, StateT.run_bind, run_create]
  cases m.tree.create m.home r.path m.clock with
  | ok answer => rfl
  | error e => cases e <;> rfl

theorem steps_done (n : Nat) (result : Except DiskError (Option Lock)) :
    ((Attempt.done result).steps r n : StateM Machine Attempt.OnMachine).run m =
      (.done result, m) := by
  induction n with
  | zero => rfl
  | succ n ih =>
    rw [steps_succ]
    exact ih

/-- The machine after lines have been added to a file. -/
def written (id : Nat) (m : Machine) (lines : List String) : Machine :=
  lines.foldl (fun m line => { m with tree := m.tree.append id line m.clock }) m

theorem steps_writing {id : Nat} {lock : Lock} {lines : List String} (nonempty : lines ≠ [])
    {n : Nat} (room : lines.length ≤ n) (m : Machine) :
    ((Attempt.writing id lock lines).steps r n : StateM Machine Attempt.OnMachine).run m =
      (.done (.ok (some lock)), written id m lines) := by
  induction lines generalizing n m with
  | nil => exact absurd rfl nonempty
  | cons line left ih =>
    obtain ⟨n, rfl⟩ : ∃ k, n = k + 1 := ⟨n - 1, by rw [List.length_cons] at room; omega⟩
    rw [steps_succ]
    cases left with
    | nil => exact steps_done n _
    | cons next left => exact ih (by simp) (by simpa using room) _

theorem beside_written (id : Nat) (m : Machine) (lines : List String) :
    Beside m (written id m lines) ∧ (written id m lines).drawn = m.drawn := by
  induction lines generalizing m with
  | nil => exact ⟨⟨rfl, rfl, fun _ => rfl⟩, rfl⟩
  | cons line lines ih =>
    let m₁ : Machine := { m with tree := m.tree.append id line m.clock }
    have step : Beside m m₁ := ⟨rfl, rfl, hasFolder_append m.tree id line m.clock⟩
    obtain ⟨beside, drawn⟩ := ih m₁
    exact ⟨step.trans beside, drawn⟩

theorem entry_append_text {text : String} {id : Nat} {written : Time} (line : String)
    (there : r.entry m = some (.file id (.text text) written)) :
    r.entry { m with tree := m.tree.append id line m.clock } =
      some (.file id (.text (text ++ line)) m.clock) := by
  rw [Request.entry, standing_append]
  rw [Request.entry] at there
  rw [there]
  simp [extended]

theorem entry_written {id : Nat} {text : String} (lines : List String)
    (there : r.entry m = some (.file id (.text text) m.clock)) :
    r.entry (written id m lines) =
      some (.file id (.text (text ++ String.join lines)) m.clock) := by
  induction lines generalizing m text with
  | nil =>
    rw [String.join_nil, String.append_empty]
    exact there
  | cons line lines ih =>
    rw [String.join_cons, ← String.append_assoc]
    exact ih (entry_append_text line there)

/-- What taking the lock in one go comes to. -/
inductive Takes (r : Request) (m : Machine) : Except DiskError (Option Lock) → Machine → Prop
  | granted (id : Nat) (m' : Machine) (beside : Beside m m') (drawn : m'.drawn = m.drawn + 1)
      (free : ∀ e, r.entry m = some e → r.staleAfter ≤ age m.clock e.modified)
      (inscribed : r.entry m' = some (.file id
        (.text (inscription m.processId (tokenOf m.processId m.drawn) m.clock)) m.clock)) :
      Takes r m (.ok (some ⟨r.path, tokenOf m.processId m.drawn⟩)) m'
  | refused (e : FileEntry) (there : r.entry m = some e)
      (young : age m.clock e.modified < r.staleAfter) : Takes r m (.ok none) m
  | failed (e : DiskError) (unable : ¬ Able r.path m)
      (free : ∀ e, r.entry m = some e → r.staleAfter ≤ age m.clock e.modified) :
      Takes r m (.error e) m

/-- An attempt that has found the place free makes the file and fills it. -/
theorem steps_creating (vacant : r.entry m = none) {n : Nat} (room : 4 ≤ n) :
    (∃ (e : DiskError), ¬ Able r.path m ∧
      (Attempt.creating.steps r n : StateM Machine Attempt.OnMachine).run m =
        (.done (.error e), m)) ∨
    ∃ id m', Beside m m' ∧ m'.drawn = m.drawn + 1 ∧
      r.entry m' = some (.file id
        (.text (inscription m.processId (tokenOf m.processId m.drawn) m.clock)) m.clock) ∧
      (Attempt.creating.steps r n : StateM Machine Attempt.OnMachine).run m =
        (.done (.ok (some ⟨r.path, tokenOf m.processId m.drawn⟩)), m') := by
  obtain ⟨n, rfl⟩ : ∃ k, n = k + 1 := ⟨n - 1, by omega⟩
  rw [steps_succ, next_creating]
  cases made : m.tree.create m.home r.path m.clock with
  | ok answer =>
    obtain ⟨id, tree⟩ := answer
    have there := (standing_of_create made).2
    let m₁ : Machine := { m with tree, drawn := m.drawn + 1 }
    have step : Beside m m₁ := ⟨rfl, rfl, folders_of_create made⟩
    obtain ⟨beside, drawn⟩ := beside_written id m₁
      (lines m.processId (tokenOf m.processId m.drawn) m.clock)
    refine .inr ⟨id, _, step.trans beside, drawn, ?_,
      steps_writing (by simp [lines]) (by simp [lines]; omega) m₁⟩
    have entry := entry_written (r := r) (m := m₁)
      (lines m.processId (tokenOf m.processId m.drawn) m.clock) there
    rwa [String.empty_append] at entry
  | error e =>
    have unable : ¬ Able r.path m := by
      intro able
      obtain ⟨answer, possible⟩ := able.made vacant
      rw [possible] at made
      cases made
    cases e with
    | taken => exact absurd vacant (standing_of_create_taken made)
    | _ => exact .inl ⟨_, unable, steps_done n _⟩

theorem takes_acquire (r : Request) (m : Machine) :
    Takes r m ((acquire r : StateM Machine (Except DiskError (Option Lock))).run m).1
      ((acquire r : StateM Machine (Except DiskError (Option Lock))).run m).2 := by
  have whole := steps_acquire r m
  generalize (acquire r : StateM Machine (Except DiskError (Option Lock))).run m = answer
    at whole ⊢
  obtain ⟨result, m'⟩ := answer
  rw [Attempt.most, steps_succ, next_looking] at whole
  cases there : r.entry m with
  | none =>
    have free : ∀ e, r.entry m = some e → r.staleAfter ≤ age m.clock e.modified := by simp [there]
    rw [there] at whole
    obtain ⟨e, unable, ran⟩ | ⟨id, m₁, beside, drawn, inscribed, ran⟩ :=
      steps_creating there (n := 5) (by decide)
    · cases ran.symm.trans whole
      exact .failed e unable free
    · cases ran.symm.trans whole
      exact .granted id m' beside drawn free inscribed
  | some e =>
    rw [there] at whole
    by_cases young : age m.clock e.modified < r.staleAfter
    · simp only [if_pos young, steps_done] at whole
      cases whole
      exact .refused e there young
    · have free : ∀ e, r.entry m = some e → r.staleAfter ≤ age m.clock e.modified := by
        intro e' same
        rw [there] at same
        cases same
        exact Nat.le_of_not_lt young
      simp only [if_neg young] at whole
      rw [steps_succ, next_clearing] at whole
      cases removed : m.tree.remove m.home r.path with
      | error e' =>
        rw [removed] at whole
        have unable : ¬ Able r.path m := by
          intro able
          obtain ⟨tree, possible, -⟩ := able.cleared there
          rw [possible] at removed
          cases removed
        cases e' with
        | notFound =>
          have gone : r.entry m = none := standing_of_remove_notFound removed
          rw [there] at gone
          cases gone
        | _ =>
          simp only [steps_done] at whole
          cases whole
          exact .failed _ unable free
      | ok tree =>
        rw [removed] at whole
        -- the file that was removed told where a new one can be made
        obtain ⟨place, id, content, opened, rfl⟩ := exists_file_of_remove removed
        let m₁ : Machine := { m with tree := m.tree.erase place }
        have leads := leads_of_file opened
        have step : Beside m m₁ := ⟨rfl, rfl, hasFolder_erase leads.file⟩
        have able : Able r.path m₁ := ⟨place, leads.congr step.folders⟩
        have vacant : r.entry m₁ = none := standing_of_remove removed
        obtain ⟨e', unable, -⟩ | ⟨id', m₂, beside, drawn, inscribed, ran⟩ :=
          steps_creating vacant (n := 4) (by decide)
        · exact absurd able unable
        · cases ran.symm.trans whole
          exact .granted id' m' (step.trans beside) drawn free inscribed

/-- Nothing comes of an attempt that finds a young lock file. -/
theorem acquire_of_young {e : FileEntry} (there : r.entry m = some e)
    (young : age m.clock e.modified < r.staleAfter) :
    (acquire r : StateM Machine (Except DiskError (Option Lock))).run m = (.ok none, m) := by
  have takes := takes_acquire r m
  generalize (acquire r : StateM Machine (Except DiskError (Option Lock))).run m = answer at takes ⊢
  obtain ⟨result, m'⟩ := answer
  cases takes with
  | refused => rfl
  | granted _ _ _ _ free | failed _ _ free => exact absurd (free e there) (Nat.not_le_of_lt young)

end Attempt

section Holder
variable {l : Lock} {m : Machine}

/-- Whether what stands at its path names a holder. -/
def named (l : Lock) : Option FileEntry → Bool
  | some (.file _ (.text text) _) => l.isNamed text
  | _ => false

theorem named_text (l : Lock) (id : Nat) (text : String) (written : Time) :
    l.named (some (.file id (.text text) written)) = l.isNamed text := rfl

theorem run_isOwned (l : Lock) (m : Machine) : (l.isOwned : StateM Machine Bool).run m =
    (l.named (m.tree.standing m.home l.path), m) := by
  rw [isOwned, StateT.run_bind, run_readText, standing, FileTree.file]
  cases m.tree.find m.home l.path with
  | error e => rfl
  | ok found =>
    obtain ⟨place, e⟩ := found
    cases e with
    | folder time => rfl
    | file id content time => cases content <;> rfl

theorem run_refresh_other (other : l.named (m.tree.standing m.home l.path) = false) :
    (l.refresh : StateM Machine (Except DiskError Bool)).run m = (.ok false, m) := by
  rw [refresh, run_bind_of (run_isOwned l m), other]
  rfl

theorem run_release_other (other : l.named (m.tree.standing m.home l.path) = false) :
    (l.release : StateM Machine Unit).run m = ((), m) := by
  rw [release, run_bind_of (run_isOwned l m), other]
  rfl

theorem opens_of_named (own : l.named (m.tree.standing m.home l.path) = true) :
    ∃ place id content written, m.tree.entry? place = some (.file id content written) ∧
      m.tree.standing m.home l.path = some (.file id content written) ∧
      m.tree.file m.home l.path = .ok (place, id, content) := by
  unfold named at own
  split at own
  · rename_i id text written there
    obtain ⟨place, located, entry⟩ := (standing_eq_some _ _ _ _).mp there
    exact ⟨place, id, .text text, written, entry, there, (file_eq_ok _ _ _ _ _ _).mpr
      ⟨written, (find_eq_ok _ _ _ _ _).mpr ⟨located, entry⟩⟩⟩
  · cases own

/-- A named holder writes the file's time anew. -/
theorem run_refresh_own (own : l.named (m.tree.standing m.home l.path) = true) :
    ∃ id content written m', m.tree.standing m.home l.path = some (.file id content written) ∧
      (l.refresh : StateM Machine (Except DiskError Bool)).run m = (.ok true, m') ∧
      Beside m m' ∧ m'.drawn = m.drawn ∧
      m'.tree.standing m'.home l.path = some (.file id content m.clock) := by
  obtain ⟨place, id, content, written, entry, there, opened⟩ := opens_of_named own
  have leads := leads_of_file opened
  have below : place ≠ [] := by
    rintro rfl
    cases entry
  let tree := m.tree.set place (.file id content m.clock)
  have folders : ∀ other, tree.hasFolder other = m.tree.hasFolder other :=
    hasFolder_set leads.file id content m.clock
  have touched : (Host.touch l.path : StateM Machine (Except DiskError Unit)).run m =
      (.ok (), { m with tree }) := by
    show alter (fun m => m.tree.stamp m.home l.path m.clock) m = _
    simp only [alter, change, stamp_of_file opened]
    rfl
  refine ⟨id, content, written, { m with tree }, there, ?_, ⟨rfl, rfl, folders⟩, rfl, ?_⟩
  · rw [refresh, run_bind_of (run_isOwned l m), own, if_pos rfl, run_bind_of touched]
    rfl
  · rw [standing_of_locate (leads.congr folders).located]
    exact (entry?_set m.tree place place _ below).trans (if_pos rfl)

/-- A named holder removes the file. -/
theorem run_release_own (own : l.named (m.tree.standing m.home l.path) = true) :
    ∃ m', (l.release : StateM Machine Unit).run m = ((), m') ∧ Beside m m' ∧
      m'.drawn = m.drawn ∧ m'.tree.standing m'.home l.path = none := by
  obtain ⟨place, id, content, written, entry, there, opened⟩ := opens_of_named own
  have removed := remove_of_file opened
  have ran : (Host.remove l.path : StateM Machine (Except DiskError Unit)).run m =
      (.ok (), { m with tree := m.tree.erase place }) := by
    rw [run_remove, removed]
  refine ⟨{ m with tree := m.tree.erase place }, ?_,
    ⟨rfl, rfl, hasFolder_erase (leads_of_file opened).file⟩, rfl, standing_of_remove removed⟩
  rw [release, run_bind_of (run_isOwned l m), own, if_pos rfl, run_bind_of ran]
  rfl

end Holder
end Lock
end Docket
