import Docket.Proofs.Intake.Taking

/-! The lock over whole runs, each of its operations done in one go. While the file of the lock
names a holder, it is what one holder wrote, so no other is named. That file grows older only as
time passes, and an attempt succeeds on a file that is old enough and where there is none. -/
namespace Docket.Lock
open Machine FileTree

/-- What processes do with the lock, and the passing of time. -/
inductive Deed
  | acquire (processId staleAfter : Nat)
  | refresh (l : Lock)
  | drop (l : Lock)
  | pass (time : Nat)

/-- A machine and the locks that processes keep, named by the file or not. -/
structure Custody where
  machine : Machine
  holders : List Lock

namespace Custody

def start (m : Machine) : Custody := ⟨m, []⟩

/-- What stands where the lock file belongs. -/
def entry (path : String) (s : Custody) : Option FileEntry :=
  s.machine.tree.standing s.machine.home path

def attempt (path : String) (s : Custody) (processId staleAfter : Nat) :
    Except DiskError (Option Lock) × Machine :=
  (Lock.acquire ⟨path, staleAfter⟩ : StateM Machine (Except DiskError (Option Lock))).run
    { s.machine with processId }

def owns (s : Custody) (l : Lock) : Bool := ((l.isOwned : StateM Machine Bool).run s.machine).1

def refreshed (s : Custody) (l : Lock) : Except DiskError Bool × Machine :=
  (l.refresh : StateM Machine (Except DiskError Bool)).run s.machine

def released (s : Custody) (l : Lock) : Machine :=
  ((l.release : StateM Machine Unit).run s.machine).2

/-- A holder that has dropped its lock is none any more. -/
def deed (path : String) (s : Custody) : Deed → Custody
  | .acquire processId staleAfter =>
    match s.attempt path processId staleAfter with
    | (.ok (some l), machine) => ⟨machine, l :: s.holders⟩
    | (_, machine) => { s with machine }
  | .refresh l => if l ∈ s.holders then { s with machine := (s.refreshed l).2 } else s
  | .drop l => if l ∈ s.holders then ⟨s.released l, s.holders.erase l⟩ else s
  | .pass time => { s with machine := { s.machine with clock := s.machine.clock + time } }

def run (path : String) (s : Custody) (deeds : List Deed) : Custody := deeds.foldl (deed path) s

/-- The file of the lock is as a holder wrote it, at a time that has come. -/
def Inscribed (path : String) (s : Custody) : Prop :=
  ∃ id processId n time written,
    s.entry path = some (.file id
      (.text (inscription processId (tokenOf processId n) time)) written) ∧
    written ≤ s.machine.clock

/-- Holders are apart, and a file that names one of them is as one wrote it. -/
structure Sound (path : String) (s : Custody) : Prop where
  paths : ∀ l ∈ s.holders, l.path = path
  drawn : ∀ l ∈ s.holders, ∃ processId n, n < s.machine.drawn ∧ l.token = tokenOf processId n
  nodup : s.holders.Nodup
  inscribed : ∀ l ∈ s.holders, l.named (s.entry path) = true → Inscribed path s

variable {path : String} {s : Custody}

theorem sound_start (path : String) (m : Machine) : Sound path (start m) :=
  ⟨by simp [start], by simp [start], List.nodup_nil, by simp [start]⟩

theorem refreshed_other {l : Lock} (other : s.owns l = false) :
    s.refreshed l = (.ok false, s.machine) := by
  rw [owns, run_isOwned] at other
  exact run_refresh_other other

theorem released_other {l : Lock} (other : s.owns l = false) : s.released l = s.machine := by
  rw [owns, run_isOwned] at other
  rw [released, run_release_other other]

theorem takes_attempt (path : String) (s : Custody) (processId staleAfter : Nat) :
    Takes ⟨path, staleAfter⟩ { s.machine with processId }
      (s.attempt path processId staleAfter).1 (s.attempt path processId staleAfter).2 :=
  takes_acquire _ _

section Sound
variable (sound : Sound path s)
include sound

theorem owns_eq {l : Lock} (holder : l ∈ s.holders) : s.owns l = l.named (s.entry path) := by
  rw [owns, run_isOwned, sound.paths l holder, entry]

/-- At most one holder is named. -/
theorem owner_unique {l l' : Lock} (holder : l ∈ s.holders) (own : s.owns l = true)
    (holder' : l' ∈ s.holders) (own' : s.owns l' = true) : l' = l := by
  rw [owns_eq sound holder] at own
  rw [owns_eq sound holder'] at own'
  obtain ⟨id, processId, n, time, written, there, -⟩ := sound.inscribed l holder own
  rw [there, named_text, isNamed_inscription] at own own'
  have paths := (sound.paths l' holder').trans (sound.paths l holder).symm
  cases l
  cases l'
  rw [Lock.mk.injEq]
  exact ⟨paths, own'.trans own.symm⟩

theorem Sound.later {m : Machine} {holders : List Lock} (kept : holders.Sublist s.holders)
    (drawn : m.drawn = s.machine.drawn)
    (inscribed : ∀ l ∈ s.holders, l.named (entry path ⟨m, holders⟩) = true →
      Inscribed path ⟨m, holders⟩) : Sound path ⟨m, holders⟩ :=
  ⟨fun l known => sound.paths l (kept.subset known),
    fun l known => drawn ▸ sound.drawn l (kept.subset known), sound.nodup.sublist kept,
    fun l known => inscribed l (kept.subset known)⟩

/-- What a deed does that leaves the file of the lock as it is. -/
theorem Sound.same {m : Machine} {holders : List Lock} (kept : holders.Sublist s.holders)
    (drawn : m.drawn = s.machine.drawn) (clock : s.machine.clock ≤ m.clock)
    (same : entry path ⟨m, holders⟩ = s.entry path) : Sound path ⟨m, holders⟩ := by
  refine sound.later kept drawn fun l known own => ?_
  rw [same] at own
  obtain ⟨id, processId, n, time, written, there, past⟩ := sound.inscribed l known own
  exact ⟨id, processId, n, time, written, same.trans there, past.trans clock⟩

theorem sound_acquire (processId staleAfter : Nat) :
    Sound path (s.deed path (.acquire processId staleAfter)) := by
  have takes := takes_attempt path s processId staleAfter
  rw [deed]
  generalize s.attempt path processId staleAfter = answer at takes ⊢
  obtain ⟨result, m⟩ := answer
  cases takes with
  | refused e there young => exact sound.same (List.Sublist.refl _) rfl le_rfl rfl
  | failed e unable free => exact sound.same (List.Sublist.refl _) rfl le_rfl rfl
  | granted id _ beside drawn free inscribed =>
    have more : m.drawn = s.machine.drawn + 1 := drawn
    have written : Inscribed path ⟨m, ⟨path, tokenOf processId s.machine.drawn⟩ :: s.holders⟩ :=
      ⟨id, processId, s.machine.drawn, s.machine.clock, s.machine.clock, inscribed,
        beside.clock.ge⟩
    -- no token was given to two holders
    have fresh : (⟨path, tokenOf processId s.machine.drawn⟩ : Lock) ∉ s.holders := by
      intro known
      obtain ⟨processId', n, old, token⟩ := sound.drawn _ known
      have same := tokenOf_inj token
      omega
    refine ⟨?_, ?_, List.nodup_cons.mpr ⟨fresh, sound.nodup⟩, fun _ _ _ => written⟩
    · intro l known
      rcases List.mem_cons.mp known with rfl | known
      · rfl
      · exact sound.paths l known
    · intro l known
      rcases List.mem_cons.mp known with rfl | known
      · exact ⟨processId, s.machine.drawn, more ▸ Nat.lt_succ_self _, rfl⟩
      · obtain ⟨processId', n, old, token⟩ := sound.drawn l known
        exact ⟨processId', n, more ▸ Nat.lt_succ_of_lt old, token⟩

/-- An owner leaves what it wrote in place and tells the time anew. -/
theorem refreshed_own {l : Lock} (holder : l ∈ s.holders) (own : s.owns l = true) :
    ∃ id content written, s.entry path = some (.file id content written) ∧
      (s.refreshed l).1 = .ok true ∧ Beside s.machine (s.refreshed l).2 ∧
      (s.refreshed l).2.drawn = s.machine.drawn ∧
      entry path ⟨(s.refreshed l).2, s.holders⟩ = some (.file id content s.machine.clock) := by
  rw [owns, run_isOwned] at own
  obtain ⟨id, content, written, m, there, ran, beside, drawn, after⟩ := run_refresh_own own
  rw [sound.paths l holder] at there after
  rw [refreshed, ran]
  exact ⟨id, content, written, there, rfl, beside, drawn, after⟩

theorem released_own {l : Lock} (holder : l ∈ s.holders) (own : s.owns l = true) :
    Beside s.machine (s.released l) ∧ (s.released l).drawn = s.machine.drawn ∧
      entry path ⟨s.released l, s.holders.erase l⟩ = none := by
  rw [owns, run_isOwned] at own
  obtain ⟨m, ran, beside, drawn, after⟩ := run_release_own own
  rw [sound.paths l holder] at after
  rw [released, ran]
  exact ⟨beside, drawn, after⟩

theorem sound_refresh (l : Lock) : Sound path (s.deed path (.refresh l)) := by
  rw [deed]
  split
  · rename_i holder
    cases own : s.owns l with
    | false =>
      rw [refreshed_other own]
      exact sound
    | true =>
      obtain ⟨id, content, written, there, -, beside, drawn, after⟩ :=
        refreshed_own sound holder own
      refine sound.later (List.Sublist.refl _) drawn fun l' known own' => ?_
      rw [after] at own'
      have before : l'.named (s.entry path) = true := by
        rw [there]
        cases content <;> exact own'
      obtain ⟨id', processId, n, time, written', there', past⟩ := sound.inscribed l' known before
      rw [there] at there'
      cases there'
      exact ⟨id, processId, n, time, s.machine.clock, after, beside.clock.ge⟩
  · exact sound

theorem sound_drop (l : Lock) : Sound path (s.deed path (.drop l)) := by
  rw [deed]
  split
  · rename_i holder
    cases own : s.owns l with
    | false =>
      rw [released_other own]
      exact sound.same List.erase_sublist rfl le_rfl rfl
    | true =>
      obtain ⟨-, drawn, gone⟩ := released_own sound holder own
      refine sound.later List.erase_sublist drawn fun l' known own' => ?_
      rw [gone] at own'
      cases own'
  · exact sound

theorem Sound.deed (d : Deed) : Sound path (s.deed path d) := by
  cases d with
  | acquire processId staleAfter => exact sound_acquire sound processId staleAfter
  | refresh l => exact sound_refresh sound l
  | drop l => exact sound_drop sound l
  | pass time => exact sound.same (List.Sublist.refl _) rfl (by simp) rfl

end Sound

theorem Sound.run (deeds : List Deed) {s : Custody} (sound : Sound path s) :
    Sound path (s.run path deeds) := by
  induction deeds generalizing s with
  | nil => exact sound
  | cons d deeds ih => exact ih (sound.deed d)

/-- No deed moves a folder, so the lock file can be made and removed as before. -/
theorem able_deed (sound : Sound path s) (able : Able path s.machine) (d : Deed) :
    Able path (s.deed path d).machine := by
  cases d with
  | acquire processId staleAfter =>
    have takes := takes_attempt path s processId staleAfter
    rw [deed]
    generalize s.attempt path processId staleAfter = answer at takes ⊢
    obtain ⟨result, m⟩ := answer
    cases takes with
    | refused e there young => exact able
    | failed e unable free => exact able
    | granted id _ beside drawn free inscribed => exact Able.congr able ⟨beside.home, beside.clock, beside.folders⟩
  | refresh l =>
    rw [deed]
    split
    · rename_i holder
      cases own : s.owns l with
      | false => rwa [refreshed_other own]
      | true =>
        obtain ⟨id, content, written, -, -, beside, -, -⟩ := refreshed_own sound holder own
        exact able.congr beside
    · exact able
  | drop l =>
    rw [deed]
    split
    · rename_i holder
      cases own : s.owns l with
      | false => rwa [released_other own]
      | true => exact able.congr (released_own sound holder own).1
    · exact able
  | pass time => exact able

theorem able_run (deeds : List Deed) {s : Custody} (sound : Sound path s)
    (able : Able path s.machine) : Able path (s.run path deeds).machine := by
  induction deeds generalizing s with
  | nil => exact able
  | cons d deeds ih => exact ih (sound.deed d) (able_deed sound able d)

/-- Whether an owner writes the time of its file anew often enough: no attempt comes when the file
has reached the age at which it would be taken for abandoned. -/
def Tended (l : Lock) : Nat → List Deed → Prop
  | _, [] => True
  | since, .acquire _ staleAfter :: deeds => since < staleAfter ∧ Tended l since deeds
  | since, .refresh l' :: deeds => Tended l (if l' = l then 0 else since) deeds
  | since, .drop l' :: deeds => l' ≠ l ∧ Tended l since deeds
  | since, .pass time :: deeds => Tended l (since + time) deeds

/-- A holder that owns the lock, with a file no older than so many nanoseconds. -/
structure Keeping (path : String) (l : Lock) (since : Nat) (s : Custody) : Prop where
  sound : Sound path s
  holder : l ∈ s.holders
  own : l.named (s.entry path) = true
  young : ∀ e, s.entry path = some e → age s.machine.clock e.modified ≤ since

variable {l : Lock} {since : Nat}

theorem Keeping.owns (keeping : Keeping path l since s) : s.owns l = true :=
  (owns_eq keeping.sound keeping.holder).trans keeping.own

theorem Keeping.entry_eq (keeping : Keeping path l since s) :
    ∃ id content written, s.entry path = some (.file id content written) := by
  obtain ⟨id, content, written, there, -⟩ :=
    refreshed_own keeping.sound keeping.holder keeping.owns
  exact ⟨id, content, written, there⟩

theorem Keeping.refuses (keeping : Keeping path l since s) {staleAfter : Nat}
    (short : since < staleAfter) (processId : Nat) :
    s.attempt path processId staleAfter = (.ok none, { s.machine with processId }) := by
  obtain ⟨id, content, written, there⟩ := keeping.entry_eq
  exact acquire_of_young (r := ⟨path, staleAfter⟩) (m := { s.machine with processId }) there
    ((keeping.young _ there).trans_lt short)

theorem Keeping.deed (keeping : Keeping path l since s) {d : Deed} {later : List Deed}
    (tended : Tended l since (d :: later)) :
    ∃ since', Keeping path l since' (s.deed path d) ∧ Tended l since' later := by
  have sound := keeping.sound.deed d
  cases d with
  | acquire processId staleAfter =>
    obtain ⟨short, tended⟩ := tended
    have refused := keeping.refuses short processId
    rw [Custody.deed, refused] at sound ⊢
    exact ⟨since, ⟨sound, keeping.holder, keeping.own, keeping.young⟩, tended⟩
  | refresh l' =>
    by_cases holder : l' ∈ s.holders
    · rw [Custody.deed, if_pos holder] at sound ⊢
      cases own : s.owns l' with
      | false =>
        have other : l' ≠ l := by
          rintro rfl
          rw [keeping.owns] at own
          cases own
        rw [Tended, if_neg other] at tended
        rw [refreshed_other own]
        exact ⟨since, keeping, tended⟩
      | true =>
        have same := owner_unique keeping.sound keeping.holder keeping.owns holder own
        subst same
        rw [Tended, if_pos rfl] at tended
        obtain ⟨id, content, written, there, -, beside, -, after⟩ :=
          refreshed_own keeping.sound holder own
        refine ⟨0, ⟨sound, holder, ?_, fun e known => ?_⟩, tended⟩
        · have named := keeping.own
          rw [there] at named
          rw [after]
          cases content <;> exact named
        · rw [after] at known
          cases known
          simp [age, beside.clock, FileEntry.modified]
    · have other : l' ≠ l := by
        rintro rfl
        exact holder keeping.holder
      rw [Tended, if_neg other] at tended
      rw [Custody.deed, if_neg holder]
      exact ⟨since, keeping, tended⟩
  | drop l' =>
    obtain ⟨other, tended⟩ := tended
    by_cases holder : l' ∈ s.holders
    · rw [Custody.deed, if_pos holder] at sound ⊢
      have lost : s.owns l' = false := by
        refine Bool.eq_false_iff.mpr fun own => ?_
        exact other (owner_unique keeping.sound keeping.holder keeping.owns holder own)
      rw [released_other lost] at sound ⊢
      exact ⟨since, ⟨sound, (List.mem_erase_of_ne other.symm).mpr keeping.holder, keeping.own,
        keeping.young⟩, tended⟩
    · rw [Custody.deed, if_neg holder]
      exact ⟨since, keeping, tended⟩
  | pass time =>
    refine ⟨since + time, ⟨sound, keeping.holder, keeping.own, fun e known => ?_⟩, tended⟩
    have young := keeping.young e known
    simp only [Custody.deed, age] at young ⊢
    omega

theorem Keeping.run (later : List Deed) {s : Custody} {since : Nat}
    (keeping : Keeping path l since s) (tended : Tended l since later) :
    (∃ since', Keeping path l since' (s.run path later)) ∧
      ∀ past processId staleAfter rest, later = past ++ .acquire processId staleAfter :: rest →
        ((s.run path past).attempt path processId staleAfter).1 = .ok none := by
  induction later generalizing s since with
  | nil => exact ⟨⟨since, keeping⟩, by simp⟩
  | cons d later ih =>
    obtain ⟨since', next, tended'⟩ := keeping.deed tended
    obtain ⟨ends, refused⟩ := ih next tended'
    refine ⟨ends, fun past processId staleAfter rest cut => ?_⟩
    cases past with
    | nil =>
      obtain ⟨rfl, rfl⟩ := List.cons.inj cut
      have refused := keeping.refuses tended.1 processId
      show (s.attempt path processId staleAfter).1 = _
      rw [refused]
    | cons d' past =>
      obtain ⟨rfl, rest'⟩ := List.cons.inj cut
      exact refused past processId staleAfter rest rest'

/-- The lock in order at one point of a run. -/
structure Orderly (path : String) (s : Custody) : Prop where
  one : (s.holders.filter s.owns).length ≤ 1
  /-- Who is not named changes nothing. -/
  refreshed : ∀ l ∈ s.holders, s.owns l = false → s.refreshed l = (.ok false, s.machine)
  released : ∀ l ∈ s.holders, s.owns l = false → s.released l = s.machine
  /-- An owner that drops its lock removes the file. -/
  gone : ∀ l ∈ s.holders, s.owns l = true → entry path ⟨s.released l, s.holders.erase l⟩ = none
  /-- An attempt that does not fail succeeds if there is no file or an old one, and only then. -/
  succeeds : ∀ processId staleAfter,
    (∀ e, (s.attempt path processId staleAfter).1 ≠ .error e) →
      ((∃ l, (s.attempt path processId staleAfter).1 = .ok (some l)) ↔
        s.entry path = none ∨
          ∃ e, s.entry path = some e ∧ staleAfter ≤ age s.machine.clock e.modified)
  /-- Who has taken the lock owns it. -/
  taken : ∀ processId staleAfter l, (s.attempt path processId staleAfter).1 = .ok (some l) →
    (s.deed path (.acquire processId staleAfter)).owns l = true

theorem Sound.one (sound : Sound path s) : (s.holders.filter s.owns).length ≤ 1 := by
  rw [← List.toFinset_card_of_nodup (sound.nodup.filter _), Finset.card_le_one]
  intro l first l' second
  rw [List.mem_toFinset, List.mem_filter] at first second
  exact (owner_unique sound first.1 first.2 second.1 second.2).symm

theorem succeeds_iff (path : String) (s : Custody) {processId staleAfter : Nat}
    (smooth : ∀ e, (s.attempt path processId staleAfter).1 ≠ .error e) :
    (∃ l, (s.attempt path processId staleAfter).1 = .ok (some l)) ↔
      s.entry path = none ∨
        ∃ e, s.entry path = some e ∧ staleAfter ≤ age s.machine.clock e.modified := by
  have takes := takes_attempt path s processId staleAfter
  generalize s.attempt path processId staleAfter = answer at takes smooth ⊢
  obtain ⟨result, m⟩ := answer
  cases takes with
  | failed e unable free => exact absurd rfl (smooth e)
  | refused e there young =>
    have known : s.entry path = some e := there
    have short : age s.machine.clock e.modified < staleAfter := young
    constructor
    · rintro ⟨l, taken⟩
      cases taken
    · rintro (free | ⟨e', there', old⟩)
      · rw [known] at free
        cases free
      · rw [known] at there'
        cases there'
        omega
  | granted id _ beside drawn free inscribed =>
    refine ⟨fun _ => ?_, fun _ => ⟨_, rfl⟩⟩
    cases there : s.entry path with
    | none => exact .inl rfl
    | some e => exact .inr ⟨e, rfl, free e there⟩

theorem Sound.taken (sound : Sound path s) {processId staleAfter : Nat} {l : Lock}
    (taken : (s.attempt path processId staleAfter).1 = .ok (some l)) :
    (s.deed path (.acquire processId staleAfter)).owns l = true := by
  have after := sound.deed (.acquire processId staleAfter)
  have takes := takes_attempt path s processId staleAfter
  rw [Custody.deed] at after ⊢
  generalize s.attempt path processId staleAfter = answer at takes taken after ⊢
  obtain ⟨result, m⟩ := answer
  cases takes with
  | failed e unable free => cases taken
  | refused e there young => cases taken
  | granted id _ beside drawn free inscribed =>
    cases taken
    have there : entry path ⟨m, ⟨path, tokenOf processId s.machine.drawn⟩ :: s.holders⟩ =
        some (.file id (.text (inscription processId (tokenOf processId s.machine.drawn)
          s.machine.clock)) s.machine.clock) := inscribed
    rw [owns_eq after List.mem_cons_self, there, named_text, isNamed_inscription]

theorem Sound.orderly (sound : Sound path s) : Orderly path s where
  one := sound.one
  refreshed _ _ other := refreshed_other other
  released _ _ other := released_other other
  gone _ holder own := (released_own sound holder own).2.2
  succeeds _ _ smooth := succeeds_iff path s smooth
  taken _ _ _ taken := sound.taken taken

/-- However processes take, refresh and drop the lock as time passes, it stays in order; attempts
do not fail where the lock file can be made, and none succeeds while an owner tends its lock. -/
theorem orderly_run (path : String) (m : Machine) (deeds : List Deed) :
    let s := (start m).run path deeds
    Orderly path s ∧
      (Able path m → ∀ processId staleAfter e,
        (s.attempt path processId staleAfter).1 ≠ .error e) ∧
      ∀ l ∈ s.holders, s.owns l = true → ∀ since later,
        (∀ e, s.entry path = some e → age s.machine.clock e.modified ≤ since) →
        Tended l since later →
          (s.run path later).owns l = true ∧
            ∀ past processId staleAfter rest, later = past ++ .acquire processId staleAfter :: rest →
              ((s.run path past).attempt path processId staleAfter).1 = .ok none := by
  intro s
  have sound : Sound path s := (sound_start path m).run deeds
  refine ⟨sound.orderly, fun able processId staleAfter e failed => ?_,
    fun l holder own since later young tended => ?_⟩
  · have able' : Able path s.machine := able_run deeds (sound_start path m) able
    have takes := takes_attempt path s processId staleAfter
    rw [failed] at takes
    generalize (s.attempt path processId staleAfter).2 = m' at takes
    cases takes with
    | failed _ unable free => exact unable able'
  · have keeping : Keeping path l since s :=
      ⟨sound, holder, (owns_eq sound holder).symm.trans own, young⟩
    obtain ⟨⟨since', ends⟩, refused⟩ := keeping.run later tended
    exact ⟨ends.owns, refused⟩

/-- A first process leaves its lock for an hour and a second one takes it over. -/
def takeOver : List Deed :=
  [.acquire 1 1800000000000, .pass 3600000000000, .acquire 2 1800000000000]

def first : Lock := ⟨"intake/.docfield.lock", tokenOf 1 0⟩

def second : Lock := ⟨"intake/.docfield.lock", tokenOf 2 1⟩

/-- The first comes back late, and the second refreshes its lock after less than half an hour. -/
def lateReturn : List Deed :=
  [.pass 1500000000000, .refresh first, .refresh second, .drop first, .pass 1500000000000,
    .acquire 3 1800000000000]

theorem orderly_run_takeOver :
    let path := "intake/.docfield.lock"
    let s := (start Race.abandoned).run path takeOver
    Able path Race.abandoned ∧ s.holders = [second, first] ∧ s.owns first = false ∧
      s.owns second = true ∧ Tended second 0 lateReturn ∧
      (s.run path lateReturn).owns second = true ∧
      ((s.run path (lateReturn.take 5)).attempt path 3 1800000000000).1 = .ok none := by
  intro path s
  have able : Able path Race.abandoned :=
    ⟨["intake", ".docfield.lock"], by decide +kernel, by decide +kernel, by decide +kernel⟩
  have holders : s.holders = [second, first] := by decide +kernel
  have own : s.owns second = true := by decide +kernel
  have tended : Tended second 0 lateReturn := by
    simp only [Tended, lateReturn]
    decide +kernel
  have young : ∀ e, s.entry path = some e → age s.machine.clock e.modified ≤ 0 := by
    intro e known
    have written : (s.entry path).map FileEntry.modified = some s.machine.clock := by
      decide +kernel
    rw [known, Option.map_some, Option.some.injEq] at written
    simp [age, written]
  have lost : s.owns first = false := by decide +kernel
  have cut : lateReturn = lateReturn.take 5 ++ [.acquire 3 1800000000000] := rfl
  obtain ⟨-, -, safe⟩ := orderly_run path Race.abandoned takeOver
  have holder : second ∈ s.holders := holders ▸ List.mem_cons_self
  obtain ⟨keeps, refuses⟩ := safe second holder own 0 lateReturn young tended
  have refused := refuses (lateReturn.take 5) 3 1800000000000 [] cut
  exact ⟨able, holders, lost, own, tended, keeps, refused⟩

end Custody
end Docket.Lock
