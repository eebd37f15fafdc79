import Docket.Proofs.Intake.Taking

/-! Taking the lock on a disk that fails now and then. A machine does what it does, but for the
operations on its disk that are to fail: these tell their error, and of a text that was being
written the first characters may be there by then. A call that fails before it has made its file
leaves nothing of its own; one that fails at a line leaves the file, and the file keeps all others
out until it is too old. -/
namespace Docket

/-- A failure of the disk. -/
structure Fault where
  error : DiskError
  /-- How many characters of a text are written before the failure. -/
  kept : Nat

/-- The part of a text that is written before the failure. -/
def Fault.cut (f : Fault) (text : String) : String := String.ofList (text.toList.take f.kept)

/-- A machine and what becomes of the coming operations on its disk, which go well behind the end of
the list. -/
structure Failing where
  machine : Machine
  faults : List (Option Fault)

namespace Failing

variable {β γ : Type}

/-- A deed that the disk has no part in. -/
def safely (deed : StateM Machine β) : StateM Failing β := fun s =>
  ((deed.run s.machine).1, { s with machine := (deed.run s.machine).2 })

/-- An operation on the disk and what it does where it fails. -/
def risky (deed : StateM Machine β) (fails : Fault → StateM Machine β) :
    StateM Failing β := fun s =>
  let done := ((s.faults.head?.join).elim deed fails).run s.machine
  (done.1, ⟨done.2, s.faults.tail⟩)

/-- A failure that changes nothing. -/
def refused (f : Fault) : StateM Machine (Except DiskError β) := return .error f.error

/-- A failure behind a first part. -/
def halfway (first : StateM Machine (Except DiskError Unit)) (f : Fault) :
    StateM Machine (Except DiskError Unit) := do
  let _ ← first
  refused f

instance : Host (StateM Failing) where
  Handle := Host.Handle (StateM Machine)
  kind? path := risky (Host.kind? path) fun _ => return none
  modified? path := risky (Host.modified? path) fun _ => return none
  readText path := risky (Host.readText path) refused
  readDocument path := risky (Host.readDocument path) refused
  writeText path text := risky (Host.writeText path text) fun f =>
    halfway (Host.writeText path (f.cut text)) f
  create path := risky (Host.create path) refused
  append file text := risky (Host.append file text) fun f =>
    halfway (Host.append file (f.cut text)) f
  remove path := risky (Host.remove path) refused
  touch path := risky (Host.touch path) refused
  makeFolder path := risky (Host.makeFolder path) refused
  names path := risky (Host.names path) refused
  now := safely Host.now
  processId := safely Host.processId
  uniqueText := safely Host.uniqueText

/-- The first so many operations on the disk go well. -/
def Quiet (s : Failing) (n : Nat) : Prop := ∀ f ∈ s.faults.take n, f = none

/-- A program that asks the disk so many times does on a failing machine what it does on a machine,
as long as these operations go well. -/
def Mirrors (n : Nat) (x : StateM Failing β) (y : StateM Machine β) : Prop :=
  ∀ s : Failing, s.Quiet n → x.run s = ((y.run s.machine).1, ⟨(y.run s.machine).2, s.faults.drop n⟩)

theorem mirrors_pure (b : β) : Mirrors 0 (pure b) (pure b) := fun _ _ => rfl

theorem mirrors_safely (deed : StateM Machine β) : Mirrors 0 (safely deed) deed := fun _ _ => rfl

theorem mirrors_risky (deed : StateM Machine β) (fails : Fault → StateM Machine β) :
    Mirrors 1 (risky deed fails) deed := by
  intro s quiet
  obtain ⟨m, faults⟩ := s
  match faults, quiet with
  | [], _ => rfl
  | none :: _, _ => rfl
  | some f :: _, quiet => cases quiet (some f) List.mem_cons_self

theorem mirrors_bind {n : Nat} {x : StateM Failing β} {y : StateM Machine β}
    {f : β → StateM Failing γ} {g : β → StateM Machine γ} (first : Mirrors n x y)
    (rest : ∀ b, Mirrors 0 (f b) (g b)) : Mirrors n (x >>= f) (y >>= g) := by
  intro s quiet
  rw [StateT.run_bind, StateT.run_bind, first s quiet]
  exact rest _ _ fun f known => by simp at known

end Failing

namespace Lock
open Machine FileTree Failing

variable {r : Request} {m : Machine}

namespace Attempt

/-- Whether the next step asks the disk for something. -/
def acts : Attempt.OnMachine → Bool
  | writing _ _ [] | done _ => false
  | _ => true

theorem mirrors_step {a : Attempt.OnMachine} (acts : a.acts = true) :
    Mirrors 1 (step (m := StateM Failing) r a) (step (m := StateM Machine) r a) := by
  cases a with
  | looking =>
    refine mirrors_bind (mirrors_risky _ _) fun answer => ?_
    cases answer with
    | none => exact mirrors_pure _
    | some written =>
      refine mirrors_bind (mirrors_safely _) fun time => ?_
      split <;> exact mirrors_pure _
  | clearing =>
    refine mirrors_bind (mirrors_risky _ _) fun answer => ?_
    rcases answer with e | ⟨⟨⟩⟩
    · cases e <;> exact mirrors_pure _
    · exact mirrors_pure _
  | creating =>
    refine mirrors_bind (mirrors_risky _ _) fun answer => ?_
    cases answer with
    | error e => cases e <;> exact mirrors_pure _
    | ok file =>
      refine mirrors_bind (mirrors_safely _) fun processId => ?_
      refine mirrors_bind (mirrors_safely _) fun text => ?_
      exact mirrors_bind (mirrors_safely _) fun time => mirrors_pure _
  | writing id lock left =>
    match left with
    | [] => cases acts
    | line :: left =>
      refine mirrors_bind (mirrors_risky _ _) fun answer => ?_
      cases answer <;> exact mirrors_pure _
  | done result => cases acts

/-- One step of an attempt on a machine whose disk may fail. -/
def risked (r : Request) (a : Attempt.OnMachine) (s : Failing) : Attempt.OnMachine × Failing :=
  (step (m := StateM Failing) r a).run s

theorem risked_quiet {a : Attempt.OnMachine} (acts : a.acts = true) {s : Failing}
    (quiet : s.Quiet 1) : a.risked r s =
      ((a.next r s.machine).1, ⟨(a.next r s.machine).2, s.faults.drop 1⟩) :=
  mirrors_step acts s quiet

section Fault
variable {fs : List (Option Fault)} {f : Fault}

/-- A look that fails counts as one that finds no file. -/
theorem risked_looking : Attempt.looking.risked r ⟨m, some f :: fs⟩ = (.creating, ⟨m, fs⟩) := rfl

theorem risked_clearing : Attempt.clearing.risked r ⟨m, some f :: fs⟩ =
    (if f.error = .notFound then .creating else .done (.error f.error), ⟨m, fs⟩) := by
  obtain ⟨e, kept⟩ := f
  cases e <;> rfl

theorem risked_creating : Attempt.creating.risked r ⟨m, some f :: fs⟩ =
    (.done (if f.error = .taken then .ok none else .error f.error), ⟨m, fs⟩) := by
  obtain ⟨e, kept⟩ := f
  cases e <;> rfl

theorem risked_writing {id : Nat} {lock : Lock} {line : String} {left : List String} :
    (Attempt.writing id lock (line :: left)).risked r ⟨m, some f :: fs⟩ =
      (.done (.error f.error), ⟨{ m with tree := m.tree.append id (f.cut line) m.clock }, fs⟩) :=
  rfl

end Fault
end Attempt

/-- What a call leaves that makes no file: the machine as it was, or without the lock file that was
there. -/
def Unmade (r : Request) (m m' : Machine) : Prop :=
  m' = m ∨ ∃ tree, m.tree.remove m.home r.path = .ok tree ∧ m' = { m with tree }

/-- The file of a call that has still some lines to write. -/
structure Begun (r : Request) (m m' : Machine) (left : List String) : Prop where
  made : m'.tree.nextId = m.tree.nextId + 1
  clock : m'.clock = m.clock
  there : ∃ text, text ++ String.join left =
      inscription m.processId (tokenOf m.processId m.drawn) m.clock ∧
    r.entry m' = some (.file m.tree.nextId (.text text) m.clock)

/-- What a call leaves that fails when it has made its file: the file, with a first part of the
holder's lines, that keeps all others out until it is too old. -/
structure Leaves (r : Request) (m m' : Machine) : Prop where
  made : m'.tree.nextId = m.tree.nextId + 1
  there : ∃ text, text.toList <+:
      (inscription m.processId (tokenOf m.processId m.drawn) m.clock).toList ∧
    r.entry m' = some (.file m.tree.nextId (.text text) m.clock)
  shut : ∀ processId clock staleAfter, age clock m.clock < staleAfter →
    (acquire ⟨r.path, staleAfter⟩ : StateM Machine (Except DiskError (Option Lock))).run
      { m' with processId, clock } = (.ok none, { m' with processId, clock })

section Call
variable {m' : Machine} {line : String} {left : List String}

theorem Begun.append (begun : Begun r m m' (line :: left)) :
    Begun r m { m' with tree := m'.tree.append m.tree.nextId line m'.clock } left := by
  obtain ⟨made, clock, text, whole, there⟩ := begun
  refine ⟨made, clock, text ++ line, ?_, ?_⟩
  · rw [← whole, String.join_cons, String.append_assoc]
  · rw [entry_append_text line there, clock]

theorem toList_cut (f : Fault) (text : String) : (f.cut text).toList = text.toList.take f.kept :=
  String.toList_ofList

theorem Begun.leaves (begun : Begun r m m' (line :: left)) (f : Fault) :
    Leaves r m { m' with tree := m'.tree.append m.tree.nextId (f.cut line) m'.clock } := by
  obtain ⟨made, clock, text, whole, there⟩ := begun
  have entry := entry_append_text (f.cut line) there
  rw [clock] at entry ⊢
  refine ⟨made, ⟨text ++ f.cut line, ?_, entry⟩, fun processId time staleAfter young => ?_⟩
  · rw [← whole, String.join_cons, String.toList_append, String.toList_append, String.toList_append,
      toList_cut]
    refine (List.prefix_append_right_inj _).mpr ?_
    exact (List.take_prefix _ _).trans (List.prefix_append _ _)
  · exact acquire_of_young (r := ⟨r.path, staleAfter⟩) entry young

end Call

/-- How far an attempt may have come that began on a machine, and what it has done there. -/
inductive Reaches (r : Request) (m : Machine) : Attempt.OnMachine → Machine → Prop
  | looking : Reaches r m .looking m
  | clearing : Reaches r m .clearing m
  | creating {m' : Machine} (unmade : Unmade r m m') : Reaches r m .creating m'
  | writing {m' : Machine} (lock : Lock) {left : List String} (begun : Begun r m m' left) :
      Reaches r m (.writing m.tree.nextId lock left) m'
  | failed {m' : Machine} (e : DiskError) (left : Unmade r m m' ∨ Leaves r m m') :
      Reaches r m (.done (.error e)) m'
  | settled (answer : Option Lock) (m' : Machine) : Reaches r m (.done (.ok answer)) m'

theorem identity_of_create {t t' : FileTree} {home : Location} {path : String} {time : Time}
    {id : Nat} (made : t.create home path time = .ok (id, t')) :
    id = t.nextId ∧ t'.nextId = t.nextId + 1 := by
  unfold create at made
  cases aimed : t.target home path with
  | error e => simp [aimed, bind, Except.bind] at made
  | ok place =>
    cases free : t.entry? place with
    | some e => simp [aimed, free, bind, Except.bind] at made
    | none =>
      simp only [aimed, free, bind, Except.bind, Except.ok.injEq, Prod.mk.injEq] at made
      obtain ⟨rfl, rfl⟩ := made
      exact ⟨rfl, rfl⟩

theorem Unmade.begun {m' : Machine} (unmade : Unmade r m m') {id : Nat} {tree : FileTree}
    (made : m'.tree.create m'.home r.path m'.clock = .ok (id, tree)) :
    id = m.tree.nextId ∧ Begun r m { m' with tree, drawn := m'.drawn + 1 }
      (lines m'.processId (tokenOf m'.processId m'.drawn) m'.clock) := by
  obtain ⟨identity, next⟩ := identity_of_create made
  have there := (standing_of_create made).2
  rw [identity] at there
  rcases unmade with rfl | ⟨cleared, removed, rfl⟩
  · exact ⟨identity, next, rfl, "", String.empty_append, there⟩
  · obtain ⟨place, _, _, _, rfl⟩ := exists_file_of_remove removed
    exact ⟨identity, next, rfl, "", String.empty_append, there⟩

theorem reaches_next {a : Attempt.OnMachine} {m' : Machine} (reaches : Reaches r m a m') :
    Reaches r m (a.next r m').1 (a.next r m').2 := by
  cases reaches with
  | looking =>
    rw [next_looking]
    cases r.entry m with
    | none => exact .creating (.inl rfl)
    | some e =>
      dsimp only
      split
      · exact .settled none m
      · exact .clearing
  | clearing =>
    rw [next_clearing]
    cases removed : m.tree.remove m.home r.path with
    | ok tree => exact .creating (.inr ⟨tree, removed, rfl⟩)
    | error e =>
      cases e with
      | notFound => exact .creating (.inl rfl)
      | _ => exact .failed _ (.inl (.inl rfl))
  | creating unmade =>
    rw [next_creating]
    cases made : m'.tree.create m'.home r.path m'.clock with
    | ok answer =>
      obtain ⟨id, tree⟩ := answer
      obtain ⟨rfl, begun⟩ := unmade.begun made
      exact .writing _ begun
    | error e =>
      cases e with
      | taken => exact .settled none m'
      | _ => exact .failed _ (.inl unmade)
  | writing lock begun =>
    rename_i left
    match left with
    | [] => exact .settled (some lock) m'
    | [line] => exact .settled (some lock) _
    | line :: next :: left => exact .writing lock begun.append
  | failed e left => exact .failed e left
  | settled answer => exact .settled answer m'

theorem reaches_fault {a : Attempt.OnMachine} {m' : Machine} (acts : a.acts = true) (f : Fault)
    (fs : List (Option Fault)) (reaches : Reaches r m a m') :
    Reaches r m (a.risked r ⟨m', some f :: fs⟩).1 (a.risked r ⟨m', some f :: fs⟩).2.machine := by
  cases reaches with
  | looking =>
    rw [Attempt.risked_looking]
    exact .creating (.inl rfl)
  | clearing =>
    rw [Attempt.risked_clearing]
    by_cases gone : f.error = .notFound
    · rw [if_pos gone]
      exact .creating (.inl rfl)
    · rw [if_neg gone]
      exact .failed _ (.inl (.inl rfl))
  | creating unmade =>
    rw [Attempt.risked_creating]
    by_cases taken : f.error = .taken
    · rw [if_pos taken]
      exact .settled none m'
    · rw [if_neg taken]
      exact .failed _ (.inl unmade)
  | writing lock begun =>
    rename_i left
    match left with
    | [] => cases acts
    | line :: left =>
      rw [Attempt.risked_writing]
      exact .failed _ (.inr (begun.leaves f))
  | failed e left => cases acts
  | settled answer => cases acts

theorem reaches_idle {a : Attempt.OnMachine} {m' : Machine} (idle : a.acts = false)
    (fs : List (Option Fault)) (reaches : Reaches r m a m') :
    Reaches r m (a.risked r ⟨m', fs⟩).1 (a.risked r ⟨m', fs⟩).2.machine := by
  cases reaches with
  | writing lock begun =>
    rename_i left
    cases left with
    | nil => exact .settled (some lock) m'
    | cons line left => cases idle
  | failed e left => exact .failed e left
  | settled answer => exact .settled answer m'
  | _ => cases idle

theorem reaches_risked {a : Attempt.OnMachine} {s : Failing} (reaches : Reaches r m a s.machine) :
    Reaches r m (a.risked r s).1 (a.risked r s).2.machine := by
  obtain ⟨m', faults⟩ := s
  cases acts : a.acts with
  | false => exact reaches_idle acts faults reaches
  | true =>
    match faults with
    | some f :: fs => exact reaches_fault acts f fs reaches
    | [] =>
      rw [Attempt.risked_quiet acts (by simp [Quiet])]
      exact reaches_next reaches
    | none :: fs =>
      rw [Attempt.risked_quiet acts (by simp [Quiet])]
      exact reaches_next reaches

theorem steps_risked (n : Nat) (a : Attempt.OnMachine) (s : Failing) :
    (Attempt.steps (m := StateM Failing) r (n + 1) a).run s =
      (Attempt.steps (m := StateM Failing) r n (a.risked r s).1).run (a.risked r s).2 := by
  rw [Attempt.steps, StateT.run_bind]
  rfl

theorem reaches_steps (n : Nat) {a : Attempt.OnMachine} {s : Failing}
    (reaches : Reaches r m a s.machine) :
    Reaches r m ((Attempt.steps (m := StateM Failing) r n a).run s).1
      ((Attempt.steps (m := StateM Failing) r n a).run s).2.machine := by
  induction n generalizing a s with
  | zero => exact reaches
  | succ n ih =>
    rw [steps_risked]
    exact ih (reaches_risked reaches)

theorem steps_of_acquire_error {s s' : Failing} {e : DiskError}
    (failed : (acquire (m := StateM Failing) r).run s = (.error e, s')) :
    (Attempt.steps (m := StateM Failing) r Attempt.most .looking).run s =
      (.done (.error e), s') := by
  rw [acquire, StateT.run_bind] at failed
  generalize (Attempt.steps (m := StateM Failing) r Attempt.most .looking).run s = last at failed ⊢
  obtain ⟨a, last⟩ := last
  cases a with
  | done result =>
    cases failed
    rfl
  | _ => cases failed

theorem acquire_of_steps {s s' : Failing} {result : Except DiskError (Option Lock)}
    (ended : (Attempt.steps (m := StateM Failing) r Attempt.most .looking).run s =
      (.done result, s')) : (acquire (m := StateM Failing) r).run s = (result, s') := by
  rw [acquire, StateT.run_bind, ended]
  rfl

theorem steps_stopped (n : Nat) (result : Except DiskError (Option Lock)) (s : Failing) :
    (Attempt.steps (m := StateM Failing) r n (.done result)).run s = (.done result, s) := by
  induction n with
  | zero => rfl
  | succ n ih =>
    rw [steps_risked]
    exact ih

section Line
variable {m' : Machine} {f : Fault} {later : List (Option Fault)}

theorem steps_quiet {a : Attempt.OnMachine} (acts : a.acts = true) (n : Nat)
    (fs : List (Option Fault)) :
    (Attempt.steps (m := StateM Failing) r (n + 1) a).run ⟨m, none :: fs⟩ =
      (Attempt.steps (m := StateM Failing) r n (a.next r m).1).run ⟨(a.next r m).2, fs⟩ := by
  rw [steps_risked, Attempt.risked_quiet acts (by simp [Quiet])]
  rfl

/-- A call that has made its file fails at a line and leaves the file. -/
theorem leaves_steps {line : Nat} {left : List String} (within : line < left.length)
    (begun : Begun r m m' left) (lock : Lock) {n : Nat} (room : line < n) :
    ∃ m'', (Attempt.steps (m := StateM Failing) r n (.writing m.tree.nextId lock left)).run
      ⟨m', List.replicate line none ++ some f :: later⟩ = (.done (.error f.error), ⟨m'', later⟩) ∧
      Leaves r m m'' := by
  induction line generalizing left m' n with
  | zero =>
    obtain ⟨n, rfl⟩ : ∃ k, n = k + 1 := ⟨n - 1, by omega⟩
    cases left with
    | nil => cases within
    | cons text left =>
      refine ⟨_, ?_, begun.leaves f⟩
      rw [List.replicate_zero, List.nil_append, steps_risked, Attempt.risked_writing]
      exact steps_stopped n _ _
  | succ line ih =>
    obtain ⟨n, rfl⟩ : ∃ k, n = k + 1 := ⟨n - 1, by omega⟩
    match left, within, begun with
    | text :: next :: left, within, begun =>
      rw [List.replicate_succ, List.cons_append, steps_quiet rfl]
      exact ih (Nat.lt_of_succ_lt_succ within) begun.append (Nat.lt_of_succ_lt_succ room)

theorem leaves_creating (unmade : Unmade r m m') (able : Able r.path m')
    (vacant : r.entry m' = none) {line n : Nat} (within : line < 3) (room : line < n) (f : Fault)
    (later : List (Option Fault)) :
    ∃ m'', (Attempt.steps (m := StateM Failing) r (n + 1) .creating).run
      ⟨m', none :: (List.replicate line none ++ some f :: later)⟩ =
        (.done (.error f.error), ⟨m'', later⟩) ∧ Leaves r m m'' := by
  obtain ⟨⟨id, tree⟩, made⟩ := able.made vacant
  obtain ⟨rfl, begun⟩ := unmade.begun made
  rw [steps_quiet rfl, next_creating, made]
  exact leaves_steps within begun _ room

/-- How often the disk is asked before the file is made: for a look, and for the removal of a file
that is too old. -/
def Request.before (r : Request) (m : Machine) : Nat := 1 + (r.isStale m).toNat

theorem exists_most (r : Request) (m : Machine) :
    ∃ n, 3 ≤ n ∧ Attempt.most = r.before m + (n + 1) := by
  rw [Request.before]
  cases r.isStale m
  · exact ⟨4, by decide, rfl⟩
  · exact ⟨3, by decide, rfl⟩

section Able
variable (able : Able r.path m)
  (free : ∀ e, r.entry m = some e → r.staleAfter ≤ age m.clock e.modified)
include able free

/-- An attempt whose first operations go well comes to where it makes its file. -/
theorem steps_ready :
    ∃ m', Unmade r m m' ∧ Able r.path m' ∧ r.entry m' = none ∧ ∀ n fs,
      (Attempt.steps (m := StateM Failing) r (r.before m + n) .looking).run
          ⟨m, List.replicate (r.before m) none ++ fs⟩ =
        (Attempt.steps (m := StateM Failing) r n .creating).run ⟨m', fs⟩ := by
  cases there : r.entry m with
  | none =>
    refine ⟨m, .inl rfl, able, there, fun n fs => ?_⟩
    have before : r.before m = 1 := by simp [Request.before, Request.isStale, there]
    rw [before, Nat.add_comm, List.replicate_one, List.singleton_append, steps_quiet rfl,
      next_looking, there]
  | some e =>
    obtain ⟨tree, removed, able', vacant⟩ := able.cleared there
    refine ⟨{ m with tree }, .inr ⟨tree, removed, rfl⟩, able', vacant, fun n fs => ?_⟩
    have old := free e there
    have before : r.before m = 2 := by simp [Request.before, Request.isStale, there, old]
    have two : List.replicate 2 (none : Option Fault) ++ fs = none :: none :: fs := rfl
    rw [before, two, Nat.add_comm, steps_quiet rfl, next_looking, there]
    simp only [if_neg (Nat.not_lt_of_le old)]
    rw [steps_quiet rfl, next_clearing, removed]

/-- A file that cannot be made is not left. -/
theorem unmade_making (other : f.error ≠ .taken) :
    ∃ m', (acquire (m := StateM Failing) r).run
      ⟨m, List.replicate (r.before m) none ++ some f :: later⟩ = (.error f.error, ⟨m', later⟩) ∧
        Unmade r m m' := by
  obtain ⟨m', unmade, -, -, ready⟩ := steps_ready able free
  obtain ⟨n, -, most⟩ := exists_most r m
  refine ⟨m', acquire_of_steps ?_, unmade⟩
  rw [most, ready, steps_risked, Attempt.risked_creating, if_neg other]
  exact steps_stopped n _ _

/-- A file is left whichever of its lines cannot be written. -/
theorem leaves_line {line : Nat} (within : line < 3) :
    ∃ m', (acquire (m := StateM Failing) r).run
      ⟨m, List.replicate (r.before m + (line + 1)) none ++ some f :: later⟩ =
        (.error f.error, ⟨m', later⟩) ∧ Leaves r m m' := by
  obtain ⟨m', unmade, able', vacant, ready⟩ := steps_ready able free
  obtain ⟨n, enough, most⟩ := exists_most r m
  obtain ⟨m'', ran, leaves⟩ :=
    leaves_creating unmade able' vacant within (within.trans_le enough) f later
  refine ⟨m'', acquire_of_steps ?_, leaves⟩
  rw [most, List.replicate_add, List.append_assoc, ready]
  exact ran

end Able

/-- A file that is too old and cannot be removed stays, and nothing comes of the attempt. -/
theorem unmade_clearing (stale : r.isStale m = true) (other : f.error ≠ .notFound) :
    (acquire (m := StateM Failing) r).run ⟨m, none :: some f :: later⟩ =
      (.error f.error, ⟨m, later⟩) := by
  refine acquire_of_steps ?_
  cases there : r.entry m with
  | none => simp [Request.isStale, there] at stale
  | some e =>
    have old : r.staleAfter ≤ age m.clock e.modified := by
      simpa [Request.isStale, there] using stale
    rw [Attempt.most, steps_quiet rfl, next_looking, there]
    simp only [if_neg (Nat.not_lt_of_le old)]
    rw [steps_risked, Attempt.risked_clearing, if_neg other]
    exact steps_stopped _ _ _

end Line

/-- A call that fails, wherever the disk failed, leaves nothing of its own or the file it has made,
with a first part of its lines, and the file keeps all others out until it is too old. Nothing is
left if the disk fails at the removal of an old file or the making of the new one, and the file is
left whichever of its lines the disk fails at. -/
theorem leaves_of_error (r : Request) (m : Machine) :
    (∀ faults e s', (acquire (m := StateM Failing) r).run ⟨m, faults⟩ = (.error e, s') →
      Unmade r m s'.machine ∨ Leaves r m s'.machine) ∧
    (Able r.path m → (∀ e, r.entry m = some e → r.staleAfter ≤ age m.clock e.modified) →
      ∀ f later,
        (r.isStale m = true → f.error ≠ .notFound →
          (acquire (m := StateM Failing) r).run ⟨m, none :: some f :: later⟩ =
            (.error f.error, ⟨m, later⟩)) ∧
        (f.error ≠ .taken → ∃ m', (acquire (m := StateM Failing) r).run
          ⟨m, List.replicate (r.before m) none ++ some f :: later⟩ = (.error f.error, ⟨m', later⟩) ∧
            Unmade r m m') ∧
        ∀ line < 3, ∃ m', (acquire (m := StateM Failing) r).run
          ⟨m, List.replicate (r.before m + (line + 1)) none ++ some f :: later⟩ =
            (.error f.error, ⟨m', later⟩) ∧ Leaves r m m') := by
  refine ⟨fun faults e s' failed => ?_, fun able free f later => ⟨?_, ?_, ?_⟩⟩
  · have reaches := reaches_steps Attempt.most (s := ⟨m, faults⟩) (.looking (r := r) (m := m))
    rw [steps_of_acquire_error failed] at reaches
    cases reaches with
    | failed _ left => exact left
  · exact unmade_clearing
  · exact unmade_making able free
  · exact fun line => leaves_line able free

/-- What a write comes to on a full disk. -/
def full : Fault := ⟨.other "No space left on device (os error 28)", 0⟩

theorem leaves_of_error_full :
    let r : Request := .of "intake" 1800
    (Able r.path Race.abandoned ∧
      ∀ e, r.entry Race.abandoned = some e → r.staleAfter ≤ age Race.abandoned.clock e.modified) ∧
    ∃ m', (acquire (m := StateM Failing) r).run
        ⟨Race.abandoned, List.replicate 3 none ++ [some full]⟩ = (.error full.error, ⟨m', []⟩) ∧
      (Unmade r Race.abandoned m' ∨ Leaves r Race.abandoned m') ∧ Leaves r Race.abandoned m' := by
  intro r
  have able : Able r.path Race.abandoned :=
    ⟨["intake", ".docfield.lock"], by decide +kernel, by decide +kernel, by decide +kernel⟩
  have stale : r.isStale Race.abandoned = true := by decide +kernel
  have free : ∀ e, r.entry Race.abandoned = some e →
      r.staleAfter ≤ age Race.abandoned.clock e.modified := by
    intro e there
    rw [Request.isStale, there] at stale
    exact of_decide_eq_true stale
  have before : r.before Race.abandoned = 2 := by rw [Request.before, stale]; rfl
  obtain ⟨either, fails⟩ := leaves_of_error r Race.abandoned
  obtain ⟨m', failed, leaves⟩ := (fails able free full []).2.2 0 (by decide)
  rw [before] at failed
  exact ⟨⟨able, free⟩, m', failed, either _ _ _ failed, leaves⟩

/-- A call that takes the lock over and finds the disk full. -/
def halted : Except DiskError (Option Lock) × Failing :=
  (acquire (m := StateM Failing) (.of "intake" 1800)).run
    ⟨Race.abandoned, List.replicate 3 none ++ [some full]⟩

/-- A minute later another process is told that the lock is held. -/
theorem halted_shuts_out :
    halted.1 = .error full.error ∧
      (Request.entry (.of "intake" 1800) halted.2.machine).map FileEntry.modified =
        some Race.abandoned.clock ∧
      ((acquire (m := StateM Machine) (.of "intake" 1800)).run
        { halted.2.machine with
          processId := 2, clock := Race.abandoned.clock + 60 * 1000000000 }).1 = .ok none := by
  decide +kernel

end Lock
end Docket
