import Mathlib
import Docket.Intake.Lock
import Docket.Proofs.Host.FileTree

/-! How many calls can come out of a race with the lock. Several processes try to take one lock,
their steps in any order and with the clock set in between. A call that found the lock file of no
use removes by name what stands there by then, which may be the lock another has just made; the
number of such calls, and not one, bounds the number of holders. -/
namespace Docket.Lock
open Machine

/-- The file a machine makes is known by a number. -/
abbrev Attempt.OnMachine := Attempt (Host.Handle (StateM Machine))

def Attempt.next (r : Request) (a : Attempt.OnMachine) (m : Machine) :
    Attempt.OnMachine × Machine :=
  (a.step r : StateM Machine Attempt.OnMachine).run m

/-- What stands where the lock file belongs. -/
def Request.entry (r : Request) (m : Machine) : Option FileEntry := m.tree.standing m.home r.path

/-- What a step does to an attempt and to the machine. -/
inductive Moves (r : Request) (m : Machine) :
    Attempt.OnMachine → Attempt.OnMachine → Machine → Prop
  | absent (free : r.entry m = none) : Moves r m .looking .creating m
  | fresh (e : FileEntry) (there : r.entry m = some e)
      (young : age m.clock e.modified < r.staleAfter) : Moves r m .looking (.done (.ok none)) m
  | stale (e : FileEntry) (there : r.entry m = some e)
      (old : r.staleAfter ≤ age m.clock e.modified) : Moves r m .looking .clearing m
  | cleared (tree : FileTree) (free : r.entry { m with tree } = none) :
      Moves r m .clearing .creating { m with tree }
  | gone (free : r.entry m = none) : Moves r m .clearing .creating m
  | stuck (e : DiskError) (refused : m.tree.remove m.home r.path = .error e) :
      Moves r m .clearing (.done (.error e)) m
  | made (id : Nat) (tree : FileTree) (token : String) (drawn : Nat) (free : r.entry m = none)
      (there : r.entry { m with tree, drawn } = some (.file id (.text "") m.clock)) :
      Moves r m .creating (.writing id ⟨r.path, token⟩ (lines m.processId token m.clock))
        { m with tree, drawn }
  | taken (refused : m.tree.create m.home r.path m.clock = .error .taken) :
      Moves r m .creating (.done (.ok none)) m
  | failed (e : DiskError) (refused : m.tree.create m.home r.path m.clock = .error e) :
      Moves r m .creating (.done (.error e)) m
  | blank (id : Nat) (lock : Lock) :
      Moves r m (.writing id lock []) (.done (.ok (some lock))) m
  | filled (id : Nat) (lock : Lock) (line : String) :
      Moves r m (.writing id lock [line]) (.done (.ok (some lock)))
        { m with tree := m.tree.append id line m.clock }
  | written (id : Nat) (lock : Lock) (line next : String) (left : List String) :
      Moves r m (.writing id lock (line :: next :: left)) (.writing id lock (next :: left))
        { m with tree := m.tree.append id line m.clock }
  | over (result : Except DiskError (Option Lock)) : Moves r m (.done result) (.done result) m

theorem moves_looking (r : Request) (m : Machine) :
    Moves r m .looking (Attempt.looking.next r m).1 (Attempt.looking.next r m).2 := by
  rw [Attempt.next, Attempt.step, StateT.run_bind, run_modified]
  cases there : m.tree.standing m.home r.path with
  | none => exact .absent there
  | some e =>
    let answer : StateM Machine Attempt.OnMachine :=
      if age m.clock e.modified < r.staleAfter then pure (.done (.ok none)) else pure .clearing
    show Moves r m .looking (answer.run m).1 (answer.run m).2
    by_cases young : age m.clock e.modified < r.staleAfter
    · rw [show answer = pure (.done (.ok none)) from if_pos young]
      exact .fresh e there young
    · rw [show answer = pure .clearing from if_neg young]
      exact .stale e there (Nat.le_of_not_lt young)

theorem moves_clearing (r : Request) (m : Machine) :
    Moves r m .clearing (Attempt.clearing.next r m).1 (Attempt.clearing.next r m).2 := by
  rw [Attempt.next, Attempt.step, StateT.run_bind, run_remove]
  cases removed : m.tree.remove m.home r.path with
  | ok tree => exact .cleared tree (FileTree.standing_of_remove removed)
  | error e =>
    cases e with
    | notFound => exact .gone (FileTree.standing_of_remove_notFound removed)
    | _ => exact .stuck _ removed

theorem moves_creating (r : Request) (m : Machine) :
    Moves r m .creating (Attempt.creating.next r m).1 (Attempt.creating.next r m).2 := by
  rw [Attempt.next, Attempt.step, StateT.run_bind, run_create]
  cases created : m.tree.create m.home r.path m.clock with
  | ok answer =>
    obtain ⟨free, there⟩ := FileTree.standing_of_create created
    exact .made _ _ _ _ free there
  | error e =>
    cases e with
    | taken => exact .taken created
    | _ => exact .failed _ created

theorem moves_next (r : Request) (a : Attempt.OnMachine) (m : Machine) :
    Moves r m a (a.next r m).1 (a.next r m).2 := by
  cases a with
  | looking => exact moves_looking r m
  | clearing => exact moves_clearing r m
  | creating => exact moves_creating r m
  | writing id lock left =>
    match left with
    | [] => exact .blank id lock
    | [line] => exact .filled id lock line
    | line :: next :: left => exact .written id lock line next left
  | done result => exact .over result

theorem Moves.processId {r : Request} {m m' : Machine} {a a' : Attempt.OnMachine}
    (moves : Moves r m a a' m') : m'.processId = m.processId := by
  cases moves <;> rfl

/-- The most steps an attempt still takes. -/
def Attempt.ahead : Attempt.OnMachine → Nat
  | looking => 6
  | clearing => 5
  | creating => 4
  | writing _ _ left => max 1 left.length
  | done _ => 0

theorem Moves.ahead {r : Request} {m m' : Machine} {a a' : Attempt.OnMachine}
    (moves : Moves r m a a' m') : a'.ahead ≤ a.ahead - 1 := by
  cases moves <;> simp [Attempt.ahead, lines]

theorem steps_succ (r : Request) (n : Nat) (a : Attempt.OnMachine) (m : Machine) :
    (a.steps r (n + 1) : StateM Machine Attempt.OnMachine).run m =
      ((a.next r m).1.steps r n : StateM Machine Attempt.OnMachine).run (a.next r m).2 := by
  rw [Attempt.steps, StateT.run_bind]
  rfl

theorem ahead_steps (r : Request) (n : Nat) (a : Attempt.OnMachine) (m : Machine) :
    ((a.steps r n : StateM Machine Attempt.OnMachine).run m).1.ahead ≤ a.ahead - n := by
  induction n generalizing a m with
  | zero => exact Nat.le_refl _
  | succ n ih =>
    have first := (moves_next r a m).ahead
    have rest := ih (a.next r m).1 (a.next r m).2
    rw [steps_succ]
    omega

/-- The steps that `acquire` takes bring an attempt to its end. -/
theorem steps_acquire (r : Request) (m : Machine) :
    (Attempt.looking.steps r Attempt.most : StateM Machine Attempt.OnMachine).run m =
      (.done ((acquire r : StateM Machine (Except DiskError (Option Lock))).run m).1,
        ((acquire r : StateM Machine (Except DiskError (Option Lock))).run m).2) := by
  have ended := ahead_steps r Attempt.most .looking m
  rw [acquire, StateT.run_bind]
  generalize (Attempt.looking.steps r Attempt.most : StateM Machine Attempt.OnMachine).run m = last
    at ended ⊢
  obtain ⟨a, m'⟩ := last
  cases a with
  | done result => rfl
  | _ => simp [Attempt.ahead, Attempt.most] at ended

theorem entry_append (r : Request) (m : Machine) (id : Nat) (line : String) :
    (r.entry { m with tree := m.tree.append id line m.clock }).isSome = (r.entry m).isSome := by
  rw [Request.entry, FileTree.standing_append, Option.isSome_map]
  rfl

namespace Request

/-- Whether a lock file is there and too old. -/
def isStale (r : Request) (m : Machine) : Bool :=
  match r.entry m with
  | none => false
  | some e => r.staleAfter ≤ age m.clock e.modified

/-- The number of places free for a lock file. -/
def vacant (r : Request) (m : Machine) : Nat := if (r.entry m).isSome then 0 else 1

theorem vacant_of_none {r : Request} {m : Machine} (free : r.entry m = none) : r.vacant m = 1 := by
  rw [vacant, free]
  rfl

theorem vacant_of_some {r : Request} {m : Machine} {e : FileEntry} (there : r.entry m = some e) :
    r.vacant m = 0 := by
  rw [vacant, there]
  rfl

theorem vacant_of_isStale {r : Request} {m : Machine} (stale : r.isStale m = true) :
    r.vacant m = 0 := by
  cases there : r.entry m with
  | none => simp [isStale, there] at stale
  | some e => exact vacant_of_some there

theorem vacant_le (r : Request) (m : Machine) : r.vacant m ≤ 1 := by
  rw [vacant]
  split <;> omega

end Request

namespace Attempt

def isMade : Attempt.OnMachine → Bool
  | writing .. => true
  | done (.ok (some _)) => true
  | _ => false

def isHolder : Attempt.OnMachine → Bool
  | done (.ok (some _)) => true
  | _ => false

def isClearing : Attempt.OnMachine → Bool
  | clearing => true
  | _ => false

/-- 1 if the attempt is about to find the lock file too old. -/
def finds (r : Request) (m : Machine) : Attempt.OnMachine → Nat
  | looking => (r.isStale m).toNat
  | _ => 0

theorem finds_cases (r : Request) (m : Machine) (a : Attempt.OnMachine) :
    a.finds r m = 0 ∨ a.finds r m = 1 ∧ r.isStale m = true := by
  cases a with
  | looking => cases stale : r.isStale m <;> simp [finds, stale]
  | _ => exact .inl rfl

end Attempt

theorem Moves.clearing {r : Request} {m m' : Machine} {a a' : Attempt.OnMachine}
    (moves : Moves r m a a' m') :
    a'.isClearing.toNat ≤ a.isClearing.toNat + a.finds r m := by
  cases moves with
  | stale e there old => simp [Attempt.isClearing, Attempt.finds, Request.isStale, there, old]
  | _ => simp [Attempt.isClearing]

/-- A lock made takes the free place, and a removal to come gives way to one. -/
theorem Moves.shares {r : Request} {m m' : Machine} {a a' : Attempt.OnMachine}
    (moves : Moves r m a a' m') :
    a'.isMade.toNat + a'.isClearing.toNat + r.vacant m' ≤
      a.isMade.toNat + a.isClearing.toNat + r.vacant m + a.finds r m := by
  cases moves with
  | stale e there old =>
    have found : Attempt.looking.finds r m = 1 := by
      simp [Attempt.finds, Request.isStale, there, old]
    simp only [Attempt.isMade, Attempt.isClearing, Bool.toNat_true, Bool.toNat_false]
    omega
  | cleared tree free =>
    have after : r.vacant { m with tree } = 1 := Request.vacant_of_none free
    simp only [Attempt.isMade, Attempt.isClearing, Bool.toNat_true, Bool.toNat_false]
    omega
  | made id tree token drawn free there =>
    simp [Attempt.isMade, Attempt.isClearing, Request.vacant_of_none free,
      Request.vacant_of_some there]
  | filled id lock line | written id lock line next left =>
    simp only [Request.vacant, entry_append, Attempt.isMade, Attempt.isClearing]
    omega
  | _ =>
    simp only [Attempt.isMade, Attempt.isClearing, Bool.toNat_true, Bool.toNat_false]
    omega

/-- A call of a process that asks for the lock. -/
structure Call where
  processId : Nat
  attempt : Attempt.OnMachine

structure Race where
  machine : Machine
  calls : List Call

/-- One call takes a step, or time is told anew. -/
inductive Turn
  | step (call : Nat)
  | clock (time : Time)

namespace Race

def start (m : Machine) (processIds : List Nat) : Race :=
  ⟨m, processIds.map fun processId => ⟨processId, .looking⟩⟩

def turn (r : Request) (s : Race) : Turn → Race
  | .clock time => { s with machine := { s.machine with clock := time } }
  | .step i =>
    match s.calls[i]? with
    | none => s
    | some c =>
      let (attempt, machine) := c.attempt.next r { s.machine with processId := c.processId }
      ⟨machine, s.calls.set i { c with attempt }⟩

def run (r : Request) (s : Race) (turns : List Turn) : Race := turns.foldl (turn r) s

def count (p : Attempt.OnMachine → Bool) (s : Race) : Nat := s.calls.countP fun c => p c.attempt

/-- The calls that have made a lock file. -/
def makers (s : Race) : Nat := s.count Attempt.isMade

/-- The calls that have come out with a lock. -/
def holders (s : Race) : Nat := s.count Attempt.isHolder

/-- The calls that are about to remove the lock file. -/
def clearers (s : Race) : Nat := s.count Attempt.isClearing

def finds (r : Request) (s : Race) : Turn → Nat
  | .clock _ => 0
  | .step i =>
    match s.calls[i]? with
    | none => 0
    | some c => c.attempt.finds r s.machine

/-- How many calls find the lock file too old. -/
def found (r : Request) : Race → List Turn → Nat
  | _, [] => 0
  | s, t :: turns => s.finds r t + found r (s.turn r t) turns

/-- No lock made in the race has come of age. -/
def Young (r : Request) (s : Race) : Prop := 0 < s.makers → r.isStale s.machine = false

instance (r : Request) (s : Race) : Decidable (Young r s) :=
  inferInstanceAs (Decidable (_ → _))

/-- Each lock made, each removal to come and a free place goes back to a call that found the
lock file too old; one of them needs no such call. -/
structure Bounded (r : Request) (f : Nat) (s : Race) : Prop where
  clearers : s.clearers ≤ f
  shares : s.makers + s.clearers + r.vacant s.machine ≤ max 1 f

theorem count_start (p : Attempt.OnMachine → Bool) (idle : p .looking = false) (m : Machine)
    (processIds : List Nat) : (start m processIds).count p = 0 := by
  rw [count, start, List.countP_eq_zero]
  intro c among
  obtain ⟨processId, -, rfl⟩ := List.mem_map.mp among
  simp [idle]

theorem bounded_start (r : Request) (m : Machine) (processIds : List Nat) :
    Bounded r 0 (start m processIds) := by
  have makers : (start m processIds).makers = 0 := count_start _ rfl m processIds
  have clearers : (start m processIds).clearers = 0 := count_start _ rfl m processIds
  have vacant := r.vacant_le (start m processIds).machine
  exact ⟨by omega, by omega⟩

theorem countP_set_add {β : Type} (p : β → Bool) {l : List β} {i : Nat} {b : β}
    (there : l[i]? = some b) (b' : β) :
    (l.set i b').countP p + (p b).toNat = l.countP p + (p b').toNat := by
  induction l generalizing i with
  | nil => simp at there
  | cons c l ih =>
    cases i with
    | zero =>
      simp only [List.getElem?_cons_zero, Option.some.injEq] at there
      subst there
      simp only [List.set_cons_zero, List.countP_cons, Bool.toNat, Bool.cond_eq_ite]
      omega
    | succ i =>
      have rest := ih there
      simp only [List.set_cons_succ, List.countP_cons]
      omega

theorem turn_step {r : Request} {s : Race} {i : Nat} {c : Call} (there : s.calls[i]? = some c) :
    ∃ a m, Moves r { s.machine with processId := c.processId } c.attempt a m ∧
      s.turn r (.step i) = ⟨m, s.calls.set i { c with attempt := a }⟩ :=
  ⟨_, _, moves_next r c.attempt _, by rw [turn, there]⟩

theorem run_alone (r : Request) (n : Nat) (a : Attempt.OnMachine) (m : Machine) :
    (⟨m, [⟨m.processId, a⟩]⟩ : Race).run r (List.replicate n (.step 0)) =
      ⟨((a.steps r n : StateM Machine Attempt.OnMachine).run m).2,
        [⟨m.processId, ((a.steps r n : StateM Machine Attempt.OnMachine).run m).1⟩]⟩ := by
  induction n generalizing a m with
  | zero => rfl
  | succ n ih =>
    have same := (moves_next r a m).processId
    have rest := ih (a.next r m).1 (a.next r m).2
    rw [steps_succ, ← same, ← rest, same]
    rfl

/-- A call that has the machine to itself comes out as `acquire` does. -/
theorem run_acquire (r : Request) (m : Machine) :
    (start m [m.processId]).run r (List.replicate Attempt.most (.step 0)) =
      ⟨((acquire r : StateM Machine (Except DiskError (Option Lock))).run m).2,
        [⟨m.processId,
          .done ((acquire r : StateM Machine (Except DiskError (Option Lock))).run m).1⟩]⟩ := by
  have alone := run_alone r Attempt.most .looking m
  rw [steps_acquire] at alone
  exact alone

theorem Bounded.turn {r : Request} {f : Nat} {s : Race} (bounded : Bounded r f s)
    (young : Young r s) (t : Turn) : Bounded r (f + s.finds r t) (s.turn r t) := by
  obtain ⟨clearers, shares⟩ := bounded
  cases t with
  | clock time => exact ⟨clearers, shares⟩
  | step i =>
    cases there : s.calls[i]? with
    | none =>
      simp only [finds, Race.turn, there]
      exact ⟨clearers, shares⟩
    | some c =>
      obtain ⟨a, m, moves, turned⟩ := turn_step (r := r) there
      have counted (p : Attempt.OnMachine → Bool) :
          (s.turn r (.step i)).count p + (p c.attempt).toNat = s.count p + (p a).toNat := by
        rw [turned]
        exact countP_set_add (fun c => p c.attempt) there _
      have made : (s.turn r (.step i)).makers + _ = s.makers + _ := counted Attempt.isMade
      have removals : (s.turn r (.step i)).clearers + _ = s.clearers + _ :=
        counted Attempt.isClearing
      have clearing : a.isClearing.toNat ≤
          c.attempt.isClearing.toNat + c.attempt.finds r s.machine := moves.clearing
      have shared : a.isMade.toNat + a.isClearing.toNat + r.vacant (s.turn r (.step i)).machine ≤
          c.attempt.isMade.toNat + c.attempt.isClearing.toNat + r.vacant s.machine +
            c.attempt.finds r s.machine := by
        rw [turned]
        exact moves.shares
      have finding : s.finds r (.step i) = c.attempt.finds r s.machine := by rw [finds, there]
      rw [finding]
      rcases c.attempt.finds_cases r s.machine with none | ⟨one, stale⟩
      · exact ⟨by omega, by omega⟩
      · -- the file is not one made in the race, so no call has made one
        have unmade : s.makers = 0 := by
          by_contra some
          rw [young (Nat.pos_of_ne_zero some)] at stale
          cases stale
        have taken : r.vacant s.machine = 0 := Request.vacant_of_isStale stale
        exact ⟨by omega, by omega⟩

theorem bounded_run {r : Request} (turns : List Turn) {f : Nat} {s : Race}
    (bounded : Bounded r f s) (young : ∀ past ∈ turns.inits, Young r (s.run r past)) :
    Bounded r (f + found r s turns) (s.run r turns) := by
  induction turns generalizing f s with
  | nil => exact bounded
  | cons t turns ih =>
    have now : Young r s := young [] (List.mem_inits _ _ |>.mpr (List.nil_prefix))
    have next := ih (bounded.turn now t) fun past first => young (t :: past) (by
      rw [List.mem_inits] at first ⊢
      exact (List.cons_prefix_cons).mpr ⟨rfl, first⟩)
    rw [Nat.add_assoc] at next
    exact next

theorem holders_le_makers (s : Race) : s.holders ≤ s.makers := by
  refine List.countP_mono_left fun c _ holder => ?_
  obtain ⟨processId, a⟩ := c
  cases a with
  | done result =>
    rcases result with e | _ | lock
    · cases holder
    · cases holder
    · rfl
  | _ => cases holder

/-- Only one call comes out with the lock as long as only one finds a lock file too old. -/
theorem holders_le_found (r : Request) (m : Machine) (processIds : List Nat) (turns : List Turn)
    (young : ∀ past ∈ turns.inits, Young r ((start m processIds).run r past)) :
    ((start m processIds).run r turns).holders ≤
      max 1 (found r (start m processIds) turns) := by
  have shares := (bounded_run turns (bounded_start r m processIds) young).shares
  have made := holders_le_makers ((start m processIds).run r turns)
  rw [Nat.zero_add] at shares
  omega

/-- An intake folder with a lock file two hours old. -/
def abandoned : Machine where
  tree := ⟨[(["intake"], .folder 0), (["intake", fileName], .file 0 (.text "pid=7\n") 0)], 1⟩
  home := []
  clock := 7200 * 1000000000
  processId := 0
  drawn := 0

/-- The first call takes the lock over; then the second looks at it, and again after a minute. -/
def inTurn : List Turn :=
  List.replicate 6 (.step 0) ++ [.clock (7260 * 1000000000), .step 1, .step 1]

/-- Both calls look at the lock file before the first one takes it over. -/
def overtaking : List Turn :=
  [.step 0, .step 1] ++ List.replicate 5 (.step 0) ++ List.replicate 5 (.step 1)

theorem holders_le_found_inTurn :
    (∀ past ∈ inTurn.inits, Young (.of "intake" 1800)
      ((start abandoned [1, 2]).run (.of "intake" 1800) past)) ∧
      ((start abandoned [1, 2]).run (.of "intake" 1800) inTurn).holders ≤
        max 1 (found (.of "intake" 1800) (start abandoned [1, 2]) inTurn) := by
  have young : ∀ past ∈ inTurn.inits, Young (.of "intake" 1800)
      ((start abandoned [1, 2]).run (.of "intake" 1800) past) := by decide +kernel
  exact ⟨young, holders_le_found (.of "intake" 1800) abandoned [1, 2] inTurn young⟩

/-- The second call removes the lock of the first. -/
theorem overtaken_twice_held :
    (∀ past ∈ overtaking.inits, Young (.of "intake" 1800)
      ((start abandoned [1, 2]).run (.of "intake" 1800) past)) ∧
      ((start abandoned [1, 2]).run (.of "intake" 1800) overtaking).holders = 2 := by
  decide +kernel

end Race
end Docket.Lock
