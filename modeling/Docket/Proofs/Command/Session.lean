import Docket.Command.Session
import Docket.Proofs.Host.Writing

/-! Sessions on a machine: what they come to, what they have printed by then, and the machine that
they leave behind. -/
namespace Docket.Session

variable {β γ : Type}

/-- The outcome of a session, what it has printed, and the machine after it. -/
def runOn (x : Session (StateM Machine) β) (p : Printed) (m : Machine) :
    (Except CommandError β × Printed) × Machine := ((ExceptT.run x).run p).run m

theorem runOn_bind (x : Session (StateM Machine) β) (f : β → Session (StateM Machine) γ)
    (p : Printed) (m : Machine) :
    (x >>= f).runOn p m = match x.runOn p m with
      | ((.ok b, p'), m') => (f b).runOn p' m'
      | ((.error e, p'), m') => ((.error e, p'), m') := by
  rw [runOn, runOn, ExceptT.run_bind, StateT.run_bind, StateT.run_bind]
  generalize ((ExceptT.run x).run p).run m = answer
  obtain ⟨⟨_ | _, p'⟩, m'⟩ := answer <;> rfl

theorem runOn_ask (x : StateM Machine β) (p : Printed) (m : Machine) :
    (ask x).runOn p m = ((.ok (x.run m).1, p), (x.run m).2) := rfl

theorem runOn_say (line : String) (p : Printed) (m : Machine) :
    (say line).runOn p m = ((.ok (), { p with output := p.output ++ line ++ "\n" }), m) := rfl

theorem runOn_demand (x : StateM Machine (Except DiskError β)) (p : Printed) (m : Machine) :
    (demand x).runOn p m = (((x.run m).1.mapError .disk, p), (x.run m).2) := by
  rw [demand, runOn_bind, runOn_ask]
  generalize x.run m = answer
  obtain ⟨_ | _, m'⟩ := answer <;> rfl

/-- Outcomes that may be an error cannot be compared, but what they are otherwise can. -/
theorem ok_of_toOption {x : Except CommandError β} {b : β} (found : x.toOption = some b) :
    x = .ok b := by
  cases x with
  | error e => cases found
  | ok c => exact congrArg Except.ok (Option.some.inj found)

theorem runOn_tryCatch (x : Session (StateM Machine) β)
    (handle : CommandError → Session (StateM Machine) β) (p : Printed) (m : Machine) :
    (tryCatch x handle).runOn p m = match x.runOn p m with
      | ((.ok b, p'), m') => ((.ok b, p'), m')
      | ((.error e, p'), m') => (handle e).runOn p' m' := by
  show ((ExceptT.tryCatch x handle).run.run p).run m = _
  unfold ExceptT.tryCatch runOn ExceptT.run
  rw [ExceptT.mk, StateT.run_bind, StateT.run_bind]
  generalize StateT.run (StateT.run _ p) m = answer
  obtain ⟨⟨_ | _, p'⟩, m'⟩ := answer <;> rfl

/-- A session that leaves the files at some places as they are, whatever it comes to. -/
def Spares (at' : Location → Prop) (x : Session (StateM Machine) β) : Prop :=
  ∀ (p : Printed) (m : Machine), m.Keeps at' (x.runOn p m).2

variable {at' : Location → Prop}

theorem spares_demand {x : StateM Machine (Except DiskError β)} (spares : Machine.Spares at' x) :
    Spares at' (demand x) := by
  intro p m
  rw [runOn_demand]
  exact spares m

theorem spares_bind {x : Session (StateM Machine) β} {f : β → Session (StateM Machine) γ}
    (first : Spares at' x) (second : ∀ b, Spares at' (f b)) : Spares at' (x >>= f) := by
  intro p m
  have kept := first p m
  rw [runOn_bind]
  generalize x.runOn p m = answer at kept
  obtain ⟨⟨_ | b, p'⟩, m'⟩ := answer
  · exact kept
  · exact kept.trans (second b p' m')

end Docket.Session
