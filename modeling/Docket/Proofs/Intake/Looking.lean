import Docket.Command.Run
import Docket.Proofs.Command.Session
import Docket.Proofs.Results.Storing

/-! Looking for documents changes nothing: a batch may follow its pattern through the folders and
compare the times of files and records, and the machine is what it was. -/
namespace Docket

namespace Machine

/-- A program that leaves the machine as it is. -/
def Still {β : Type} (x : StateM Machine β) : Prop := ∀ m, (x.run m).2 = m

variable {β γ : Type}

theorem still_pure (b : β) : Still (pure b) := fun _ => rfl

theorem still_bind {x : StateM Machine β} {f : β → StateM Machine γ} (first : Still x)
    (second : ∀ b, Still (f b)) : Still (x >>= f) := by
  intro m
  rw [run_bind, second, first]

theorem still_mapM {f : β → StateM Machine γ} (each : ∀ b, Still (f b)) (bs : List β) :
    Still (bs.mapM f) := by
  induction bs with
  | nil => exact still_pure _
  | cons b bs ih =>
    rw [List.mapM_cons]
    exact still_bind (each b) fun _ => still_bind ih fun _ => still_pure _

theorem still_filterM {f : β → StateM Machine Bool} (each : ∀ b, Still (f b)) (bs : List β) :
    Still (bs.filterM f) := by
  have go (kept : List β) : Still (bs.filterAuxM f kept) := by
    induction bs generalizing kept with
    | nil => exact still_pure _
    | cons b bs ih => exact still_bind (each b) fun _ => ih _
  exact still_bind (go []) fun _ => still_pure _

theorem still_kind (path : String) : Still (Host.kind? path) := fun _ => rfl

theorem still_modified (path : String) : Still (Host.modified? path) := fun _ => rfl

theorem still_names (path : String) : Still (Host.names path) := fun _ => rfl

theorem still_isFolder (path : String) : Still (Host.isFolder path) :=
  still_bind (still_kind path) fun _ => still_pure _

end Machine

namespace Glob
open Machine

theorem still_onward {follow : List Pattern → String → StateM Machine (List String)}
    (each : ∀ parts path, Still (follow parts path)) (rest : List Pattern) (path : String) :
    Still (onward follow rest path) := by
  unfold onward
  split
  · exact still_pure _
  · exact each rest path

theorem still_atName {follow : List Pattern → String → StateM Machine (List String)}
    (each : ∀ parts path, Still (follow parts path)) (parts : List Pattern) (path : String) :
    Still (atName follow parts path) := by
  unfold atName
  split
  · split
    · exact still_onward each _ path
    · exact still_pure _
  · exact still_pure _

theorem still_atEntry {follow : List Pattern → String → StateM Machine (List String)}
    (each : ∀ parts path, Still (follow parts path)) (parts : List Pattern) (path : String) :
    Still (atEntry follow parts path) := by
  unfold atEntry
  split
  · refine still_bind (still_isFolder path) fun folder => ?_
    split
    · refine still_bind (each _ path) fun inside => still_bind ?_ fun _ => still_pure _
      show Still (if _ then _ else _)
      split
      · exact still_pure _
      · exact still_atName each _ path
    · exact still_atName each _ path
  · exact still_atName each parts path

theorem still_follow (depth : Nat) (parts : List Pattern) (folder : String) :
    Still (follow depth parts folder : StateM Machine (List String)) := by
  induction depth generalizing parts folder with
  | zero => exact still_pure _
  | succ depth ih =>
    cases parts with
    | nil => exact still_pure _
    | cons part rest =>
      rw [follow]
      split
      · have going (path : String) (there : Bool) :
            Still (if there = true then onward (follow depth) rest path else pure [] :
              StateM Machine (List String)) := by
          split
          · exact still_onward ih rest path
          · exact still_pure _
        dsimp only
        split
        · exact still_bind (still_isFolder folder) (going _)
        · exact still_bind (still_bind (still_kind _) fun _ => still_pure _) (going _)
      · refine still_bind (still_isFolder folder) fun open' => ?_
        split
        · refine still_bind (still_names folder) fun names => ?_
          refine still_bind (still_mapM (fun name => still_atEntry ih _ _) _) fun found => ?_
          refine still_bind (still_mapM (fun name => still_onward ih rest _) _) fun more => ?_
          exact still_pure _
        · exact still_pure _

theorem still_find (p : PathPattern) : Still (find p : StateM Machine (List String)) := by
  refine still_bind (still_follow _ _ _) fun paths => ?_
  split
  · exact still_filterM still_isFolder paths
  · exact still_pure _

end Glob

namespace Intake
open Machine

variable {α : Type}

theorem still_document (templates : List (Template α)) (path : String) :
    Still (document? templates path : StateM Machine (Option IntakeDocument)) := by
  refine still_bind (still_bind (still_kind path) fun _ => still_pure _) fun regular => ?_
  split
  · split
    · exact still_pure _
    · split
      · exact still_pure _
      · refine still_bind ?_ fun _ => still_pure _
        unfold periodOf
        split
        · exact still_pure _
        · exact still_bind (still_modified path) fun _ => still_pure _
  · exact still_pure _

theorem still_discover (folder pattern : String) (templates : List (Template α)) :
    Still (discover folder pattern templates :
      StateM Machine (Except Glob.PatternError (List IntakeDocument))) := by
  unfold discover
  split
  · exact still_pure _
  · refine still_bind (Glob.still_find _) fun paths => ?_
    exact still_bind (still_mapM (still_document templates) paths) fun _ => still_pure _

end Intake

namespace Session

variable {β γ : Type}

def Still (x : Session (StateM Machine) β) : Prop :=
  ∀ (p : Printed) (m : Machine), (x.runOn p m).2 = m

theorem still_pure (b : β) : Still (pure b : Session (StateM Machine) β) := fun _ _ => rfl

theorem still_ask {x : StateM Machine β} (still : Machine.Still x) : Still (ask x) := fun _ => still

theorem still_require {ε : Type} (cause : ε → CommandError) (x : Except ε β) :
    Still (require cause x : Session (StateM Machine) β) := by
  cases x <;> exact fun _ _ => rfl

theorem machine_of_bind {x : Session (StateM Machine) β} {f : β → Session (StateM Machine) γ}
    (second : ∀ b, Still (f b)) (p : Printed) (m : Machine) :
    ((x >>= f).runOn p m).2 = (x.runOn p m).2 := by
  rw [runOn_bind]
  generalize x.runOn p m = answer
  obtain ⟨⟨_ | b, p'⟩, m'⟩ := answer
  · rfl
  · exact second b p' m'

theorem still_bind {x : Session (StateM Machine) β} {f : β → Session (StateM Machine) γ}
    (first : Still x) (second : ∀ b, Still (f b)) : Still (x >>= f) := by
  intro p m
  rw [machine_of_bind second]
  exact first p m

theorem still_filterM {f : β → Session (StateM Machine) Bool} (each : ∀ b, Still (f b))
    (bs : List β) : Still (bs.filterM f) := by
  have go (kept : List β) : Still (bs.filterAuxM f kept) := by
    induction bs generalizing kept with
    | nil => exact still_pure _
    | cons b bs ih => exact still_bind (each b) fun _ => ih _
  exact still_bind (go []) fun _ => still_pure _

end Session

namespace Batch

theorem still_pending (s : Settings Float) (c : Catalog Float) (p : Printed) (m : Machine) :
    ((pending s c).runOn p m).2 = m := by
  unfold pending
  refine Session.still_bind (Session.still_ask (Intake.still_discover _ _ _)) (fun found => ?_) p m
  refine Session.still_bind (Session.still_require _ _) fun found => ?_
  refine Session.still_filterM (fun d => ?_) found
  refine Session.still_bind (Session.still_ask fun m => ?_) fun _ => Session.still_pure _
  rw [ResultStore.run_isCurrent]

end Batch
end Docket
