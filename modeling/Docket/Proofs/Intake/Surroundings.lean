import Docket.Proofs.Host.Growth
import Docket.Proofs.Host.Naming
import Docket.Proofs.Intake.Taking

/-! What stands beside the lock. An attempt writes to the file it has made, and no other file has
that file's identity; so taking the lock and giving it back change the tree at one place. The file
of the lock is the one that was asked for, and neither keeping it fresh nor giving it back touches a
file of another name. -/
namespace Docket

namespace FileTree
open Docket.Path

/-- Trees that differ in what stands at one place, and in no folder. -/
structure Apart (place : Location) (t t' : FileTree) : Prop where
  folders : ∀ other, t'.hasFolder other = t.hasFolder other
  entries : ∀ other, other ≠ place → t'.entry? other = t.entry? other
  formed : t.Formed → t'.Formed

variable {t t' t'' : FileTree} {place : Location}

theorem Apart.rfl' (place : Location) (t : FileTree) : Apart place t t :=
  ⟨fun _ => rfl, fun _ _ => rfl, id⟩

theorem Apart.trans (first : Apart place t t') (second : Apart place t' t'') :
    Apart place t t'' := by
  constructor
  · exact fun other => (second.folders other).trans (first.folders other)
  · exact fun other apart => (second.entries other apart).trans (first.entries other apart)
  · exact fun formed => second.formed (first.formed formed)

theorem apart_erase (file : t.hasFolder place = false) : Apart place t (t.erase place) := by
  have entries := entry?_of_file file (entry?_erase t place)
  refine ⟨hasFolder_erase file, fun other apart => (entries other).trans (if_neg apart), ?_⟩
  intro formed
  constructor
  · intro above name e known
    rw [entries] at known
    split at known
    · cases known
    · rw [hasFolder_erase file]
      exact formed.below above name e known
  · intro other id content time known
    rw [entries] at known
    split at known
    · cases known
    · exact formed.fresh other id content time known

theorem apart_add (room : t.Room place) (file : t.hasFolder place = false) (content : Content)
    (time : Time) : Apart place t (t.add place content time) := by
  have entries (other : Location) : FileTree.entry? (t.add place content time) other =
      if other = place then some (.file t.nextId content time) else t.entry? other :=
    entry?_of_file file (fun other => entry?_set t place other _) other
  refine ⟨hasFolder_set file t.nextId content time,
    fun other apart => (entries other).trans (if_neg apart), ?_⟩
  intro formed
  apply formed.of_entries room file entries
  · exact Nat.le_succ _
  · intro id content' time' same
    cases same
    exact Nat.lt_succ_self _

/-- No file of another place has the identity. -/
def Owns (t : FileTree) (id : Nat) (place : Location) : Prop :=
  ∀ other content time, t.entry? other = some (.file id content time) → other = place

theorem extended_of_other {id : Nat} {e : FileEntry}
    (other : ∀ content time, e ≠ .file id content time) (text : String) (time : Time) :
    extended id text time e = e := by
  rcases e with ⟨id', content | content, written⟩ | written
  · have apart : id' ≠ id := by
      rintro rfl
      exact other _ _ rfl
    simp [extended, apart]
  · rfl
  · rfl

theorem file_of_extended {id id' : Nat} {text : String} {time written : Time} {e : FileEntry}
    {content : Content} (known : extended id text time e = .file id' content written) :
    ∃ content' written', e = .file id' content' written' := by
  rcases e with ⟨other, old | old, written'⟩ | written'
  · by_cases same : other = id
    · simp only [extended, if_pos same] at known
      cases known
      exact ⟨_, _, by rw [same]⟩
    · simp only [extended, if_neg same] at known
      cases known
      exact ⟨_, _, rfl⟩
  · cases known
    exact ⟨_, _, rfl⟩
  · cases known

theorem apart_append {id : Nat} (owns : t.Owns id place) (text : String) (time : Time) :
    Apart place t (t.append id text time) := by
  refine ⟨hasFolder_append t id text time, fun other apart => ?_, fun formed => ⟨?_, ?_⟩⟩
  · rw [ entry?_append]
    cases known : t.entry? other with
    | none => rfl
    | some e =>
      have unowned (content : Content) (written : Time) : e ≠ .file id content written := by
        rintro rfl
        exact apart (owns other content written known)
      rw [Option.map_some, extended_of_other unowned]
  · intro above name e known
    rw [ entry?_append] at known
    obtain ⟨e', known, -⟩ := Option.map_eq_some_iff.mp known
    rw [hasFolder_append]
    exact formed.below above name e' known
  · intro other id' content written known
    rw [ entry?_append] at known
    obtain ⟨e, known, same⟩ := Option.map_eq_some_iff.mp known
    obtain ⟨content', written', rfl⟩ := file_of_extended same
    exact formed.fresh other id' content' written' known

theorem owns_append {id : Nat} (owns : t.Owns id place) (text : String) (time : Time) :
    (t.append id text time).Owns id place := by
  intro other content written known
  rw [ entry?_append] at known
  obtain ⟨e, known, same⟩ := Option.map_eq_some_iff.mp known
  obtain ⟨content', written', rfl⟩ := file_of_extended same
  exact owns other content' written' known

theorem apart_remove {home : Location} {path : String} (removed : t.remove home path = .ok t') :
    Apart (placeOf home path) t t' := by
  obtain ⟨place, id, content, opened, rfl⟩ := exists_file_of_remove removed
  obtain ⟨rfl, file⟩ := file_place opened
  exact apart_erase file

/-- A file that is made has an identity of its own. -/
theorem apart_create {home : Location} {path : String} {time : Time} {id : Nat}
    (formed : t.Formed) (made : t.create home path time = .ok (id, t')) :
    Apart (placeOf home path) t t' ∧ t'.Owns id (placeOf home path) := by
  unfold create target at made
  cases located : t.locate home (withoutEnd path) with
  | error e => simp [located, bind, Except.bind] at made
  | ok place =>
    cases ends : Text.endsWith path "/" with
    | true => simp [located, ends, bind, Except.bind] at made
    | false =>
      cases free : t.entry? place with
      | some e => simp [located, ends, free, bind, Except.bind] at made
      | none =>
        simp only [located, ends, free, bind, Except.bind, Bool.false_eq_true, if_false,
          Except.ok.injEq, Prod.mk.injEq] at made
        obtain ⟨rfl, rfl⟩ := made
        have file : t.hasFolder place = false := by rw [hasFolder, free]; rfl
        have room := formed.locate_room located file
        rw [withoutEnd_eq ends] at located
        rw [← locate_eq_placeOf located]
        have apart := apart_add room file (.text "") time
        refine ⟨apart, fun other content written known => ?_⟩
        by_contra elsewhere
        rw [apart.entries other elsewhere] at known
        exact Nat.lt_irrefl _ (formed.fresh other _ content written known)

end FileTree

namespace Lock
open Machine FileTree

/-- Machines that differ in what stands at one place. -/
structure Confined (place : Location) (m m' : Machine) : Prop where
  home : m'.home = m.home
  clock : m'.clock = m.clock
  tree : m.tree.Apart place m'.tree

variable {place : Location} {m m' m'' : Machine} {r : Request}

theorem Confined.rfl' (place : Location) (m : Machine) : Confined place m m :=
  ⟨rfl, rfl, .rfl' place m.tree⟩

theorem Confined.trans (first : Confined place m m') (second : Confined place m' m'') :
    Confined place m m'' :=
  ⟨second.home.trans first.home, second.clock.trans first.clock, first.tree.trans second.tree⟩

theorem Confined.standing (confined : Confined place m m') {path : String}
    (apart : placeOf m.home path ≠ place) :
    m'.tree.standing m'.home path = m.tree.standing m.home path := by
  ext e
  rw [standing_eq_some, standing_eq_some, confined.home]
  apply exists_congr
  intro other
  rw [locate_eq_ok confined.tree.folders]
  apply and_congr_right
  intro located
  rw [confined.tree.entries other]
  rwa [locate_eq_placeOf located]

/-- An attempt that writes to the file at a place. -/
def Attempt.Writes (place : Location) (m : Machine) : Attempt.OnMachine → Prop
  | writing id _ _ => m.tree.Owns id place
  | _ => True

/-- A step of an attempt changes the tree where the lock belongs. -/
theorem confined_next {a : Attempt.OnMachine} (formed : m.tree.Formed)
    (writes : a.Writes (placeOf m.home r.path) m) :
    Confined (placeOf m.home r.path) m (a.next r m).2 ∧
      (a.next r m).1.Writes (placeOf m.home r.path) (a.next r m).2 := by
  have same := Confined.rfl' (placeOf m.home r.path) m
  cases a with
  | looking =>
    rw [next_looking]
    refine ⟨same, ?_⟩
    split
    · trivial
    · split <;> trivial
  | clearing =>
    rw [next_clearing]
    split
    · rename_i tree removed
      exact ⟨⟨rfl, rfl, apart_remove removed⟩, trivial⟩
    · exact ⟨same, trivial⟩
    · exact ⟨same, trivial⟩
  | creating =>
    rw [next_creating]
    split
    · rename_i id tree made
      obtain ⟨apart, owns⟩ := apart_create formed made
      exact ⟨⟨rfl, rfl, apart⟩, owns⟩
    · exact ⟨same, trivial⟩
    · exact ⟨same, trivial⟩
  | writing id lock left =>
    match left with
    | [] => exact ⟨same, trivial⟩
    | [line] => exact ⟨⟨rfl, rfl, apart_append writes line m.clock⟩, trivial⟩
    | line :: next :: left =>
      exact ⟨⟨rfl, rfl, apart_append writes line m.clock⟩, owns_append writes line m.clock⟩
  | done result => exact ⟨same, trivial⟩

theorem confined_steps (n : Nat) {a : Attempt.OnMachine} (formed : m.tree.Formed)
    (writes : a.Writes (placeOf m.home r.path) m) :
    Confined (placeOf m.home r.path) m
      ((a.steps r n : StateM Machine Attempt.OnMachine).run m).2 := by
  induction n generalizing a m with
  | zero => exact .rfl' _ m
  | succ n ih =>
    obtain ⟨first, writes⟩ := confined_next formed writes
    rw [steps_succ]
    rw [← first.home] at writes
    have rest := ih (first.tree.formed formed) writes
    rw [first.home] at rest
    exact first.trans rest

/-- Taking the lock changes the tree where the lock belongs. -/
theorem confined_acquire (r : Request) (formed : m.tree.Formed) :
    Confined (placeOf m.home r.path) m
      ((acquire r : StateM Machine (Except DiskError (Option Lock))).run m).2 := by
  have confined := confined_steps (r := r) Attempt.most (a := .looking) formed trivial
  rwa [steps_acquire] at confined

theorem confined_release (l : Lock) (m : Machine) :
    Confined (placeOf m.home l.path) m ((l.release : StateM Machine Unit).run m).2 := by
  have same := Confined.rfl' (placeOf m.home l.path) m
  rw [release, run_bind_of (run_isOwned l m)]
  split
  · rw [run_bind, run_remove]
    cases removed : m.tree.remove m.home l.path with
    | error e => exact same
    | ok tree => exact ⟨rfl, rfl, apart_remove removed⟩
  · exact same

section Holding
open Docket.Path

/-- A lock that an attempt has made is the one that was asked for. -/
def Attempt.Names (r : Request) : Attempt.OnMachine → Prop
  | writing _ lock _ => lock.path = r.path
  | done (.ok (some lock)) => lock.path = r.path
  | _ => True

theorem Moves.names {r : Request} {m m' : Machine} {a a' : Attempt.OnMachine}
    (moves : Moves r m a a' m') (names : a.Names r) : a'.Names r := by
  cases moves with
  | made => rfl
  | _ => exact names

theorem names_steps (r : Request) (n : Nat) {a : Attempt.OnMachine} (names : a.Names r)
    (m : Machine) : ((a.steps r n : StateM Machine Attempt.OnMachine).run m).1.Names r := by
  induction n generalizing a m with
  | zero => exact names
  | succ n ih =>
    rw [steps_succ]
    exact ih ((moves_next r a m).names names) _

theorem path_of_acquire {r : Request} {m : Machine} {lock : Lock}
    (acquired : ((acquire r : StateM Machine (Except DiskError (Option Lock))).run m).1 =
      .ok (some lock)) : lock.path = r.path := by
  have names := names_steps r Attempt.most (a := .looking) trivial m
  rw [steps_acquire, acquired] at names
  exact names

theorem plain_fileName : Plain fileName := ⟨by decide, by decide, by decide, by decide⟩

theorem spares_isOwned (at' : Location → Prop) (l : Lock) :
    Spares at' (l.isOwned : StateM Machine Bool) := by
  have read : Spares at' (Host.readText l.path : StateM Machine (Except DiskError String)) :=
    Keeps.rfl' at'
  refine spares_bind read fun read => ?_
  split <;> exact spares_pure at' _

variable {l : Lock} {folder : String} (named : l.path = join folder fileName)
include named

theorem spares_refresh :
    Spares (Elsewhere fileName) (l.refresh : StateM Machine (Except DiskError Bool)) := by
  refine spares_bind (spares_isOwned _ l) fun owned => ?_
  split
  · rw [named]
    exact spares_bind (spares_touch plain_fileName folder) fun result => spares_pure _ _
  · exact spares_pure _ _

theorem spares_release : Spares (Elsewhere fileName) (l.release : StateM Machine Unit) := by
  refine spares_bind (spares_isOwned _ l) fun owned => ?_
  split
  · rw [named]
    exact spares_bind (spares_remove plain_fileName folder) fun result => spares_pure _ _
  · exact spares_pure _ _

end Holding
end Lock
end Docket
