import Docket.Proofs.Host.Writing
import Docket.Results.Store

/-! The folder of results on a machine: a stored record stands at its place or no file has changed,
and a record is current by the times of two files. -/
namespace Docket
open FileTree

namespace ResultStore
open Machine

/-- The program that stores a record, on a machine. -/
abbrev saving (s : ResultStore) (r : DocumentRecord) : StateM Machine (Except DiskError String) :=
  s.save r

/-- What became of storing a text. -/
inductive Saved (path text : String) (m m' : Machine) : Except DiskError String → Prop
  | stored (located : m'.tree.locate m'.home path = .ok (placeOf m'.home path))
      (there : m'.tree.fileAt (placeOf m.home path) = some (.text text, m.clock))
      (kept : m.Keeps (· ≠ placeOf m.home path) m') : Saved path text m m' (.ok path)
  | refused (e : DiskError) (kept : m.Keeps (fun _ => True) m') : Saved path text m m' (.error e)

namespace Saved

variable {path text : String} {m m' : Machine} {result : Except DiskError String}

theorem keeps (saved : Saved path text m m' result) : m.Keeps (· ≠ placeOf m.home path) m' := by
  cases saved with
  | stored located there kept => exact kept
  | refused e kept =>
    exact ⟨kept.home, kept.clock, kept.tree.folders, fun place _ => kept.tree.files place trivial⟩

theorem fileAt_cases (saved : Saved path text m m' result) :
    m'.tree.fileAt (placeOf m.home path) = some (.text text, m.clock) ∨
      m'.tree.fileAt (placeOf m.home path) = m.tree.fileAt (placeOf m.home path) := by
  cases saved with
  | stored located there kept => exact .inl there
  | refused e kept => exact .inr (kept.tree.files _ trivial)

/-- No file is lost. -/
theorem isSome_fileAt (saved : Saved path text m m' result) {place : Location}
    (file : (m.tree.fileAt place).isSome = true) : (m'.tree.fileAt place).isSome = true := by
  by_cases here : place = placeOf m.home path
  · subst here
    rcases saved.fileAt_cases with written | same
    · rw [written]
      rfl
    · rwa [same]
  · rwa [saved.keeps.tree.files place here]

end Saved

theorem saved_of_write (path text : String) {m m' : Machine}
    (made : ∀ at', m.Keeps at' m') :
    let answer := ((do return (← Host.writeText path text).map fun () => path :
      StateM Machine (Except DiskError String))).run m'
    Saved path text m answer.2 answer.1 := by
  have home : m'.home = m.home := (made fun _ => True).home
  have clock : m'.clock = m.clock := (made fun _ => True).clock
  rw [StateT.run_bind, run_writeText]
  cases written : m'.tree.write m'.home path (.text text) m'.clock with
  | error e => exact .refused e (made _)
  | ok tree =>
    obtain ⟨located, there, kept⟩ := write_ok written
    refine .stored located ?_ ((made _).trans ⟨rfl, rfl, ?_⟩)
    · rwa [home, clock] at there
    · rwa [home] at kept

theorem saved (s : ResultStore) (r : DocumentRecord) (m : Machine) :
    Saved (s.recordPath r.templateId r.document) (Json.pretty r.toJson) m
      ((s.saving r).run m).2 ((s.saving r).run m).1 := by
  simp only [saving, save]
  generalize s.recordPath r.templateId r.document = path
  generalize Json.pretty r.toJson = text
  have made (at' : Location → Prop) := spares_makeParents at' path m
  rw [StateT.run_bind]
  generalize (Host.makeParents path : StateM Machine (Except DiskError Unit)).run m = parents
    at made ⊢
  obtain ⟨e | ⟨⟩, m'⟩ := parents
  · exact .refused e (made _)
  · exact saved_of_write path text made

theorem run_isCurrent (s : ResultStore) (templateId document : String) (m : Machine) :
    (s.isCurrent templateId document : StateM Machine Bool).run m =
      (match m.tree.standing m.home (s.recordPath templateId document),
          m.tree.standing m.home document with
        | some record, some source => decide (source.modified ≤ record.modified)
        | _, _ => false, m) := by
  rw [isCurrent, run_bind_of (run_modified m _), run_bind_of (run_modified m _)]
  cases m.tree.standing m.home (s.recordPath templateId document) with
  | none => rfl
  | some record => cases m.tree.standing m.home document <;> rfl

end ResultStore
end Docket
