import Docket.Proofs.Glob.Passing
import Docket.Proofs.Intake.Routing

/-! Documents that are found again. What a batch finds is told by the paths of the pattern and by
the entries they lead to, so a document whose file has not changed is the same document. -/
namespace Docket

namespace FileTree
open Docket.Path

theorem foldl_advance_name {pieces : List String} {name : String}
    (last : (pieces.filterMap part?).getLast? = some (.name name)) (here : Location) :
    ∃ above, pieces.foldl advance here = above ++ [name] := by
  induction pieces using List.reverseRecOn with
  | nil => cases last
  | append_singleton pieces piece ih =>
    rw [List.filterMap_append, List.getLast?_append] at last
    rw [List.foldl_append, List.foldl_cons, List.foldl_nil, advance]
    by_cases stays : piece = "" ∨ piece = "."
    · have none : part? piece = none := by rw [part?, if_pos stays]
      simp only [List.filterMap_cons, none, List.filterMap_nil, List.getLast?_nil,
        Option.none_or] at last
      rw [if_pos stays]
      exact ih last
    · by_cases up : piece = ".."
      · have told : part? piece = some .up := by rw [part?, if_neg stays, if_pos up]
        simp [told] at last
      · have told : part? piece = some (.name piece) := by rw [part?, if_neg stays, if_neg up]
        simp only [List.filterMap_cons, told, List.filterMap_nil, List.getLast?_singleton,
          Option.some_or, Option.some.injEq, Part.name.injEq] at last
        rw [if_neg stays, if_neg up, last]
        exact ⟨_, rfl⟩

theorem placeOf_fileName {path name : String} (named : fileName? path = some name)
    (home : Location) : ∃ above, placeOf home path = above ++ [name] := by
  obtain ⟨part, last, told⟩ := Option.bind_eq_some_iff.mp named
  have part : part = .name name := by
    cases part with
    | name s => exact congrArg Part.name (Option.some.inj told)
    | _ => cases told
  subst part
  rw [parts, List.getLast?_append] at last
  cases later : ((pieces path).filterMap part?).getLast? with
  | some part =>
    rw [later, Option.some_or] at last
    exact foldl_advance_name (later.trans last) _
  | none =>
    rw [later, Option.none_or] at last
    split at last
    · cases last
    · split at last <;> cases last

end FileTree

namespace Intake
open Machine FileTree

variable {α : Type} {m m' : Machine} {templates : List (Template α)} {x : String}

theorem matches_of_templateFor {fileName : String} {t : Template α}
    (routed : templateFor fileName templates = some t) : t.matchesName fileName = true := by
  rcases mem_of_foldl_longer routed with impossible | among
  · cases impossible
  · exact (List.mem_filter.mp among).2

/-- The document of an entry at a path. -/
def documentOf (templates : List (Template α)) (path : String) :
    Option FileEntry → Option IntakeDocument
  | some (.file _ _ written) =>
    (Path.fileName? path).bind fun name => (templateFor name templates).map fun t =>
      ⟨path, t.id, (Period.ofFileName? name).getD (Period.ofTime written)⟩
  | _ => none

theorem run_document (templates : List (Template α)) (path : String) (m : Machine) :
    ((document? templates path : StateM Machine (Option IntakeDocument)).run m).1 =
      documentOf templates path (m.tree.standing m.home path) := by
  have regular : (Host.isRegular path : StateM Machine Bool).run m =
      (decide ((m.tree.standing m.home path).map FileEntry.kind = some .regular), m) := by
    rw [Host.isRegular, run_bind, run_kind]
    rfl
  rw [document?, run_bind_of regular]
  rcases known : m.tree.standing m.home path with _ | ⟨id, content, written⟩ | written
  · rfl
  · rw [if_pos (by simp [FileEntry.kind]), documentOf]
    cases Path.fileName? path with
    | none => rfl
    | some name =>
      cases routed : templateFor name templates with
      | none =>
        simp only [routed, Option.bind_some, Option.map_none]
        rfl
      | some t =>
        simp only [routed, Option.bind_some, Option.map_some]
        have period : (periodOf path name : StateM Machine (Option Period)).run m =
            (some ((Period.ofFileName? name).getD (Period.ofTime written)), m) := by
          unfold periodOf
          cases Period.ofFileName? name with
          | some p => rfl
          | none =>
            dsimp only
            rw [run_bind, run_modified, known]
            rfl
        rw [run_bind_of period]
        rfl
  · rfl

theorem documentOf_eq_some {e : Option FileEntry} {d : IntakeDocument}
    (told : documentOf templates x e = some d) :
    d.path = x ∧ (∃ t, RoutedTo templates d t) ∧
      ∃ id content written, e = some (.file id content written) := by
  unfold documentOf at told
  split at told
  · rename_i id content written
    obtain ⟨name, named, told⟩ := Option.bind_eq_some_iff.mp told
    obtain ⟨t, routed, rfl⟩ := Option.map_eq_some_iff.mp told
    exact ⟨rfl, ⟨t, name, named, routed, rfl⟩, id, content, written, rfl⟩
  · cases told

theorem mem_discover {folder pattern : String} {documents : List IntakeDocument}
    (found : ((discover folder pattern templates :
      StateM Machine (Except Glob.PatternError (List IntakeDocument))).run m).1 = .ok documents)
    (d : IntakeDocument) : d ∈ documents ↔
      ∃ p, Glob.PathPattern.read (Path.join folder pattern) = .ok p ∧
        d.path ∈ ((Glob.find p : StateM Machine (List String)).run m).1 ∧
          documentOf templates d.path (m.tree.standing m.home d.path) = some d := by
  cases read : Glob.PathPattern.read (Path.join folder pattern) with
  | error e =>
    rw [discover, read] at found
    cases found
  | ok p =>
    rw [run_discover read] at found
    cases found
    rw [List.mem_mergeSort, List.mem_filterMap, visit, run_bind, Glob.still_find p m,
      run_mapM_still (still_document templates)]
    simp only [List.mem_map, run_document, id_eq, exists_eq_right, Except.ok.injEq,
      exists_eq_left']
    constructor
    · rintro ⟨x, known, told⟩
      obtain ⟨rfl, -⟩ := documentOf_eq_some told
      exact ⟨known, told⟩
    · rintro ⟨known, told⟩
      exact ⟨d.path, known, told⟩

/-- A document is found again on a machine that has its file and the folders on the way to it. -/
theorem mem_of_led {folder pattern : String} {documents documents' : List IntakeDocument}
    (found : ((discover folder pattern templates :
      StateM Machine (Except Glob.PatternError (List IntakeDocument))).run m).1 = .ok documents)
    (found' : ((discover folder pattern templates :
      StateM Machine (Except Glob.PatternError (List IntakeDocument))).run m').1 = .ok documents')
    (formed : m'.tree.Formed) {d : IntakeDocument} (listed : d ∈ documents')
    (led : Led m m' d.path)
    (same : ∀ place, m'.tree.locate m'.home d.path = .ok place →
      m'.tree.entry? place = m.tree.entry? place) : d ∈ documents := by
  obtain ⟨p, read, known, told⟩ := (mem_discover found' d).mp listed
  obtain ⟨-, -, id, content, written, there⟩ := documentOf_eq_some told
  obtain ⟨place, located, entry⟩ := (standing_eq_some _ _ _ _).mp there
  have kept := same place located
  have file : m'.tree.hasFolder place = false := by rw [hasFolder, entry]; rfl
  have again : Glob.Again m m' d.path place :=
    ⟨led, formed, located, file, by rw [← kept, entry]; rfl⟩
  have here : m.tree.standing m.home d.path = m'.tree.standing m'.home d.path := by
    rw [standing_of_locate (led.locate located), standing_of_locate located, kept]
  exact (mem_discover found d).mpr ⟨p, read, again.mem_find read known, by rw [here, told]⟩

end Intake
end Docket
