import Docket.Host.Machine
import Docket.Proofs.Lookup

/-! Trees of files as look-ups see them. Where a path leads depends on the folders alone, so making
or removing a file moves no path; a machine's answers about a path are told by the entry there. -/
namespace Docket

namespace FileTree

theorem entry?_erase (t : FileTree) (place other : Location) (below : other ≠ []) :
    entry? (t.erase place) other = if other = place then none else t.entry? other := by
  rw [ entry?, if_neg below, erase, lookup_filter_key (fun key => decide (key ≠ place))]
  by_cases same : other = place <;> simp [same, entry?, below]

theorem entry?_set (t : FileTree) (place other : Location) (e : FileEntry) (below : other ≠ []) :
    entry? (t.set place e) other = if other = place then some e else t.entry? other := by
  have erased := entry?_erase t place other below
  simp only [ entry?, erase, if_neg below] at erased
  simp only [ entry?, set, if_neg below, List.lookup_cons, erased]
  by_cases same : other = place
  · simp [same]
  · simp [same, beq_eq_false_iff_ne.mpr same]

/-- The entry after text has been added to the file of an identity. -/
def extended (id : Nat) (text : String) (time : Time) : FileEntry → FileEntry
  | .file id' (.text old) modified =>
    if id' = id then .file id (.text (old ++ text)) time else .file id' (.text old) modified
  | e => e

theorem entry?_append (t : FileTree) (id : Nat) (text : String) (time : Time) (place : Location) :
    entry? (t.append id text time) place = ( t.entry? place).map (extended id text time) := by
  by_cases root : place = []
  · subst root
    rfl
  · rw [ entry?, entry?, if_neg root, if_neg root, ← lookup_map_value]
    congr 1
    apply List.map_congr_left
    rintro ⟨key, e⟩ -
    rcases e with ⟨id', content, modified⟩ | modified
    · cases content with
      | text old => simp only [extended]; split <;> rfl
      | document d => rfl
    · rfl

theorem kind_extended (id : Nat) (text : String) (time : Time) (e : FileEntry) :
    (extended id text time e).kind = e.kind := by
  rcases e with ⟨id', content, modified⟩ | modified
  · cases content with
    | text old => simp only [extended]; split <;> rfl
    | document d => rfl
  · rfl

def hasFolder (t : FileTree) (place : Location) : Bool :=
  ( t.entry? place).map FileEntry.kind == some .folder

theorem walk_cons (t : FileTree) (here : Location) (piece : String) (rest : List String)
    (place : Location) :
    t.walk here (piece :: rest) = .ok place ↔
      t.hasFolder here = true ∧
        (if piece = "" ∨ piece = "." then t.walk here rest
        else if piece = ".." then t.walk here.dropLast rest
        else if 255 < piece.utf8ByteSize then .error .nameTooLong
        else t.walk (here ++ [piece]) rest) = .ok place := by
  rw [walk, hasFolder]
  cases t.entry? here with
  | none => simp
  | some e => cases e <;> simp [FileEntry.kind]

/-- Trees with the same folders lead a path to the same place. -/
theorem walk_eq_ok {t t' : FileTree} (same : ∀ place, t'.hasFolder place = t.hasFolder place)
    (here : Location) (pieces : List String) (place : Location) :
    t'.walk here pieces = .ok place ↔ t.walk here pieces = .ok place := by
  induction pieces generalizing here with
  | nil => rw [walk, walk]
  | cons piece rest ih =>
    rw [walk_cons, walk_cons, same]
    split
    · rw [ih]
    · split
      · rw [ih]
      · split
        · rfl
        · rw [ih]

theorem locate_eq_ok {t t' : FileTree} (same : ∀ place, t'.hasFolder place = t.hasFolder place)
    (home : Location) (path : String) (place : Location) :
    t'.locate home path = .ok place ↔ t.locate home path = .ok place := by
  unfold locate
  split
  · rfl
  · split
    · rfl
    · exact walk_eq_ok same _ _ _

theorem find_eq_ok (t : FileTree) (home : Location) (path : String) (place : Location)
    (e : FileEntry) :
    t.find home path = .ok (place, e) ↔
      t.locate home path = .ok place ∧ t.entry? place = some e := by
  unfold find
  cases t.locate home path with
  | error e' => simp [bind, Except.bind]
  | ok here =>
    simp only [bind, Except.bind]
    constructor
    · intro found
      split at found
      · rename_i e' known
        cases found
        exact ⟨rfl, known⟩
      · cases found
    · rintro ⟨same, known⟩
      cases same
      rw [known]

/-- The entry a path leads to, if there is one. -/
def standing (t : FileTree) (home : Location) (path : String) : Option FileEntry :=
  (t.find home path).toOption.map (·.2)

theorem standing_eq_some (t : FileTree) (home : Location) (path : String) (e : FileEntry) :
    t.standing home path = some e ↔
      ∃ place, t.locate home path = .ok place ∧ t.entry? place = some e := by
  rw [standing]
  constructor
  · intro known
    cases found : t.find home path with
    | error e' => simp [found, Except.toOption] at known
    | ok answer =>
      obtain ⟨place, e'⟩ := answer
      simp only [found, Except.toOption, Option.map_some, Option.some.injEq] at known
      subst known
      exact ⟨place, (find_eq_ok t home path place e').mp found⟩
  · rintro ⟨place, known⟩
    rw [(find_eq_ok t home path place e).mpr known]
    rfl

theorem standing_of_locate {t : FileTree} {home : Location} {path : String} {place : Location}
    (located : t.locate home path = .ok place) : t.standing home path = t.entry? place := by
  cases known : t.entry? place with
  | some e => exact (standing_eq_some t home path e).mpr ⟨place, located, known⟩
  | none =>
    rw [Option.eq_none_iff_forall_ne_some]
    intro e standing
    obtain ⟨place', located', known'⟩ := (standing_eq_some t home path e).mp standing
    cases located.symm.trans located'
    rw [known] at known'
    cases known'

theorem standing_of_find_error {t : FileTree} {home : Location} {path : String} {e : DiskError}
    (missing : t.find home path = .error e) : t.standing home path = none := by
  rw [standing, missing]
  rfl

theorem hasFolder_erase {t : FileTree} {place : Location} (file : t.hasFolder place = false)
    (other : Location) : (t.erase place).hasFolder other = t.hasFolder other := by
  by_cases root : other = []
  · subst root
    rfl
  · by_cases same : other = place
    · subst same
      rw [file, hasFolder, entry?_erase t other other root, if_pos rfl]
      rfl
    · rw [hasFolder, hasFolder, entry?_erase t place other root, if_neg same]

theorem hasFolder_set {t : FileTree} {place : Location} (file : t.hasFolder place = false)
    (id : Nat) (content : Content) (time : Time) (other : Location) :
    (t.set place (.file id content time)).hasFolder other = t.hasFolder other := by
  by_cases root : other = []
  · subst root
    rfl
  · by_cases same : other = place
    · subst same
      rw [file, hasFolder, entry?_set t other other _ root, if_pos rfl]
      rfl
    · rw [hasFolder, hasFolder, entry?_set t place other _ root, if_neg same]

theorem hasFolder_append (t : FileTree) (id : Nat) (text : String) (time : Time)
    (place : Location) : (t.append id text time).hasFolder place = t.hasFolder place := by
  have kinds : FileEntry.kind ∘ extended id text time = FileEntry.kind :=
    funext (kind_extended id text time)
  rw [hasFolder, hasFolder, entry?_append, Option.map_map, kinds]

theorem standing_append (t : FileTree) (home : Location) (path : String) (id : Nat)
    (text : String) (time : Time) :
    (t.append id text time).standing home path =
      (t.standing home path).map (extended id text time) := by
  have same := locate_eq_ok (hasFolder_append t id text time) home path
  cases located : t.locate home path with
  | ok place =>
    rw [standing_of_locate ((same place).mpr located), standing_of_locate located, entry?_append]
  | error e =>
    have missing (t : FileTree) (nowhere : ∀ place, t.locate home path ≠ .ok place) :
        t.standing home path = none := by
      rw [Option.eq_none_iff_forall_ne_some]
      intro e standing
      obtain ⟨place, located, -⟩ := (standing_eq_some t home path e).mp standing
      exact nowhere place located
    rw [missing t (by simp [located]), missing (t.append id text time)]
    · rfl
    · intro place located'
      rw [(same place).mp located'] at located
      cases located

theorem file_eq_ok (t : FileTree) (home : Location) (path : String) (place : Location)
    (id : Nat) (content : Content) :
    t.file home path = .ok (place, id, content) ↔
      ∃ time, t.find home path = .ok (place, .file id content time) := by
  unfold file
  cases t.find home path with
  | error e => simp [bind, Except.bind]
  | ok answer =>
    obtain ⟨place', entry⟩ := answer
    cases entry <;> simp [bind, Except.bind]

/-- Where a file has been removed, nothing is left. -/
theorem standing_of_remove {t t' : FileTree} {home : Location} {path : String}
    (removed : t.remove home path = .ok t') : t'.standing home path = none := by
  unfold remove at removed
  cases opened : t.file home path with
  | error e => simp [opened, bind, Except.bind] at removed
  | ok answer =>
    obtain ⟨place, id, content⟩ := answer
    simp only [opened, bind, Except.bind, Except.ok.injEq] at removed
    obtain ⟨time, found⟩ := (file_eq_ok t home path place id content).mp opened
    obtain ⟨located, known⟩ := (find_eq_ok t home path place _).mp found
    have file : t.hasFolder place = false := by rw [hasFolder, known]; rfl
    have below : place ≠ [] := by
      rintro rfl
      cases known
    subst removed
    rw [standing_of_locate ((locate_eq_ok (hasFolder_erase file) home path place).mpr located),
      entry?_erase t place place below, if_pos rfl]

/-- A file that cannot be removed because it is not found is not there. -/
theorem standing_of_remove_notFound {t : FileTree} {home : Location} {path : String}
    (refused : t.remove home path = .error .notFound) : t.standing home path = none := by
  cases found : t.find home path with
  | error e => exact standing_of_find_error found
  | ok answer =>
    obtain ⟨place, entry⟩ := answer
    unfold remove file at refused
    cases entry <;> simp [found, bind, Except.bind] at refused

theorem withoutEnd_eq {path : String} (plain : Text.endsWith path "/" = false) :
    withoutEnd path = path := by
  have kept : path.toList.reverse.dropWhile (· == '/') = path.toList.reverse := by
    cases reversed : path.toList.reverse with
    | nil => rfl
    | cons c rest =>
      cases slash : c == '/' with
      | false => simp [slash]
      | true =>
        have text : path.toList = rest.reverse ++ ['/'] := by
          rw [← List.reverse_reverse path.toList, reversed, List.reverse_cons, beq_iff_eq.mp slash]
        have ends : Text.endsWith path "/" = true := by
          rw [Text.endsWith, List.isSuffixOf_iff_suffix, text]
          exact List.suffix_append _ _
        rw [plain] at ends
        cases ends
  rw [withoutEnd, kept, List.reverse_reverse, String.ofList_toList]
  cases bare : path.toList.isEmpty with
  | false => simp
  | true =>
    have empty : path = "" := by
      rw [← String.ofList_toList (s := path), List.isEmpty_iff.mp bare]
    simp [empty]

/-- A file is made only where nothing is, and then it is there. -/
theorem standing_of_create {t t' : FileTree} {home : Location} {path : String} {time : Time}
    {id : Nat} (made : t.create home path time = .ok (id, t')) :
    t.standing home path = none ∧
      t'.standing home path = some (.file id (.text "") time) := by
  unfold create target at made
  cases located : t.locate home (withoutEnd path) with
  | error e => simp [located, bind, Except.bind] at made
  | ok place =>
    cases ends : Text.endsWith path "/" with
    | true => simp [located, ends, bind, Except.bind] at made
    | false =>
      cases free : t.entry? place with
      | some e => simp [located, ends, free, bind, Except.bind] at made
      | none =>
        simp only [located, ends, free, bind, Except.bind, Bool.false_eq_true, if_false,
          Except.ok.injEq, Prod.mk.injEq] at made
        obtain ⟨rfl, rfl⟩ := made
        rw [withoutEnd_eq ends] at located
        have file : t.hasFolder place = false := by rw [hasFolder, free]; rfl
        have below : place ≠ [] := by
          rintro rfl
          cases free
        have folders : ∀ other, (t.add place (.text "") time).hasFolder other =
            t.hasFolder other := hasFolder_set file t.nextId (.text "") time
        have entry : entry? (t.add place (.text "") time) place =
            some (.file t.nextId (.text "") time) :=
          (entry?_set t place place _ below).trans (if_pos rfl)
        have located' := (locate_eq_ok folders home path place).mpr located
        exact ⟨(standing_of_locate located).trans free,
          (standing_of_locate located').trans entry⟩

end FileTree

namespace Machine

theorem run_modified (m : Machine) (path : String) :
    (Host.modified? path : StateM Machine (Option Time)).run m =
      ((m.tree.standing m.home path).map FileEntry.modified, m) := by
  rw [FileTree.standing, Option.map_map]
  rfl

theorem run_remove (m : Machine) (path : String) :
    (Host.remove path : StateM Machine (Except DiskError Unit)).run m =
      match m.tree.remove m.home path with
      | .ok tree => ((.ok (), { m with tree }) : Except DiskError Unit × Machine)
      | .error e => (.error e, m) := by
  show change (fun m => (m.tree.remove m.home path).map fun tree => ((), tree)) m = _
  simp only [change]
  cases m.tree.remove m.home path <;> rfl

theorem run_create (m : Machine) (path : String) :
    (Host.create path : StateM Machine (Except DiskError (Host.Handle (StateM Machine)))).run m =
      match m.tree.create m.home path m.clock with
      | .ok (id, tree) => ((.ok id, { m with tree }) : Except DiskError Nat × Machine)
      | .error e => (.error e, m) := by
  show change (fun m => m.tree.create m.home path m.clock) m = _
  simp only [change]
  cases m.tree.create m.home path m.clock <;> rfl

end Machine
end Docket
