import Docket.Proofs.Host.Naming

/-! Growing trees. What programs make stands in a folder under a plain name, so a tree stays well
formed; folders appear where nothing was, and no file but those written to has changed. -/
namespace Docket

namespace Path

theorem whole_of_mem_pieces {path piece : String} (known : piece ∈ pieces path) :
    '/' ∉ piece.toList := by
  obtain ⟨cs, split, rfl⟩ := List.mem_map.mp known
  rw [String.toList_ofList]
  exact Text.not_mem_of_mem_split split

theorem pieces_ne_nil (path : String) : pieces path ≠ [] := by
  simp [pieces, FileTree.split_ne_nil]

end Path

namespace FileTree
open Docket.Path

structure Formed (t : FileTree) : Prop where
  below : ∀ place name e, t.entry? (place ++ [name]) = some e →
    t.hasFolder place = true ∧ Plain name
  /-- No file has an identity to come. -/
  fresh : ∀ place id content time, t.entry? place = some (.file id content time) → id < t.nextId

/-- A place for something new. -/
def Room (t : FileTree) (place : Location) : Prop :=
  ∃ folder name, place = folder ++ [name] ∧ t.hasFolder folder = true ∧ Plain name

/-- A change where there is no folder is no change of the root. -/
theorem entry?_of_file {t t' : FileTree} {place : Location} {new : Option FileEntry}
    (file : t.hasFolder place = false)
    (entries : ∀ other, other ≠ [] →
      t'.entry? other = if other = place then new else t.entry? other)
    (other : Location) : t'.entry? other = if other = place then new else t.entry? other := by
  by_cases root : other = []
  · have below : ¬ other = place := by
      rintro rfl
      rw [root] at file
      cases file
    rw [if_neg below, root]
    rfl
  · exact entries other root

namespace Formed

variable {t t' : FileTree}

theorem up (formed : t.Formed) {place : Location} (folder : t.hasFolder place = true) :
    t.hasFolder place.dropLast = true := by
  rcases List.eq_nil_or_concat place with rfl | ⟨above, name, rfl⟩
  · exact folder
  · rw [List.concat_eq_append] at folder ⊢
    rw [List.dropLast_concat]
    cases known : t.entry? (above ++ [name]) with
    | none => simp [hasFolder, known] at folder
    | some e => exact (formed.below above name e known).1

/-- What stands in a tree stands in folders all the way up. -/
theorem ancestors (formed : t.Formed) (above more : Location) {e : FileEntry} (deeper : more ≠ [])
    (known : t.entry? (above ++ more) = some e) : t.hasFolder above = true := by
  induction more using List.reverseRecOn generalizing e with
  | nil => exact absurd rfl deeper
  | append_singleton more name ih =>
    rw [← List.append_assoc] at known
    have folder := (formed.below _ name e known).1
    by_cases last : more = []
    · rwa [last, List.append_nil] at folder
    · cases entry : t.entry? (above ++ more) with
      | none => simp [hasFolder, entry] at folder
      | some e' => exact ih last entry

theorem walk_room (formed : t.Formed) {here place : Location} {pieces : List String}
    (walked : t.walk here pieces = .ok place)
    (whole : ∀ piece ∈ pieces, '/' ∉ piece.toList) (free : t.hasFolder place = false) :
    place = here ∨ t.Room place := by
  induction pieces generalizing here with
  | nil => exact .inl (walk_eq_foldl t walked)
  | cons piece rest ih =>
    obtain ⟨folder, step⟩ := (walk_cons t here piece rest place).mp walked
    have next {here : Location} (walked : t.walk here rest = .ok place) :=
      ih walked fun other known => whole other (List.mem_cons_of_mem piece known)
    have stays {here : Location} (folder : t.hasFolder here = true) : place ≠ here := by
      rintro rfl
      rw [folder] at free
      cases free
    right
    split at step
    · exact (next step).resolve_left (stays folder)
    · split at step
      · exact (next step).resolve_left (stays (formed.up folder))
      · split at step
        · cases step
        · rename_i named up short
          rcases next step with rfl | room
          · rw [not_or] at named
            exact ⟨here, piece, rfl, folder, named.1, named.2, up, whole piece List.mem_cons_self⟩
          · exact room

/-- A path leads to a folder or to a place in one. -/
theorem locate_room (formed : t.Formed) {home place : Location} {path : String}
    (located : t.locate home path = .ok place) (free : t.hasFolder place = false) :
    t.Room place := by
  unfold locate at located
  split at located
  · cases located
  · split at located
    · cases located
    · rcases formed.walk_room located (fun _ => whole_of_mem_pieces) free with rfl | room
      · -- the first step of the walk asks for a folder to start from
        obtain ⟨piece, rest, pieces⟩ := List.exists_cons_of_ne_nil (pieces_ne_nil path)
        rw [pieces] at located
        rw [((walk_cons t _ piece rest _).mp located).1] at free
        cases free
      · exact room

theorem of_entries (formed : t.Formed) {place : Location} {e : FileEntry} (room : t.Room place)
    (file : t.hasFolder place = false)
    (entries : ∀ other, t'.entry? other = if other = place then some e else t.entry? other)
    (next : t.nextId ≤ t'.nextId)
    (id : ∀ id content time, e = .file id content time → id < t'.nextId) : t'.Formed := by
  have folders (other : Location) (folder : t.hasFolder other = true) :
      t'.hasFolder other = true := by
    rw [hasFolder, entries, if_neg]
    · exact folder
    · rintro rfl
      rw [folder] at file
      cases file
  constructor
  · intro above name e' known
    rw [entries] at known
    split at known
    · rename_i here
      obtain ⟨folder, last, rfl, there, plain⟩ := room
      obtain ⟨rfl, rfl⟩ := List.append_singleton_inj.mp here
      exact ⟨folders _ there, plain⟩
    · obtain ⟨folder, plain⟩ := formed.below above name e' known
      exact ⟨folders _ folder, plain⟩
  · intro other id' content time known
    rw [entries] at known
    split at known
    · exact id id' content time (Option.some.inj known)
    · exact (formed.fresh other id' content time known).trans_le next

end Formed

instance (name : String) : Decidable (Plain name) :=
  decidable_of_iff (name ≠ "" ∧ name ≠ "." ∧ name ≠ ".." ∧ '/' ∉ name.toList)
    ⟨fun h => ⟨h.1, h.2.1, h.2.2.1, h.2.2.2⟩, fun h => ⟨h.some, h.here, h.up, h.whole⟩⟩

def identity? : FileEntry → Option Nat
  | .file id _ _ => some id
  | .folder _ => none

theorem mem_entries {t : FileTree} {place : Location} {e : FileEntry} (below : place ≠ [])
    (known : t.entry? place = some e) : (place, e) ∈ t.entries := by
  rw [ entry?, if_neg below] at known
  obtain ⟨before, after, split, -⟩ := List.lookup_eq_some_iff.mp known
  simp [split]

/-- A tree is well formed if all that is listed in it is in order. -/
theorem formed_of_entries {t : FileTree}
    (listed : ∀ x ∈ t.entries, t.hasFolder x.1.dropLast = true ∧
      (∀ name ∈ x.1.getLast?, Plain name) ∧ ∀ id ∈ identity? x.2, id < t.nextId) : t.Formed := by
  constructor
  · intro above name e known
    obtain ⟨folder, plain, -⟩ := listed _ (mem_entries (by simp) known)
    exact ⟨by simpa using folder, plain name (by simp)⟩
  · intro place id content time known
    by_cases root : place = []
    · rw [root] at known
      cases known
    · obtain ⟨-, -, fresh⟩ := listed _ (mem_entries root known)
      exact fresh id rfl

/-- What may become of a place while a program writes at some places. -/
inductive Change (written : Prop) (clock : Time) (old : Option FileEntry) :
    Option FileEntry → Prop
  | same : Change written clock old old
  | made (free : old = none) (time : Time) : Change written clock old (some (.folder time))
  | filled (here : written) (file : ∀ time, old ≠ some (.folder time)) (id : Nat)
      (content : Content) : Change written clock old (some (.file id content clock))

theorem Change.trans {written : Prop} {clock : Time} {old new newer : Option FileEntry}
    (first : Change written clock old new) (second : Change written clock new newer) :
    Change written clock old newer := by
  cases second with
  | same => exact first
  | made free time =>
    cases first with
    | same => exact .made free time
    | made => cases free
    | filled => cases free
  | filled here file id content =>
    cases first with
    | same => exact .filled here file id content
    | made free time => exact absurd rfl (file time)
    | filled here' file' => exact .filled here file' id content

theorem Change.mono {written written' : Prop} {clock : Time} {old new : Option FileEntry}
    (change : Change written clock old new) (more : written → written') :
    Change written' clock old new := by
  cases change with
  | same => exact .same
  | made free time => exact .made free time
  | filled here file id content => exact .filled (more here) file id content

structure Grown (written : Location → Prop) (clock : Time) (t t' : FileTree) : Prop where
  entries : ∀ place, Change (written place) clock ( t.entry? place) ( t'.entry? place)
  formed : t.Formed → t'.Formed

section Operations
variable {t t' : FileTree} {home place : Location} {path : String} {time : Time}

/-- Something new or a file written anew, at the place that a path leads to. -/
theorem grown_of_entries {written : Location → Prop} {e : FileEntry}
    (located : t.locate home path = .ok place) (file : t.hasFolder place = false)
    (changed : Change (written place) time ( t.entry? place) (some e))
    (entries : ∀ other, other ≠ [] →
      t'.entry? other = if other = place then some e else t.entry? other)
    (next : t.nextId ≤ t'.nextId)
    (id : t.Formed → ∀ id content time, e = .file id content time → id < t'.nextId) :
    Grown written time t t' := by
  have all := entry?_of_file file entries
  constructor
  · intro other
    rw [all]
    split
    · rename_i here
      rw [here]
      exact changed
    · exact .same
  · intro formed
    exact formed.of_entries (formed.locate_room located file) file all next (id formed)

theorem grown_makeFolder (made : t.makeFolder home path time = .ok t')
    (written : Location → Prop) (clock : Time) : Grown written clock t t' := by
  unfold makeFolder at made
  cases located : t.locate home (withoutEnd path) with
  | error e => simp [located, bind, Except.bind] at made
  | ok place =>
    cases free : t.entry? place with
    | some e => simp [located, free, bind, Except.bind] at made
    | none =>
      simp only [located, free, bind, Except.bind, Except.ok.injEq] at made
      subst made
      have file : t.hasFolder place = false := by simp [hasFolder, free]
      apply grown_of_entries located file (.made free time)
      · intro other below
        exact entry?_set t place other _ below
      · exact le_rfl
      · intro _ id content time same
        cases same

theorem grown_write {content : Content} (stored : t.write home path content time = .ok t') :
    Grown (· = placeOf home path) time t t' := by
  unfold write target at stored
  cases located : t.locate home (withoutEnd path) with
  | error e => simp [located, bind, Except.bind] at stored
  | ok place =>
    cases ends : Text.endsWith path "/" with
    | true => simp [located, ends, bind, Except.bind] at stored
    | false =>
      simp only [located, ends, bind, Except.bind, Bool.false_eq_true, if_false] at stored
      rw [withoutEnd_eq ends] at located
      have here := locate_eq_placeOf located
      split at stored
      · rename_i free
        cases stored
        have file : t.hasFolder place = false := by simp [hasFolder, free]
        apply grown_of_entries located file (.filled here (by simp [free]) t.nextId content)
        · intro other below
          exact entry?_set t place other _ below
        · exact Nat.le_succ _
        · intro _ id content' time' same
          cases same
          exact Nat.lt_succ_self _
      · rename_i id old time' known
        cases stored
        have file : t.hasFolder place = false := by simp [hasFolder, known, FileEntry.kind]
        apply grown_of_entries located file (.filled here (by simp [known]) id content)
        · intro other below
          exact entry?_set t place other _ below
        · exact le_rfl
        · intro formed id' content' time'' same
          cases same
          exact formed.fresh place id old time' known
      · cases stored

theorem grown_stamp (stamped : t.stamp home path time = .ok t') :
    Grown (· = placeOf home path) time t t' := by
  unfold stamp at stamped
  cases opened : t.file home path with
  | error e => simp [opened, bind, Except.bind] at stamped
  | ok answer =>
    obtain ⟨place, id, content⟩ := answer
    simp only [opened, bind, Except.bind, Except.ok.injEq] at stamped
    subst stamped
    obtain ⟨time', found⟩ := (file_eq_ok t home path place id content).mp opened
    obtain ⟨located, known⟩ := (find_eq_ok t home path place _).mp found
    have file : t.hasFolder place = false := by simp [hasFolder, known, FileEntry.kind]
    apply grown_of_entries located file
      (.filled (locate_eq_placeOf located) (by simp [known]) id content)
    · intro other below
      exact entry?_set t place other _ below
    · exact le_rfl
    · intro formed id' content' time'' same
      cases same
      exact formed.fresh place id content time' known

end Operations

end FileTree

namespace Machine
open FileTree

structure Grown (written : Location → Prop) (m m' : Machine) : Prop where
  home : m'.home = m.home
  clock : m'.clock = m.clock
  tree : m.tree.Grown written m.clock m'.tree

namespace Grown

variable {written : Location → Prop} {m m' m'' : Machine}

theorem rfl' (written : Location → Prop) (m : Machine) : Grown written m m :=
  ⟨rfl, rfl, fun _ => .same, id⟩

theorem trans (first : Grown written m m') (second : Grown written m' m'') :
    Grown written m m'' := by
  obtain ⟨home, clock, entries, formed⟩ := second
  rw [first.clock] at entries
  exact ⟨home.trans first.home, clock.trans first.clock,
    fun place => (first.tree.entries place).trans (entries place),
    fun known => formed (first.tree.formed known)⟩

theorem mono {more : Location → Prop} (grown : Grown written m m')
    (among : ∀ place, written place → more place) : Grown more m m' :=
  ⟨grown.home, grown.clock, fun place => (grown.tree.entries place).mono (among place),
    grown.tree.formed⟩

end Grown

/-- A program that writes at some places only, when it starts in a folder. -/
def Grows (home : Location) (written : Location → Prop) {β : Type} (x : StateM Machine β) : Prop :=
  ∀ m : Machine, m.home = home → Grown written m (x.run m).2

variable {home : Location} {written : Location → Prop} {β γ : Type}

theorem grows_pure (b : β) : Grows home written (pure b : StateM Machine β) :=
  fun m _ => .rfl' written m

theorem grows_bind {x : StateM Machine β} {f : β → StateM Machine γ}
    (first : Grows home written x) (second : ∀ b, Grows home written (f b)) :
    Grows home written (x >>= f) := by
  intro m here
  have before := first m here
  exact before.trans (second _ _ (before.home.trans here))

theorem grows_alter {f : Machine → Except DiskError FileTree}
    (grown : ∀ m tree, m.home = home → f m = .ok tree → m.tree.Grown written m.clock tree) :
    Grows home written (alter f) := by
  intro m here
  simp only [alter, change, StateT.run]
  cases altered : f m with
  | error e => exact .rfl' written m
  | ok tree => exact ⟨rfl, rfl, grown m tree here altered⟩

theorem grows_makeFolder (path : String) :
    Grows home written (Host.makeFolder path : StateM Machine (Except DiskError Unit)) :=
  grows_alter fun m _ _ made => grown_makeFolder made written m.clock

theorem grows_settleFolder (path : String) (result : Except DiskError Unit) :
    Grows home written
      (Host.settleFolder path result : StateM Machine (Except DiskError Unit)) := by
  cases result with
  | ok done => exact grows_pure _
  | error e => exact fun m _ => .rfl' written m

theorem grows_makeFoldersUp (parts : List Path.Part) :
    Grows home written (Host.makeFoldersUp parts : StateM Machine (Except DiskError Unit)) := by
  induction parts with
  | nil => exact grows_pure _
  | cons part above ih =>
    rw [Host.makeFoldersUp]
    apply grows_bind (grows_makeFolder _)
    intro result
    split
    · apply grows_bind ih
      intro result
      split
      · exact grows_bind (grows_makeFolder _) (grows_settleFolder _)
      · exact grows_pure _
    · exact grows_settleFolder _ result

theorem grows_makeParents (path : String) :
    Grows home written (Host.makeParents path : StateM Machine (Except DiskError Unit)) := by
  unfold Host.makeParents
  split
  · exact grows_makeFoldersUp _
  · exact grows_pure _

theorem grows_writeText (path text : String) : Grows home (· = placeOf home path)
    (Host.writeText path text : StateM Machine (Except DiskError Unit)) := by
  apply grows_alter
  rintro m tree rfl stored
  exact grown_write stored

theorem grows_touch (path : String) : Grows home (· = placeOf home path)
    (Host.touch path : StateM Machine (Except DiskError Unit)) := by
  apply grows_alter
  rintro m tree rfl stamped
  exact grown_stamp stamped

end Machine
end Docket
