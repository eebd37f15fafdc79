import Docket.Proofs.Formula.Scanning
import Docket.Proofs.Host.Writing

/-! Files by the last name of their place. A name without slashes that is joined to a folder's path
stands right below the folder, whatever the path looks like; a deed done to one file leaves all
files of other last names alone. -/
namespace Docket

namespace Text

theorem split_append (sep : Char) (cs ds : List Char) :
    split sep (cs ++ sep :: ds) = split sep cs ++ split sep ds := by
  induction cs with
  | nil => simp [split]
  | cons c cs ih =>
    rw [List.cons_append, split, split, ih]
    split
    · rfl
    · have some := FileTree.split_ne_nil sep cs
      cases pieces : split sep cs with
      | nil => exact absurd pieces some
      | cons p ps => rfl

theorem split_eq_self {sep : Char} {cs : List Char} (absent : sep ∉ cs) : split sep cs = [cs] := by
  induction cs with
  | nil => rfl
  | cons c cs ih =>
    have other : c ≠ sep := Ne.symm (List.ne_of_not_mem_cons absent)
    rw [split, ih (List.not_mem_of_not_mem_cons absent), if_neg other]

theorem not_mem_of_mem_split {sep : Char} {cs p : List Char} (piece : p ∈ split sep cs) :
    sep ∉ p := by
  induction cs generalizing p with
  | nil =>
    rw [split, List.mem_singleton] at piece
    simp [piece]
  | cons c cs ih =>
    rw [split] at piece
    split at piece
    · rcases List.mem_cons.mp piece with rfl | later
      · simp
      · exact ih later
    · rename_i other
      have some := FileTree.split_ne_nil sep cs
      cases pieces : split sep cs with
      | nil => exact absurd pieces some
      | cons q qs =>
        rw [pieces] at piece ih
        rcases List.mem_cons.mp piece with rfl | later
        · exact List.not_mem_cons_of_ne_of_not_mem (Ne.symm other) (ih List.mem_cons_self)
        · exact ih (List.mem_cons_of_mem q later)

theorem mem_of_cutLast {c d : Char} {cs before after : List Char}
    (cut : cutLast? c cs = some (before, after)) (known : d ∈ before) : d ∈ cs := by
  rw [(cutLast?_eq_some.mp cut).1]
  exact List.mem_append_left _ known

end Text

namespace Path

/-- A piece of a path that names something. -/
structure Plain (name : String) : Prop where
  some : name ≠ ""
  here : name ≠ "."
  up : name ≠ ".."
  whole : '/' ∉ name.toList

theorem isAbsolute_whole {name : String} (whole : '/' ∉ name.toList) : isAbsolute name = false := by
  rw [isAbsolute]
  cases chars : name.toList with
  | nil => rfl
  | cons c rest =>
    rw [chars] at whole
    have other : c ≠ '/' := Ne.symm (List.ne_of_not_mem_cons whole)
    simpa using other

theorem pieces_whole {name : String} (whole : '/' ∉ name.toList) : pieces name = [name] := by
  simp [pieces, Text.split_eq_self whole]

theorem isAbsolute_append {base : String} (some : base.toList ≠ []) (rest : String) :
    isAbsolute (base ++ rest) = isAbsolute base := by
  rw [isAbsolute, isAbsolute, String.toList_append]
  cases chars : base.toList with
  | nil => exact absurd chars some
  | cons c cs => rfl

/-- The pieces of a path without the empty one behind a slash at its end. -/
def way (path : String) : List String :=
  if path.toList.getLast? = some '/' then (pieces path).dropLast else pieces path

theorem pieces_slash {path : String} {front : List Char} (text : path.toList = front ++ ['/']) :
    pieces path = (Text.split '/' front).map String.ofList ++ [""] := by
  simp [pieces, text, FileTree.split_snoc]

theorem pieces_eq_way (path : String) :
    pieces path = way path ∨ pieces path = way path ++ [""] := by
  unfold way
  split
  · rename_i slash
    obtain ⟨front, text⟩ := List.getLast?_eq_some_iff.mp slash
    right
    rw [pieces_slash text, List.dropLast_concat]
  · exact .inl rfl

theorem join_eq {base name : String} (some : base ≠ "") (whole : '/' ∉ name.toList) :
    join base name =
      if base.toList.getLast? = .some '/' then base ++ name else base ++ "/" ++ name := by
  simp [join, isAbsolute_whole whole, some]

theorem pieces_join {base name : String} (some : base ≠ "") (whole : '/' ∉ name.toList) :
    pieces (join base name) = way base ++ [name] := by
  rw [join_eq some whole, way]
  split
  · rename_i slash
    obtain ⟨front, text⟩ := List.getLast?_eq_some_iff.mp slash
    rw [pieces_slash text, List.dropLast_concat]
    simp [pieces, text, Text.split_append, Text.split_eq_self whole]
  · have text : (base ++ "/" ++ name).toList = base.toList ++ '/' :: name.toList := by simp
    rw [pieces, text, Text.split_append, List.map_append, Text.split_eq_self whole]
    simp [pieces]

theorem isAbsolute_join {base name : String} (some : base ≠ "") (whole : '/' ∉ name.toList) :
    isAbsolute (join base name) = isAbsolute base := by
  have chars : base.toList ≠ [] := by simpa using some
  rw [join_eq some whole]
  split
  · exact isAbsolute_append chars name
  · rw [String.append_assoc]
    exact isAbsolute_append chars _

theorem join_ne_empty {base name : String} (some : base ≠ "") (whole : '/' ∉ name.toList) :
    join base name ≠ "" := by
  rw [join_eq some whole]
  split <;> simp [some]

theorem zero_join {base name : String} (some : base ≠ "") (whole : '/' ∉ name.toList) :
    '\x00' ∉ (join base name).toList ↔ '\x00' ∉ base.toList ∧ '\x00' ∉ name.toList := by
  rw [join_eq some whole]
  split <;> simp

theorem whole_of_fileName {path name : String} (named : fileName? path = some name) :
    '/' ∉ name.toList := by
  obtain ⟨part, last, same⟩ := Option.bind_eq_some_iff.mp named
  have among : part ∈ parts path := List.mem_of_getLast? last
  cases part with
  | name s =>
    cases same
    rcases List.mem_append.mp among with first | later
    · split at first
      · simp at first
      · split at first <;> simp at first
    · obtain ⟨piece, known, told⟩ := List.mem_filterMap.mp later
      obtain ⟨cs, split, rfl⟩ := List.mem_map.mp known
      unfold part? at told
      split at told
      · cases told
      · split at told <;> cases told
        rw [String.toList_ofList]
        exact Text.not_mem_of_mem_split split
  | _ => cases same

theorem whole_of_stem {path stem : String} (told : stem? path = some stem) :
    '/' ∉ stem.toList := by
  obtain ⟨name, named, rfl⟩ := Option.map_eq_some_iff.mp told
  have whole := whole_of_fileName named
  unfold stemOf
  split
  · rename_i before after cut
    split
    · exact whole
    · rw [String.toList_ofList]
      exact fun known => whole (Text.mem_of_cutLast cut known)
  · exact whole

end Path

namespace FileTree
open Docket.Path

theorem advance_plain {name : String} (plain : Plain name) (here : Location) :
    advance here name = here ++ [name] := by
  rw [advance, if_neg (by simp [plain.some, plain.here]), if_neg plain.up]

theorem foldl_way (here : Location) (path : String) :
    (way path).foldl advance here = (pieces path).foldl advance here := by
  rcases pieces_eq_way path with same | slash
  · rw [same]
  · rw [slash, List.foldl_append, List.foldl_cons, List.foldl_nil, advance, if_pos (.inl rfl)]

/-- A name joined to a path names the place right below the one that the path names. -/
theorem placeOf_join {name : String} (plain : Plain name) (home : Location) (base : String) :
    placeOf home (join base name) = placeOf home base ++ [name] := by
  by_cases empty : base = ""
  · subst empty
    have alone : join "" name = name := by simp [join]
    rw [alone, placeOf, pieces_whole plain.whole, isAbsolute_whole plain.whole]
    exact advance_plain plain home
  · rw [placeOf, isAbsolute_join empty plain.whole, pieces_join empty plain.whole,
      List.foldl_append, foldl_way]
    exact advance_plain plain _

theorem Keeps.mono {at' fewer : Location → Prop} {t t' : FileTree} (kept : Keeps at' t t')
    (among : ∀ place, fewer place → at' place) : Keeps fewer t t' :=
  ⟨kept.folders, fun place spared => kept.files place (among place spared)⟩

theorem keeps_erase {t : FileTree} {place : Location} (file : t.hasFolder place = false) :
    Keeps (· ≠ place) t (t.erase place) := by
  refine ⟨fun other folder => (hasFolder_erase file other).trans folder, fun other elsewhere => ?_⟩
  apply fileAt_congr
  by_cases root : other = []
  · subst root
    rfl
  · rw [entry?_erase t place other root, if_neg elsewhere]

theorem file_place {t : FileTree} {home : Location} {path : String} {place : Location} {id : Nat}
    {content : Content} (opened : t.file home path = .ok (place, id, content)) :
    place = placeOf home path ∧ t.hasFolder place = false := by
  obtain ⟨time, found⟩ := (file_eq_ok t home path place id content).mp opened
  obtain ⟨located, known⟩ := (find_eq_ok t home path place _).mp found
  exact ⟨locate_eq_placeOf located, by rw [hasFolder, known]; rfl⟩

theorem keeps_remove {t t' : FileTree} {home : Location} {path : String}
    (removed : t.remove home path = .ok t') : Keeps (· ≠ placeOf home path) t t' := by
  unfold remove at removed
  cases opened : t.file home path with
  | error e => simp [opened, bind, Except.bind] at removed
  | ok answer =>
    obtain ⟨place, id, content⟩ := answer
    obtain ⟨rfl, file⟩ := file_place opened
    simp only [opened, bind, Except.bind, Except.ok.injEq] at removed
    exact removed ▸ keeps_erase file

theorem keeps_stamp {t t' : FileTree} {home : Location} {path : String} {time : Time}
    (stamped : t.stamp home path time = .ok t') : Keeps (· ≠ placeOf home path) t t' := by
  unfold stamp at stamped
  cases opened : t.file home path with
  | error e => simp [opened, bind, Except.bind] at stamped
  | ok answer =>
    obtain ⟨place, id, content⟩ := answer
    obtain ⟨rfl, file⟩ := file_place opened
    simp only [opened, bind, Except.bind, Except.ok.injEq] at stamped
    exact stamped ▸ keeps_set file id content time

end FileTree

namespace Machine
open FileTree Docket.Path

def Elsewhere (name : String) (place : Location) : Prop := place.getLast? ≠ some name

theorem elsewhere_ne {name : String} (plain : Plain name) {place : Location}
    (elsewhere : Elsewhere name place) (home : Location) (base : String) :
    place ≠ placeOf home (join base name) := by
  rintro rfl
  refine elsewhere ?_
  rw [placeOf_join plain, List.getLast?_append, List.getLast?_singleton]
  rfl

theorem spares_alter {at' : Location → Prop} {f : Machine → Except DiskError FileTree}
    (kept : ∀ m tree, f m = .ok tree → m.tree.Keeps at' tree) : Spares at' (alter f) := by
  intro m
  simp only [alter, change, StateT.run]
  cases altered : f m with
  | error e => exact Keeps.rfl' at' m
  | ok tree => exact ⟨rfl, rfl, kept m tree altered⟩

variable {name : String} (plain : Plain name) (base : String)
include plain

theorem spares_remove : Spares (Elsewhere name)
    (Host.remove (join base name) : StateM Machine (Except DiskError Unit)) :=
  spares_alter fun m _ removed => (keeps_remove removed).mono fun _ elsewhere =>
    elsewhere_ne plain elsewhere m.home base

theorem spares_touch : Spares (Elsewhere name)
    (Host.touch (join base name) : StateM Machine (Except DiskError Unit)) :=
  spares_alter fun m _ stamped => (keeps_stamp stamped).mono fun _ elsewhere =>
    elsewhere_ne plain elsewhere m.home base

theorem spares_writeText (text : String) : Spares (Elsewhere name)
    (Host.writeText (join base name) text : StateM Machine (Except DiskError Unit)) :=
  spares_alter fun m _ written => (write_ok written).2.2.mono fun _ elsewhere =>
    elsewhere_ne plain elsewhere m.home base

end Machine

end Docket
