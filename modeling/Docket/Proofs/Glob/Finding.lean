import Docket.Proofs.Host.Growth
import Docket.Proofs.Intake.Looking

/-! What a pattern finds on a machine, part by part. A path found below a folder shows that the
folder is there, and unless a part of the pattern goes up it leads below that folder. -/
namespace Docket

namespace FileTree
open Docket.Path

variable {t : FileTree} {home place : Location}

theorem walk_append (here : Location) (ps qs : List String) :
    t.walk here (ps ++ qs) = .ok place ↔
      ∃ mid, t.walk here ps = .ok mid ∧ t.walk mid qs = .ok place := by
  induction ps generalizing here with
  | nil => simp [walk]
  | cons p ps ih =>
    simp only [List.cons_append, walk_cons]
    split
    · simp only [ih, and_assoc, exists_and_left]
    · split
      · simp only [ih, and_assoc, exists_and_left]
      · split
        · simp
        · simp only [ih, and_assoc, exists_and_left]

theorem locate_iff (path : String) : t.locate home path = .ok place ↔
    path ≠ "" ∧ '\x00' ∉ path.toList ∧
      t.walk (if isAbsolute path then [] else home) (pieces path) = .ok place := by
  unfold locate
  split
  · simp [*]
  · split <;> simp_all

theorem walk_way {here : Location} {path : String}
    (walked : t.walk here (pieces path) = .ok place) :
    t.walk here (way path) = .ok place := by
  rcases pieces_eq_way path with same | slash
  · rwa [same] at walked
  · rw [slash, walk_append] at walked
    obtain ⟨mid, walked, stays⟩ := walked
    have here := walk_eq_foldl t stays
    simp only [List.foldl_cons, List.foldl_nil, advance, true_or, if_true] at here
    rwa [here]

/-- A path with a slash at its end leads to where it leads without, if that is a folder. -/
theorem walk_pieces {here : Location} {path : String} (walked : t.walk here (way path) = .ok place)
    (folder : t.hasFolder place = true) : t.walk here (pieces path) = .ok place := by
  rcases pieces_eq_way path with same | slash
  · rwa [same]
  · rw [slash, walk_append]
    exact ⟨place, walked, (walk_cons t place "" [] place).mpr ⟨folder, by simp [walk]⟩⟩

/-- Where a name leads that is joined to a path. -/
theorem locate_join {base name : String} (some : base ≠ "") (whole : '/' ∉ name.toList) :
    t.locate home (join base name) = .ok place ↔
      ∃ folder, t.locate home base = .ok folder ∧ '\x00' ∉ name.toList ∧
        t.walk folder [name] = .ok place := by
  simp only [locate_iff, isAbsolute_join some whole, pieces_join some whole, zero_join some whole,
    walk_append]
  constructor
  · rintro ⟨-, ⟨zero, zero'⟩, folder, walked, step⟩
    have opens := ((walk_cons t folder name [] place).mp step).1
    exact ⟨folder, ⟨some, zero, walk_pieces walked opens⟩, zero', step⟩
  · rintro ⟨folder, ⟨-, zero, walked⟩, zero', step⟩
    exact ⟨join_ne_empty some whole, ⟨zero, zero'⟩, folder, walk_way walked, step⟩

end FileTree

namespace Machine
open FileTree

variable {β γ : Type} {m : Machine} {path : String}

theorem run_mapM_still {f : β → StateM Machine γ} (each : ∀ b, Still (f b)) (bs : List β)
    (m : Machine) : (bs.mapM f).run m = (bs.map fun b => ((f b).run m).1, m) := by
  induction bs with
  | nil => rfl
  | cons b bs ih => rw [List.mapM_cons, run_bind, each b m, run_bind, ih]; rfl

theorem run_filterM_still {f : β → StateM Machine Bool} (each : ∀ b, Still (f b)) (bs : List β)
    (m : Machine) : (bs.filterM f).run m = (bs.filter fun b => ((f b).run m).1, m) := by
  have go (kept : List β) : (bs.filterAuxM f kept).run m =
      ((bs.filter fun b => ((f b).run m).1).reverse ++ kept, m) := by
    induction bs generalizing kept with
    | nil => rfl
    | cons b bs ih =>
      rw [List.filterAuxM, run_bind, each b m, ih]
      cases told : ((f b).run m).1 <;> simp [told]
  rw [List.filterM, run_bind, go]
  simp [StateT.run, pure, StateT.pure]

theorem run_kind (m : Machine) (path : String) :
    (Host.kind? path : StateM Machine (Option FileKind)).run m =
      ((m.tree.standing m.home path).map FileEntry.kind, m) := by
  rw [standing, Option.map_map]
  rfl

/-- A path that leads to a folder. -/
def Open (m : Machine) (path : String) (place : Location) : Prop :=
  m.tree.locate m.home path = .ok place ∧ m.tree.hasFolder place = true

/-- A path that leads to something. -/
def Holds (m : Machine) (path : String) : Prop :=
  ∃ place, m.tree.locate m.home path = .ok place ∧ ( m.tree.entry? place).isSome = true

theorem run_isFolder : ((Host.isFolder path : StateM Machine Bool).run m).1 = true ↔
    ∃ place, m.Open path place := by
  have ran : ((Host.isFolder path : StateM Machine Bool).run m).1 =
      decide ((m.tree.standing m.home path).map FileEntry.kind = some .folder) := by
    rw [Host.isFolder, run_bind, run_kind]
    rfl
  rw [ran, decide_eq_true_eq, Option.map_eq_some_iff]
  constructor
  · rintro ⟨e, known, kind⟩
    obtain ⟨place, located, entry⟩ := (standing_eq_some _ _ _ _).mp known
    exact ⟨place, located, by simp [hasFolder, entry, kind]⟩
  · rintro ⟨place, located, folder⟩
    rw [standing_of_locate located]
    simpa [hasFolder] using folder

theorem run_isThere : ((Host.isThere path : StateM Machine Bool).run m).1 = true ↔
    m.Holds path := by
  have ran : ((Host.isThere path : StateM Machine Bool).run m).1 =
      ((m.tree.standing m.home path).map FileEntry.kind).isSome := by
    rw [Host.isThere, run_bind, run_kind]
    rfl
  rw [ran, Option.isSome_map, Option.isSome_iff_exists]
  constructor
  · rintro ⟨e, known⟩
    obtain ⟨place, located, entry⟩ := (standing_eq_some _ _ _ _).mp known
    exact ⟨place, located, by simp [entry]⟩
  · rintro ⟨place, located, entry⟩
    rw [standing_of_locate located]
    exact Option.isSome_iff_exists.mp entry

def namesIn (m : Machine) (folder : String) : List String :=
  (((Host.names folder : StateM Machine (Except DiskError (List String))).run m).1.toOption).getD []

theorem mem_keys_iff {entries : List (Location × FileEntry)} {place : Location} :
    (∃ e, (place, e) ∈ entries) ↔ (entries.lookup place).isSome = true := by
  induction entries with
  | nil => simp
  | cons entry entries ih =>
    obtain ⟨key, e⟩ := entry
    rw [List.lookup_cons]
    by_cases same : place = key
    · simp [same]
    · simp only [List.mem_cons, Prod.mk.injEq, same, false_and, false_or, ih,
        beq_eq_false_iff_ne.mpr same]

theorem mem_namesIn {folder name : String} : name ∈ m.namesIn folder ↔
    ∃ place, m.Open folder place ∧ ( m.tree.entry? (place ++ [name])).isSome = true := by
  have ran : ((Host.names folder : StateM Machine (Except DiskError (List String))).run m).1 =
      m.tree.names m.home folder := rfl
  rw [namesIn, ran]
  unfold FileTree.names
  cases found : m.tree.find m.home folder with
  | error e =>
    have closed (place : Location) : ¬ m.Open folder place := by
      rintro ⟨located, there⟩
      cases entry : m.tree.entry? place with
      | none => simp [hasFolder, entry] at there
      | some e' =>
        rw [(find_eq_ok _ _ _ place e').mpr ⟨located, entry⟩] at found
        cases found
    simp [bind, Except.bind, Except.toOption, closed]
  | ok answer =>
    obtain ⟨place, e⟩ := answer
    obtain ⟨located, entry⟩ := (find_eq_ok _ _ _ place e).mp found
    have only (other : Location) : m.Open folder other ↔ other = place ∧ e.kind = .folder := by
      constructor
      · rintro ⟨located', there⟩
        cases located.symm.trans located'
        exact ⟨rfl, by simpa [hasFolder, entry] using there⟩
      · rintro ⟨rfl, kind⟩
        exact ⟨located, by simp [hasFolder, entry, kind]⟩
    simp only [only, and_assoc, exists_eq_left]
    cases e with
    | file id content time => simp [bind, Except.bind, Except.toOption, FileEntry.kind]
    | folder time =>
      have below : place ++ [name] ≠ [] := by simp
      simp only [bind, Except.bind, Except.toOption, Option.getD_some, List.mem_filterMap,
        FileEntry.kind, true_and, FileTree.entry?, if_neg below, ← mem_keys_iff]
      constructor
      · rintro ⟨⟨other, e'⟩, known, last⟩
        dsimp only at last
        split at last
        · rename_i above
          refine ⟨e', ?_⟩
          rw [← above, List.dropLast_append_getLast? name last]
          exact known
        · cases last
      · rintro ⟨e', known⟩
        exact ⟨(place ++ [name], e'), known, by simp⟩

end Machine

namespace Glob
open Machine

variable {m : Machine}

/-- How a pattern goes on once a path is meant by its first part. -/
def Onward (finds : List Pattern → String → String → Prop) (rest : List Pattern)
    (path x : String) : Prop :=
  if rest.isEmpty then x = path else finds rest path x

def Named (finds : List Pattern → String → String → Prop) (parts : List Pattern)
    (path x : String) : Prop :=
  ∃ part rest name, parts = part :: rest ∧ Path.fileName? path = some name ∧
    accepts part name.toList = true ∧ Onward finds rest path x

def AtEntry (m : Machine) (finds : List Pattern → String → String → Prop)
    (parts : List Pattern) (path x : String) : Prop :=
  if parts.head? = some [.deep] then
    let rest := parts.dropWhile (· = [.deep])
    ((∃ place, m.Open path place) ∧
      (finds ([.deep] :: rest) path x ∨ rest = [] ∧ x = path)) ∨ Named finds rest path x
  else Named finds parts path x

/-- Whether a part without wildcards is there. -/
def Meets (m : Machine) (folder name : String) : Prop :=
  if name = "." ∨ name = ".." then ∃ place, m.Open folder place else m.Holds (below folder name)

/-- Whether the parts of a pattern find a path from a folder on. -/
def Finds (m : Machine) : Nat → List Pattern → String → String → Prop
  | 0, _, _, _ => False
  | _, [], _, _ => False
  | depth + 1, part :: rest, folder, x =>
    match literal? part with
    | some cs => Meets m folder (String.ofList cs) ∧
        Onward (Finds m depth) rest (below folder (String.ofList cs)) x
    | none => (∃ place, m.Open folder place) ∧
        ((∃ name ∈ m.namesIn folder,
          AtEntry m (Finds m depth) (part :: rest) (below folder name) x) ∨
        ∃ s, (s = "." ∨ s = "..") ∧ part.head? = some (.char '.') ∧
          accepts part s.toList = true ∧ Onward (Finds m depth) rest (Path.join folder s) x)

section Told
variable {follow : List Pattern → String → StateM Machine (List String)}
  {finds : List Pattern → String → String → Prop}
  (told : ∀ parts folder x, x ∈ ((follow parts folder).run m).1 ↔ finds parts folder x)
include told

theorem mem_onward (rest : List Pattern) (path x : String) :
    x ∈ ((onward follow rest path).run m).1 ↔ Onward finds rest path x := by
  unfold onward Onward
  split
  · simp [StateT.run, pure, StateT.pure]
  · exact told rest path x

theorem mem_atName (parts : List Pattern) (path x : String) :
    x ∈ ((atName follow parts path).run m).1 ↔ Named finds parts path x := by
  unfold atName Named
  split
  · rename_i part rest name named
    split
    · simp_all [mem_onward told]
    · simp_all [StateT.run, pure, StateT.pure]
  · rename_i other
    simp [StateT.run, pure, StateT.pure]
    rintro part rest rfl name named
    exact absurd named (other part rest name rfl)

variable (still : ∀ parts folder, Still (follow parts folder))
include still

theorem mem_atEntry (parts : List Pattern) (path x : String) :
    x ∈ ((atEntry follow parts path).run m).1 ↔ AtEntry m finds parts path x := by
  unfold atEntry
  split
  · rename_i deeper
    rw [AtEntry, List.head?_cons, if_pos rfl]
    have isFolder : ((Host.isFolder path : StateM Machine Bool).run m).2 = m :=
      still_isFolder path m
    dsimp only
    rw [run_bind, isFolder]
    split
    · rename_i folder
      rw [run_bind, still _ path m]
      simp only [run_isFolder.mp folder, true_and]
      generalize List.dropWhile (fun x => decide (x = [Token.deep])) ([.deep] :: deeper) = rest
      cases rest with
      | nil => simp [StateT.run, bind, StateT.bind, pure, StateT.pure, Named, ← told]
      | cons part rest =>
        have here := mem_atName (m := m) told (part :: rest) path x
        rw [List.isEmpty_cons, if_neg Bool.false_ne_true, run_bind]
        show x ∈ _ ++ _ ↔ _
        rw [List.mem_append, told, here]
        simp
    · rename_i file
      have closed : ¬ ∃ place, m.Open path place := fun there => file (run_isFolder.mpr there)
      simp only [closed, false_and, false_or]
      exact mem_atName told _ path x
  · rename_i plain
    have other : ¬ parts.head? = some [.deep] := by
      intro deep
      obtain ⟨tail, split⟩ := List.head?_eq_some_iff.mp deep
      exact plain tail split
    rw [AtEntry, if_neg other]
    exact mem_atName told parts path x

end Told

theorem still_isThere (path : String) : Still (Host.isThere path) :=
  still_bind (still_kind path) fun _ => still_pure _

theorem mem_when {asked : StateM Machine Bool} {finding : StateM Machine (List String)}
    {p q : Prop} {x : String} (still : Still asked) (told : (asked.run m).1 = true ↔ p)
    (found : x ∈ (finding.run m).1 ↔ q) :
    x ∈ ((asked >>= fun there => if there = true then finding else pure []).run m).1 ↔ p ∧ q := by
  rw [run_bind, still]
  split
  · rename_i there
    rw [found, and_iff_right (told.mp there)]
  · rename_i absent
    have nothing : ¬ p := fun there => absent (told.mpr there)
    simp [StateT.run, pure, StateT.pure, nothing]

theorem mem_follow (depth : Nat) (parts : List Pattern) (folder x : String) :
    x ∈ ((follow depth parts folder : StateM Machine (List String)).run m).1 ↔
      Finds m depth parts folder x := by
  induction depth generalizing parts folder x with
  | zero => simp [follow, Finds, StateT.run, pure, StateT.pure]
  | succ depth ih =>
    cases parts with
    | nil => simp [follow, Finds, StateT.run, pure, StateT.pure]
    | cons part rest =>
      rw [follow, Finds]
      cases text : literal? part with
      | some cs =>
        have after := mem_onward (m := m) ih rest (below folder (String.ofList cs)) x
        simp only [Bool.or_eq_true, decide_eq_true_eq, Meets]
        split
        · exact mem_when (still_isFolder folder) run_isFolder after
        · exact mem_when (still_isThere _) run_isThere after
      | none =>
        apply mem_when (still_isFolder folder) run_isFolder
        rw [run_bind, still_names folder m, run_bind,
          run_mapM_still fun name => still_atEntry (still_follow depth) _ _, run_bind,
          run_mapM_still fun name => still_onward (still_follow depth) rest _]
        show x ∈ List.flatten _ ++ List.flatten _ ↔ _
        simp only [List.mem_append, List.mem_flatten, List.mem_map, List.mem_filter,
          exists_exists_and_eq_and, mem_atEntry ih (still_follow depth), mem_onward ih]
        simp only [List.mem_cons, List.not_mem_nil, or_false, Bool.and_eq_true, decide_eq_true_eq,
          and_assoc]
        rfl

theorem mem_find {p : PathPattern} {x : String} :
    x ∈ ((find p : StateM Machine (List String)).run m).1 ↔
      Finds m (deepest + p.parts.length) p.parts p.start x ∧
        (p.folders = true → ∃ place, m.Open x place) := by
  rw [find, run_bind, still_follow]
  split
  · rename_i folders
    rw [run_filterM_still still_isFolder, List.mem_filter, mem_follow, run_isFolder]
    simp [folders]
  · rename_i all
    simp [StateT.run, pure, StateT.pure, ← mem_follow, all]

end Glob
end Docket
