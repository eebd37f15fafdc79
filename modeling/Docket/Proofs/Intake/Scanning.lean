import Docket.Proofs.Glob.Reading
import Docket.Proofs.Intake.Rediscovery

/-! What is discovered in a folder. As long as the path of the folder has no wildcards of its own,
the pattern is followed to the folder piece by piece, and the documents are the files in it whose
names the pattern accepts and a template takes. -/
namespace Docket

namespace Path

namespace Part

/-- Parts sort by their kind and names by their characters. -/
def key (p : Part) : Lex (Nat × String) := toLex (p.rank, p.text)

theorem key_injective : Function.Injective key := by
  intro p q same
  have rank : p.rank = q.rank := congrArg (fun k => (ofLex k).1) same
  have text : p.text = q.text := congrArg (fun k => (ofLex k).2) same
  cases p <;> cases q <;> simp_all [Part.rank, Part.text]

end Part

theorem partsLE_cons (p q : Part) (ps qs : List Part) :
    partsLE (p :: ps) (q :: qs) = true ↔ p.key < q.key ∨ p = q ∧ partsLE ps qs = true := by
  rw [partsLE, Part.key, Part.key, Prod.Lex.toLex_lt_toLex]
  split_ifs with same rank
  · simp [same]
  · simp [same, rank]
  · simp [same, rank]

theorem partsLE_total (ps qs : List Part) : partsLE ps qs = true ∨ partsLE qs ps = true := by
  induction ps generalizing qs with
  | nil => exact .inl (by rw [partsLE])
  | cons p ps ih =>
    cases qs with
    | nil => exact .inr (by rw [partsLE])
    | cons q qs =>
      rw [partsLE_cons, partsLE_cons]
      rcases lt_trichotomy p.key q.key with before | same | after
      · exact .inl (.inl before)
      · obtain rfl := Part.key_injective same
        exact (ih qs).imp (fun le => .inr ⟨rfl, le⟩) fun le => .inr ⟨rfl, le⟩
      · exact .inr (.inl after)

theorem partsLE_trans {ps qs rs : List Part} (first : partsLE ps qs = true)
    (second : partsLE qs rs = true) : partsLE ps rs = true := by
  induction ps generalizing qs rs with
  | nil => rw [partsLE]
  | cons p ps ih =>
    match qs, rs with
    | [], _ => cases first
    | _ :: _, [] => cases second
    | q :: qs, r :: rs =>
      rw [partsLE_cons] at first second ⊢
      rcases first with before | ⟨rfl, first⟩
      · rcases second with before' | ⟨rfl, -⟩
        · exact .inl (before.trans before')
        · exact .inl before
      · exact second.imp_right fun ⟨same, second⟩ => ⟨same, ih first second⟩

theorem le_total (a b : String) : (le a b || le b a) = true := by
  rw [Bool.or_eq_true]
  exact partsLE_total (parts a) (parts b)

theorem le_trans (a b c : String) (first : le a b = true) (second : le b c = true) :
    le a c = true := partsLE_trans first second

theorem fileName?_of_pieces {path name : String} {front : List String} (plain : Plain name)
    (last : pieces path = front ++ [name]) : fileName? path = some name := by
  have named : part? name = some (.name name) := by
    rw [part?, if_neg (by simp [plain.some, plain.here]), if_neg plain.up]
  rw [fileName?, parts, last, List.filterMap_append, List.getLast?_append, List.getLast?_append]
  simp [named, Part.name?]

theorem fileName?_below {folder name : String} (some : folder ≠ "") (plain : Plain name) :
    fileName? (Glob.below folder name) = .some name := by
  unfold Glob.below
  split
  · exact fileName?_of_pieces plain ((pieces_whole plain.whole).trans (List.nil_append _).symm)
  · exact fileName?_of_pieces plain (pieces_join some plain.whole)

theorem below_ne_here {folder name : String} (some : folder ≠ "") (other : folder ≠ ".")
    (whole : '/' ∉ name.toList) : Glob.below folder name ≠ "." := by
  intro here
  rw [Glob.below, if_neg other, join_eq some whole] at here
  have chars := congrArg String.toList here
  split at chars
  · rename_i slash
    have among : '/' ∈ (folder ++ name).toList := by simp [List.mem_of_getLast? slash]
    rw [chars] at among
    revert among
    decide
  · have among : '/' ∈ (folder ++ "/" ++ name).toList := by simp
    rw [chars] at among
    revert among
    decide

end Path

namespace Machine
open FileTree Docket.Path Glob

variable {m : Machine} {folder base name : String} {here place : Location}

theorem Open.some (opens : m.Open folder place) : folder ≠ "" := ((locate_iff folder).mp opens.1).1

theorem locate_join_open (opens : m.Open folder here) (whole : '/' ∉ name.toList) :
    m.tree.locate m.home (join folder name) = .ok place ↔
      '\x00' ∉ name.toList ∧ m.tree.walk here [name] = .ok place := by
  rw [locate_join opens.some whole]
  constructor
  · rintro ⟨other, located, zero, step⟩
    cases opens.1.symm.trans located
    exact ⟨zero, step⟩
  · rintro ⟨zero, step⟩
    exact ⟨here, opens.1, zero, step⟩

theorem Open.start (opens : m.Open "." place) :
    m.tree.hasFolder m.home = true ∧ place = m.home := by
  obtain ⟨-, -, walked⟩ := (locate_iff ".").mp opens.1
  have pieces : Path.pieces "." = ["."] := by decide
  have relative : isAbsolute "." = false := by decide
  rw [pieces, relative] at walked
  obtain ⟨folder, stays⟩ := (walk_cons m.tree m.home "." [] place).mp walked
  rw [if_pos (.inr rfl), walk] at stays
  exact ⟨folder, (Except.ok.inj stays).symm⟩

theorem locate_below_open (opens : m.Open base here) (whole : '/' ∉ name.toList)
    (named : base = "." → name ≠ "") :
    m.tree.locate m.home (below base name) = .ok place ↔
      '\x00' ∉ name.toList ∧ m.tree.walk here [name] = .ok place := by
  unfold below
  split
  · next start =>
    subst start
    obtain ⟨-, rfl⟩ := opens.start
    rw [locate_iff, isAbsolute_whole whole, pieces_whole whole]
    simp [named rfl]
  · exact locate_join_open opens whole

/-- A file in a folder stands at every path to it. -/
theorem standing_below (opens : m.Open base here) (opens' : m.Open folder here)
    (plain : Plain name) :
    m.tree.standing m.home (below base name) = m.tree.standing m.home (join folder name) := by
  ext e
  simp only [standing_eq_some, locate_below_open opens plain.whole fun _ => plain.some,
    locate_join_open opens' plain.whole]

/-- One step further along the pieces of a path. -/
theorem open_below (opens : m.Open base here) (whole : '/' ∉ name.toList)
    (zero : '\x00' ∉ name.toList) (named : base = "." → name ≠ "")
    (step : m.tree.walk here [name] = .ok place) (folder : m.tree.hasFolder place = true) :
    Meets m base name ∧ m.Open (below base name) place := by
  have located := (locate_below_open opens whole named).mpr ⟨zero, step⟩
  refine ⟨?_, located, folder⟩
  unfold Meets
  split
  · exact ⟨here, opens⟩
  · refine ⟨place, located, ?_⟩
    cases entry : m.tree.entry? place with
    | none => simp [hasFolder, entry] at folder
    | some e => rfl

end Machine

namespace Glob
open Machine FileTree Docket.Path

variable {m : Machine} {folder base name : String} {here place : Location} {part : Pattern}
  {rest : List Pattern} {depth : Nat}

/-- The paths that the parts of a pattern find from a folder on, in the order they come in. -/
def found (m : Machine) (depth : Nat) (parts : List Pattern) (folder : String) : List String :=
  ((follow depth parts folder : StateM Machine (List String)).run m).1

theorem found_verbatim (more : rest ≠ []) (meets : Meets m base name) :
    found m (depth + 1) (verbatim name.toList :: rest) base =
      found m depth rest (below base name) := by
  have on : (onward (follow depth) rest (below base name) : StateM Machine (List String)) =
      follow depth rest (below base name) := by
    rw [onward, List.isEmpty_eq_false_iff.mpr more]
    rfl
  rw [found, follow, literal?_verbatim]
  simp only [String.ofList_toList, on, Bool.or_eq_true, decide_eq_true_eq]
  unfold Meets at meets
  split at meets
  · rename_i special
    rw [if_pos special, run_bind, still_isFolder, run_isFolder.mpr meets]
    rfl
  · rename_i special
    rw [if_neg special, run_bind, still_isThere, run_isThere.mpr meets]
    rfl

/-- A path goes on from a folder along some pieces. An empty piece right behind points for the
starting folder would lead nowhere. -/
theorem found_steps {ps : List String} (opens : m.Open base here)
    (whole : ∀ s ∈ ps, '/' ∉ s.toList) (zero : ∀ s ∈ ps, '\x00' ∉ s.toList)
    (direct : base = "." → (ps.dropWhile (· = ".")).head? ≠ some "")
    (walked : m.tree.walk here ps = .ok place) (inside : m.tree.hasFolder place = true) :
    found m (depth + ps.length) (ps.map (fun s => verbatim s.toList) ++ [part]) base =
        found m depth [part] (ps.foldl below base) ∧
      m.Open (ps.foldl below base) place := by
  induction ps generalizing base here with
  | nil =>
    rw [walk] at walked
    cases walked
    exact ⟨rfl, opens⟩
  | cons s ps ih =>
    -- each piece but the last leads to a folder, since the walk goes on from there
    obtain ⟨next, step, later⟩ := (walk_append here [s] ps).mp walked
    have next' : m.tree.hasFolder next = true := by
      cases ps with
      | nil =>
        rw [walk] at later
        cases later
        exact inside
      | cons s' ps => exact ((walk_cons m.tree next s' ps place).mp later).1
    have named : base = "." → s ≠ "" := by
      rintro start rfl
      exact direct start (by simp)
    have whole' := whole s List.mem_cons_self
    obtain ⟨meets, opens'⟩ := open_below opens whole' (zero s List.mem_cons_self) named step next'
    have direct' : below base s = "." → (ps.dropWhile (· = ".")).head? ≠ some "" := by
      intro start
      have start' : base = "." := by
        by_contra other
        exact below_ne_here opens.some other whole' start
      subst start'
      rw [below, if_pos rfl] at start
      simpa [start] using direct rfl
    obtain ⟨same, last⟩ := ih opens' (fun t known => whole t (List.mem_cons_of_mem s known))
      (fun t known => zero t (List.mem_cons_of_mem s known)) direct' later
    refine ⟨?_, last⟩
    rw [List.length_cons, List.map_cons, List.cons_append, ← Nat.add_assoc,
      found_verbatim (by simp) meets]
    exact same

/-- What a pattern of names finds in a folder: names, each once, and perhaps folders that are no
names in it. -/
structure Lists (m : Machine) (part : Pattern) (base : String) (names rest : List String) :
    Prop where
  once : names.Nodup
  sound : ∀ name ∈ names, Plain name ∧ accepts part name.toList = true
  complete : ∀ name, Plain name → accepts part name.toList = true → m.Holds (below base name) →
    name ∈ names
  folders : ∀ x ∈ rest, ∃ place, m.Open x place

theorem nodup_namesIn (once : (m.tree.entries.map Prod.fst).Nodup) (folder : String) :
    (m.namesIn folder).Nodup := by
  have ran : ((Host.names folder : StateM Machine (Except DiskError (List String))).run m).1 =
      m.tree.names m.home folder := rfl
  rw [namesIn, ran, FileTree.names]
  rcases m.tree.find m.home folder with e | ⟨place, entry⟩
  · exact List.nodup_nil
  · cases entry with
    | file id content time => exact List.nodup_nil
    | folder time =>
      have keys : m.tree.entries.filterMap (fun entry =>
          if entry.1.dropLast = place then entry.1.getLast? else none) =
          (m.tree.entries.map Prod.fst).filterMap fun key =>
            if key.dropLast = place then key.getLast? else none := by
        rw [List.filterMap_map]
        rfl
      show (m.tree.entries.filterMap _).Nodup
      rw [keys]
      refine once.filterMap fun key key' name known known' => ?_
      obtain ⟨above, last⟩ := Option.ite_none_right_eq_some.mp known
      obtain ⟨above', last'⟩ := Option.ite_none_right_eq_some.mp known'
      rw [← List.dropLast_append_getLast? name last, above, ← above',
        List.dropLast_append_getLast? name last']

theorem lists_verbatim (m : Machine) (base : String) (depth : Nat) (plain : Plain name) :
    ∃ names, found m (depth + 1) [verbatim name.toList] base = names.map (below base) ∧
      Lists m (verbatim name.toList) base names [] := by
  have meets : Meets m base name ↔ m.Holds (below base name) := by
    simp [Meets, plain.here, plain.up]
  have whole : found m (depth + 1) [verbatim name.toList] base =
      if ((Host.isThere (below base name) : StateM Machine Bool).run m).1 = true then
        [below base name] else [] := by
    rw [found, follow, literal?_verbatim]
    simp only [String.ofList_toList, plain.here, plain.up, decide_false, Bool.or_self,
      Bool.false_eq_true, if_false]
    rw [run_bind, still_isThere]
    split <;> rfl
  have only (other : String) :
      accepts (verbatim name.toList) other.toList = true ↔ other = name := by
    rw [accepts_verbatim, String.toList_inj]
  rw [whole]
  split
  · refine ⟨[name], rfl, List.nodup_singleton name, ?_, ?_, by simp⟩
    · simpa using ⟨plain, (only name).mpr rfl⟩
    · exact fun other _ accepted _ => List.mem_singleton.mpr ((only other).mp accepted)
  · rename_i absent
    refine ⟨[], rfl, List.nodup_nil, by simp, ?_, by simp⟩
    intro other _ accepted holds
    rw [(only other).mp accepted] at holds
    exact absurd (run_isThere.mpr holds) absent

theorem open_special {s : String} (formed : m.tree.Formed) (opens : m.Open base here)
    (special : s = "." ∨ s = "..") : ∃ place, m.Open (join base s) place := by
  have step (place : Location) (walked : m.tree.walk here [s] = .ok place)
      (folder : m.tree.hasFolder place = true) : ∃ place, m.Open (join base s) place := by
    refine ⟨place, (locate_join_open opens ?_).mpr ⟨?_, walked⟩, folder⟩
    · rcases special with rfl | rfl <;> decide
    · rcases special with rfl | rfl <;> decide
  rcases special with rfl | rfl
  · refine step here ((walk_cons m.tree here "." [] here).mpr ⟨opens.2, ?_⟩) opens.2
    rw [if_pos (.inr rfl), walk]
  · refine step here.dropLast ((walk_cons m.tree here ".." [] _).mpr ⟨opens.2, ?_⟩)
      (formed.up opens.2)
    rw [if_neg (by decide), if_pos rfl, walk]

theorem flatten_accepted {names : List String} (each : String → List String) (p : String → Bool)
    (f : String → String)
    (known : ∀ name ∈ names, each name = if p name = true then [f name] else []) :
    (names.map each).flatten = (names.filter p).map f := by
  induction names with
  | nil => rfl
  | cons name names ih =>
    rw [List.map_cons, List.flatten_cons, known name List.mem_cons_self,
      ih fun other among => known other (List.mem_cons_of_mem name among), List.filter_cons]
    split <;> rfl

theorem lists_wild (wild : literal? part = none) (shallow : part ≠ [.deep])
    (formed : m.tree.Formed) (once : (m.tree.entries.map Prod.fst).Nodup)
    (opens : m.Open base here) :
    ∃ names rest, found m (depth + 1) [part] base = names.map (below base) ++ rest ∧
      Lists m part base names rest := by
  have entry (name : String) (plain : Plain name) :
      ((atEntry (follow depth) [part] (below base name) : StateM Machine (List String)).run m).1 =
        if accepts part name.toList = true then [below base name] else [] := by
    have named : (atEntry (follow depth) [part] (below base name) : StateM Machine (List String)) =
        atName (follow depth) [part] (below base name) := by
      unfold atEntry
      split
      · rename_i same
        exact absurd (List.cons.inj same).1 shallow
      · rfl
    rw [named]
    unfold atName
    rw [fileName?_below opens.some plain]
    dsimp only
    split <;> rfl
  refine ⟨(m.namesIn base).filter fun name => accepts part name.toList,
    ([".", ".."].filter fun s => part.head? = some (.char '.') && accepts part s.toList).map
      (join base), ?_, (nodup_namesIn once base).filter _, ?_, ?_, ?_⟩
  · rw [← flatten_accepted _ _ _ fun name known => entry name (plain_of_mem_namesIn formed known)]
    rw [found, follow, wild]
    dsimp only
    rw [run_bind, still_isFolder, run_isFolder.mpr ⟨here, opens⟩, if_pos rfl, run_bind,
      still_names base m, run_bind,
      run_mapM_still fun name => still_atEntry (still_follow depth) _ _, run_bind,
      run_mapM_still fun name => still_onward (still_follow depth) [] _]
    have alone (special : List String) : (special.map fun s =>
        ((onward (follow depth) [] (join base s) : StateM Machine (List String)).run m).1).flatten =
        special.map (join base) := by
      induction special with
      | nil => rfl
      | cons s special ih => rw [List.map_cons, List.flatten_cons, ih]; rfl
    exact congrArg (_ ++ ·) (alone _)
  · intro name known
    obtain ⟨listed, accepted⟩ := List.mem_filter.mp known
    exact ⟨plain_of_mem_namesIn formed listed, accepted⟩
  · rintro name plain accepted ⟨place, located, entry⟩
    obtain ⟨-, step⟩ := (locate_below_open opens plain.whole fun _ => plain.some).mp located
    have last := walk_eq_foldl _ step
    simp only [List.foldl_cons, List.foldl_nil, advance_plain plain] at last
    exact List.mem_filter.mpr ⟨mem_namesIn.mpr ⟨here, opens, last ▸ entry⟩, accepted⟩
  · intro x known
    obtain ⟨s, special, rfl⟩ := List.mem_map.mp known
    refine open_special formed opens ?_
    simpa using (List.mem_filter.mp special).1

/-- The path under which a folder's files are found, without what leads nowhere further. -/
def spelled (folder : String) : String :=
  (steps folder).foldl below (if isAbsolute folder then "/" else ".")

/-- A path that does not begin with points for the starting folder and an empty piece behind them,
as `.//a` does. -/
def Direct (folder : String) : Prop :=
  isAbsolute folder = true ∨ ((steps folder).dropWhile (· = ".")).head? ≠ some ""

theorem walk_steps (walked : m.tree.walk here (way folder) = .ok place) :
    m.tree.walk here (steps folder) = .ok place := by
  unfold steps
  generalize way folder = ps at walked
  induction ps with
  | nil => exact walked
  | cons p ps ih =>
    rw [List.dropWhile_cons]
    split
    · rename_i empty
      have stays := ((walk_cons m.tree here p ps place).mp walked).2
      rw [if_pos (.inl (of_decide_eq_true empty))] at stays
      exact ih stays
    · exact walked

theorem open_start (opens : m.Open folder place) :
    m.Open (if isAbsolute folder then "/" else ".") (if isAbsolute folder then [] else m.home) := by
  obtain ⟨-, -, walked⟩ := (locate_iff folder).mp opens.1
  obtain ⟨piece, rest, pieces⟩ := List.exists_cons_of_ne_nil (pieces_ne_nil folder)
  rw [pieces] at walked
  have start := ((walk_cons m.tree _ piece rest place).mp walked).1
  split_ifs at start ⊢
  · have pieces : Path.pieces "/" = ["", ""] := by decide
    have root : m.tree.walk [] [""] = .ok [] :=
      (walk_cons m.tree [] "" [] []).mpr ⟨start, by rw [if_pos (.inl rfl), walk]⟩
    refine ⟨(locate_iff "/").mpr ⟨by decide, by decide, ?_⟩, start⟩
    rw [pieces, if_pos (by decide)]
    exact (walk_append [] [""] [""]).mpr ⟨[], root, root⟩
  · exact ⟨locate_here start, start⟩

theorem open_spelled (opens : m.Open folder place) (direct : Direct folder) (depth : Nat)
    (part : Pattern) :
    found m (depth + (steps folder).length)
        ((steps folder).map (fun s => verbatim s.toList) ++ [part])
        (if isAbsolute folder then "/" else ".") = found m depth [part] (spelled folder) ∧
      m.Open (spelled folder) place := by
  obtain ⟨-, zero, walked⟩ := (locate_iff folder).mp opens.1
  refine found_steps (open_start opens) (fun s known => whole_of_mem_pieces (mem_steps known))
    (fun s known inside => zero (mem_of_mem_pieces (mem_steps known) inside)) ?_
    (walk_steps (walk_way walked)) opens.2
  intro start
  rcases direct with absolute | direct
  · rw [if_pos absolute] at start
    exact absurd start (by decide)
  · exact direct

end Glob

namespace Intake
open Machine FileTree Docket.Path Glob

variable {α : Type} {m : Machine} {folder pattern base name : String} {place : Location}
  {part : Pattern} {templates : List (Template α)}

theorem documentOf_below (some : base ≠ "") (plain : Plain name) {entry : Option FileEntry}
    {d : IntakeDocument} : documentOf templates (below base name) entry = .some d ↔
      ∃ t id content written, entry = .some (.file id content written) ∧
        templateFor name templates = .some t ∧
        d = ⟨below base name, t.id, (Period.ofFileName? name).getD (Period.ofTime written)⟩ := by
  rcases entry with _ | ⟨id, content, written⟩ | written
  · simp [documentOf]
  · simp [documentOf, fileName?_below some plain, eq_comm]
  · simp [documentOf]

/-- What a pattern of names finds in a folder, in order. -/
theorem found_lists (formed : m.tree.Formed) (once : (m.tree.entries.map Prod.fst).Nodup)
    (plain : Plain pattern) (read : Glob.read pattern = .ok part) (shallow : part ≠ [.deep])
    (opens : m.Open base place) (depth : Nat) :
    ∃ names rest, found m (depth + 1) [part] base = names.map (below base) ++ rest ∧
      Lists m part base names rest := by
  cases text : literal? part with
  | none => exact lists_wild text shallow formed once opens
  | some cs =>
    obtain rfl := eq_verbatim text
    obtain rfl := verbatim_of_readFrom read
    obtain ⟨names, listed, lists⟩ := lists_verbatim m base depth plain
    exact ⟨names, [], by rw [listed, List.append_nil], lists⟩

/-- The documents at paths, in the order of the paths. -/
def documentsAt (m : Machine) (templates : List (Template α)) (paths : List String) :
    List IntakeDocument :=
  paths.filterMap fun path => documentOf templates path (m.tree.standing m.home path)

theorem run_discover_parts (m : Machine) (templates : List (Template α)) {start : String}
    {parts : List Pattern}
    (read : PathPattern.read (join folder pattern) = .ok ⟨start, parts, false⟩) :
    ((discover folder pattern templates :
      StateM Machine (Except PatternError (List IntakeDocument))).run m) =
      (.ok ((documentsAt m templates (found m (deepest + parts.length) parts start)).mergeSort
        fun a b => Path.le a.path b.path), m) := by
  have paths : ((find ⟨start, parts, false⟩ : StateM Machine (List String)).run m).1 =
      found m (deepest + parts.length) parts start := rfl
  refine Prod.ext ?_ (still_discover folder pattern templates m)
  rw [run_discover read, visit, run_bind, still_find, run_mapM_still (still_document templates),
    paths, documentsAt, List.filterMap_map]
  simp only [Function.comp_def, run_document, id_eq]

theorem documentsAt_sublist (m : Machine) (templates : List (Template α)) (paths : List String) :
    ((documentsAt m templates paths).map IntakeDocument.path).Sublist paths := by
  induction paths with
  | nil => exact .refl []
  | cons path paths ih =>
    rw [documentsAt, List.filterMap_cons]
    split
    · exact ih.cons path
    · rename_i d told
      rw [List.map_cons, (documentOf_eq_some told).1]
      exact ih.cons_cons path

theorem documentsAt_folders (templates : List (Template α)) {rest : List String}
    (folders : ∀ x ∈ rest, ∃ place, m.Open x place) : documentsAt m templates rest = [] := by
  rw [documentsAt, List.filterMap_eq_nil_iff]
  intro x known
  obtain ⟨place, located, folder⟩ := folders x known
  rw [standing_of_locate located]
  cases entry : m.tree.entry? place with
  | none => rfl
  | some e =>
    cases e with
    | file id content written => simp [hasFolder, entry, FileEntry.kind] at folder
    | folder written => rfl

theorem nodup_paths {names : List String} (some : base ≠ "") (once : names.Nodup)
    (plain : ∀ name ∈ names, Plain name) : (names.map (below base)).Nodup := by
  refine once.map_on fun name known name' known' same => ?_
  have named := fileName?_below some (plain name known)
  rw [same, fileName?_below some (plain name' known')] at named
  exact (Option.some.inj named).symm

theorem pairwise_sorted (documents : List IntakeDocument) :
    (documents.mergeSort fun a b => Path.le a.path b.path).Pairwise
      fun a b => Path.le a.path b.path = true :=
  have trans (a b c : IntakeDocument) := Path.le_trans a.path b.path c.path
  have total (a b : IntakeDocument) := Path.le_total a.path b.path
  List.pairwise_mergeSort trans total documents

/-- What a scan of a folder finds are the documents under the names that the folder lists. -/
theorem run_discover_folder (formed : m.tree.Formed)
    (once : (m.tree.entries.map Prod.fst).Nodup) (opens : m.Open folder place)
    (ordinary : ∀ c ∈ folder.toList, Ordinary c) (direct : Direct folder) (plain : Plain pattern)
    (read : Glob.read pattern = .ok part) (shallow : part ≠ [.deep])
    (templates : List (Template α)) :
    ∃ names rest, Lists m part (spelled folder) names rest ∧
      (discover folder pattern templates :
        StateM Machine (Except PatternError (List IntakeDocument))).run m =
        (.ok ((documentsAt m templates (names.map (below (spelled folder)))).mergeSort
          fun a b => Path.le a.path b.path), m) := by
  -- the pieces of the folder take a level each, and the names in it take the level that is left
  obtain ⟨same, opens'⟩ := open_spelled opens direct (deepest + 1) part
  obtain ⟨names, rest, listed, lists⟩ :=
    found_lists formed once plain read shallow opens' deepest
  have length : deepest + ((steps folder).map (fun s => verbatim s.toList) ++ [part]).length =
      deepest + 1 + (steps folder).length := by
    rw [List.length_append, List.length_map, List.length_singleton]
    omega
  have documents : documentsAt m templates (names.map (below (spelled folder)) ++ rest) =
      documentsAt m templates (names.map (below (spelled folder))) := by
    rw [documentsAt, List.filterMap_append, ← documentsAt, ← documentsAt,
      documentsAt_folders templates lists.folders, List.append_nil]
  refine ⟨names, rest, lists, ?_⟩
  rw [run_discover_parts m templates (read_join opens.some ordinary plain read), length, same,
    listed, documents]

/-- A scan of a folder whose path has no wildcards. The documents are the files in it whose names
the pattern accepts and a template takes, with the period of the name or else the month in which
the file was written. Each comes once, and they are sorted by their paths. -/
theorem discover_folder (formed : m.tree.Formed) (once : (m.tree.entries.map Prod.fst).Nodup)
    (opens : m.Open folder place) (ordinary : ∀ c ∈ folder.toList, Ordinary c)
    (direct : Direct folder) (plain : Plain pattern) (read : Glob.read pattern = .ok part)
    (shallow : part ≠ [.deep]) (templates : List (Template α)) :
    ∃ documents, (discover folder pattern templates :
        StateM Machine (Except PatternError (List IntakeDocument))).run m = (.ok documents, m) ∧
      m.Open (spelled folder) place ∧
      (∀ d, d ∈ documents ↔ ∃ name t id content written, Plain name ∧
        accepts part name.toList = true ∧ templateFor name templates = some t ∧
        m.tree.standing m.home (join folder name) = some (.file id content written) ∧
        d = ⟨below (spelled folder) name, t.id,
          (Period.ofFileName? name).getD (Period.ofTime written)⟩) ∧
      (documents.map IntakeDocument.path).Nodup ∧
      documents.Pairwise fun a b => Path.le a.path b.path = true := by
  obtain ⟨-, opens'⟩ := open_spelled opens direct 0 part
  obtain ⟨names, rest, lists, ran⟩ :=
    run_discover_folder formed once opens ordinary direct plain read shallow templates
  refine ⟨_, ran, opens', fun d => ?_, ?_, ?_⟩
  · rw [List.mem_mergeSort, documentsAt, List.filterMap_map, List.mem_filterMap]
    simp only [Function.comp_apply]
    constructor
    · rintro ⟨name, known, told⟩
      obtain ⟨plain, accepted⟩ := lists.sound name known
      obtain ⟨t, id, content, written, entry, routed, made⟩ :=
        (documentOf_below opens'.some plain).mp told
      rw [standing_below opens' opens plain] at entry
      exact ⟨name, t, id, content, written, plain, accepted, routed, entry, made⟩
    · rintro ⟨name, t, id, content, written, plain, accepted, routed, entry, made⟩
      rw [← standing_below opens' opens plain] at entry
      obtain ⟨at', located, there⟩ := (standing_eq_some _ _ _ _).mp entry
      refine ⟨name, lists.complete name plain accepted ⟨at', located, by simp [there]⟩, ?_⟩
      exact (documentOf_below opens'.some plain).mpr
        ⟨t, id, content, written, entry, routed, made⟩
  · have paths := nodup_paths opens'.some lists.once fun name known => (lists.sound name known).1
    exact ((List.mergeSort_perm _ _).map _).nodup_iff.mpr
      (paths.sublist (documentsAt_sublist m templates _))
  · exact pairwise_sorted _

/-- A machine with one document in a folder. -/
def keeping (folder : String) : Machine where
  tree := ⟨[([folder], .folder 0), ([folder, "B_2024-03.pdf"], .file 0 (.text "") 0)], 1⟩
  home := []
  clock := 1000
  processId := 0
  drawn := 0

theorem discover_folder_kept :
    ∃ documents, (discover "intake" "*.pdf" Batch.twins.templates :
        StateM Machine (Except PatternError (List IntakeDocument))).run (keeping "intake") =
        (.ok documents, keeping "intake") ∧
      ⟨"intake/B_2024-03.pdf", "notes", ⟨2024, 3⟩⟩ ∈ documents := by
  have formed : (keeping "intake").tree.Formed := formed_of_entries (by decide)
  have once : ((keeping "intake").tree.entries.map Prod.fst).Nodup := by decide
  have opens : (keeping "intake").Open "intake" ["intake"] := ⟨rfl, by decide⟩
  have ordinary : ∀ c ∈ "intake".toList, Ordinary c := by simp [Ordinary]
  have direct : Direct "intake" := .inr (by decide)
  have plain : Plain "*.pdf" := by decide
  have read : Glob.read "*.pdf" = .ok [.star, .char '.', .char 'p', .char 'd', .char 'f'] := by
    decide +kernel
  obtain ⟨documents, ran, -, listed, -⟩ := discover_folder formed once opens ordinary direct plain
    read (by decide) Batch.twins.templates
  refine ⟨documents, ran, (listed _).mpr ?_⟩
  exact ⟨"B_2024-03.pdf", Batch.lineOf "notes" "B_" "Sender", 0, .text "", 0, by decide,
    by decide +kernel, rfl, rfl, by decide⟩

/-- The same document in a folder whose name has brackets is not found: they are read as a set. -/
theorem bracketed_folder_missed :
    (keeping "in[1]").Open "in[1]" ["in[1]"] ∧
      (keeping "in[1]").tree.standing [] "in[1]/B_2024-03.pdf" = some (.file 0 (.text "") 0) ∧
      ((discover "in[1]" "*.pdf" Batch.twins.templates :
        StateM Machine (Except PatternError (List IntakeDocument))).run (keeping "in[1]")).1 =
        .ok [] := by
  refine ⟨⟨rfl, by decide⟩, rfl, ?_⟩
  exact discover_of_visited (by decide +kernel) .nil

end Intake
end Docket
