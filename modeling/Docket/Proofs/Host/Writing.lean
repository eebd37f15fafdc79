import Docket.Proofs.Host.FileTree

/-! Reading and writing files. Folders are made where nothing stands, so making them hides no path
and touches no file; writing a file changes the tree at one place, which the pieces of its path name
whatever else stands in the tree. -/
namespace Docket
namespace FileTree

/-- Where a piece of a path leads from a folder. -/
def advance (here : Location) (piece : String) : Location :=
  if piece = "" ∨ piece = "." then here
  else if piece = ".." then here.dropLast
  else here ++ [piece]

/-- The place that a path names, whether or not it can be reached. -/
def placeOf (home : Location) (path : String) : Location :=
  (Path.pieces path).foldl advance (if Path.isAbsolute path then [] else home)

/-- A path of plain names leads to the place of these names below the folder it starts from. -/
theorem placeOf_names (path : String) (below : Path.isAbsolute path = false)
    (plain : ∀ piece ∈ Path.pieces path, piece ≠ "" ∧ piece ≠ "." ∧ piece ≠ "..")
    (home : Location) : placeOf home path = home ++ Path.pieces path := by
  rw [placeOf, below, if_neg (by simp)]
  generalize Path.pieces path = pieces at plain
  induction pieces generalizing home with
  | nil => simp
  | cons piece rest ih =>
    obtain ⟨some, here, up⟩ := plain piece List.mem_cons_self
    rw [List.foldl_cons, advance, if_neg (by simp [some, here]), if_neg up,
      ih _ fun other among => plain other (List.mem_cons_of_mem piece among)]
    simp

theorem walk_eq_foldl (t : FileTree) {here : Location} {pieces : List String} {place : Location}
    (walked : t.walk here pieces = .ok place) : place = pieces.foldl advance here := by
  induction pieces generalizing here with
  | nil =>
    rw [walk] at walked
    exact (Except.ok.inj walked).symm
  | cons piece rest ih =>
    rw [List.foldl_cons, advance]
    have step := ((walk_cons t here piece rest place).mp walked).2
    split at step
    · rename_i stays
      rw [if_pos stays]
      exact ih step
    · rename_i stays
      rw [if_neg stays]
      split at step
      · rename_i up
        rw [if_pos up]
        exact ih step
      · rename_i up
        rw [if_neg up]
        split at step
        · cases step
        · exact ih step

theorem locate_eq_placeOf {t : FileTree} {home : Location} {path : String} {place : Location}
    (located : t.locate home path = .ok place) : place = placeOf home path := by
  unfold locate at located
  split at located
  · cases located
  · split at located
    · cases located
    · exact walk_eq_foldl t located

/-- More folders hide no path. -/
theorem walk_of_more {t t' : FileTree}
    (more : ∀ place, t.hasFolder place = true → t'.hasFolder place = true)
    {here : Location} {pieces : List String} {place : Location}
    (walked : t.walk here pieces = .ok place) : t'.walk here pieces = .ok place := by
  induction pieces generalizing here with
  | nil => rwa [walk] at walked ⊢
  | cons piece rest ih =>
    rw [walk_cons] at walked ⊢
    obtain ⟨folder, step⟩ := walked
    refine ⟨more here folder, ?_⟩
    split at step
    · exact (if_pos ‹_›).trans (ih step)
    · rw [if_neg ‹_›]
      split at step
      · exact (if_pos ‹_›).trans (ih step)
      · rw [if_neg ‹_›]
        split at step
        · cases step
        · exact (if_neg ‹_›).trans (ih step)

theorem locate_of_more {t t' : FileTree}
    (more : ∀ place, t.hasFolder place = true → t'.hasFolder place = true)
    {home : Location} {path : String} {place : Location}
    (located : t.locate home path = .ok place) : t'.locate home path = .ok place := by
  unfold locate at located ⊢
  split
  · rename_i empty
    rw [if_pos empty] at located
    cases located
  · rename_i empty
    rw [if_neg empty] at located
    split
    · rename_i zero
      rw [if_pos zero] at located
      cases located
    · rename_i zero
      rw [if_neg zero] at located
      exact walk_of_more more located

/-- The content of the file at a place and when it was written. -/
def fileAt (t : FileTree) (place : Location) : Option (Content × Time) :=
  match t.entry? place with
  | some (.file _ content modified) => some (content, modified)
  | _ => none

theorem fileAt_congr {t t' : FileTree} {place : Location}
    (same : t'.entry? place = t.entry? place) : t'.fileAt place = t.fileAt place := by
  rw [fileAt, fileAt, same]

/-- The file a path leads to, read at the place its pieces name. -/
theorem file_eq_ok_iff (t : FileTree) (home : Location) (path : String) (content : Content) :
    (∃ place id, t.file home path = .ok (place, id, content)) ↔
      (∃ place, t.locate home path = .ok place) ∧
        ∃ time, t.fileAt (placeOf home path) = some (content, time) := by
  constructor
  · rintro ⟨place, id, opened⟩
    obtain ⟨time, found⟩ := (file_eq_ok t home path place id content).mp opened
    obtain ⟨located, known⟩ := (find_eq_ok t home path place _).mp found
    refine ⟨⟨place, located⟩, time, ?_⟩
    rw [← locate_eq_placeOf located, fileAt, known]
  · rintro ⟨⟨place, located⟩, time, there⟩
    rw [← locate_eq_placeOf located, fileAt] at there
    split at there
    · rename_i id content' time' known
      cases there
      exact ⟨place, id, (file_eq_ok t home path place id content).mpr
        ⟨time, (find_eq_ok t home path place _).mpr ⟨located, known⟩⟩⟩
    · cases there

/-- A tree in which no folder is gone and the files are the same at some places. -/
structure Keeps (at' : Location → Prop) (t t' : FileTree) : Prop where
  folders : ∀ place, t.hasFolder place = true → t'.hasFolder place = true
  files : ∀ place, at' place → t'.fileAt place = t.fileAt place

theorem keeps_makeFolder {t t' : FileTree} {home : Location} {path : String} {time : Time}
    (made : t.makeFolder home path time = .ok t') (at' : Location → Prop) : Keeps at' t t' := by
  unfold makeFolder at made
  cases located : t.locate home (withoutEnd path) with
  | error e => simp [located, bind, Except.bind] at made
  | ok place =>
    cases free : t.entry? place with
    | some e => simp [located, free, bind, Except.bind] at made
    | none =>
      simp only [located, free, bind, Except.bind, Except.ok.injEq] at made
      subst made
      have entry (other : Location) (root : other ≠ []) :=
        entry?_set t place other (.folder time) root
      constructor
      · intro other folder
        by_cases root : other = []
        · subst root
          rfl
        · rw [hasFolder, entry other root]
          split
          · rfl
          · exact folder
      · intro other _
        by_cases root : other = []
        · subst root
          rfl
        · by_cases same : other = place
          · rw [fileAt, fileAt, entry other root, if_pos same, same, free]
          · rw [fileAt, fileAt, entry other root, if_neg same]

theorem keeps_set {t : FileTree} {place : Location} (file : t.hasFolder place = false) (id : Nat)
    (content : Content) (time : Time) :
    Keeps (· ≠ place) t (t.set place (.file id content time)) := by
  constructor
  · intro other folder
    exact (hasFolder_set file id content time other).trans folder
  · intro other elsewhere
    apply fileAt_congr
    by_cases root : other = []
    · subst root
      rfl
    · rw [entry?_set t place other _ root, if_neg elsewhere]

/-- A written file stands where its path leads, and nothing else has changed. -/
theorem write_ok {t t' : FileTree} {home : Location} {path : String} {content : Content}
    {time : Time} (written : t.write home path content time = .ok t') :
    t'.locate home path = .ok (placeOf home path) ∧
      t'.fileAt (placeOf home path) = some (content, time) ∧
      Keeps (· ≠ placeOf home path) t t' := by
  unfold write target at written
  cases located : t.locate home (withoutEnd path) with
  | error e => simp [located, bind, Except.bind] at written
  | ok place =>
    cases ends : Text.endsWith path "/" with
    | true => simp [located, ends, bind, Except.bind] at written
    | false =>
      simp only [located, ends, bind, Except.bind, Bool.false_eq_true, if_false] at written
      rw [withoutEnd_eq ends] at located
      cases locate_eq_placeOf located
      -- a new file and a replaced one differ in the identity alone
      have changed : ∃ id, t.hasFolder (placeOf home path) = false ∧
          t'.entries = (t.set (placeOf home path) (.file id content time)).entries := by
        split at written
        · rename_i free
          cases written
          exact ⟨t.nextId, by rw [hasFolder, free]; rfl, rfl⟩
        · rename_i id old time' known
          cases written
          exact ⟨id, by rw [hasFolder, known]; rfl, rfl⟩
        · cases written
      obtain ⟨id, file, entries⟩ := changed
      have entry (other : Location) : t'.entry? other =
          entry? (t.set (placeOf home path) (.file id content time)) other := by
        rw [ entry?, entry?, entries]
      have kept := keeps_set file id content time
      have below : placeOf home path ≠ [] := by
        intro root
        rw [root] at file
        cases file
      have folders (other : Location) : t'.hasFolder other = t.hasFolder other := by
        rw [hasFolder, entry]
        exact hasFolder_set file id content time other
      have here : t'.entry? (placeOf home path) = some (.file id content time) := by
        rw [entry, entry?_set t _ _ _ below, if_pos rfl]
      refine ⟨(locate_eq_ok folders home path _).mpr located, by rw [fileAt, here], ?_⟩
      exact ⟨fun other folder => (folders other).trans folder,
        fun other elsewhere => (fileAt_congr (entry other)).trans (kept.files other elsewhere)⟩

theorem split_ne_nil (sep : Char) (cs : List Char) : Text.split sep cs ≠ [] := by
  cases cs with
  | nil => simp [Text.split]
  | cons c rest =>
    rw [Text.split]
    split
    · simp
    · cases Text.split sep rest <;> simp

theorem split_snoc (sep : Char) (cs : List Char) :
    Text.split sep (cs ++ [sep]) = Text.split sep cs ++ [[]] := by
  induction cs with
  | nil => simp [Text.split]
  | cons c rest ih =>
    rw [List.cons_append, Text.split, Text.split, ih]
    split
    · rfl
    · have some := split_ne_nil sep rest
      cases pieces : Text.split sep rest with
      | nil => exact absurd pieces some
      | cons p ps => rfl

theorem hasFolder_of_walk {t : FileTree} {here : Location} {pieces : List String}
    {place : Location} (walked : t.walk here (pieces ++ [""]) = .ok place) :
    t.hasFolder place = true := by
  induction pieces generalizing here with
  | nil =>
    obtain ⟨folder, step⟩ := (walk_cons t here "" [] place).mp walked
    rw [if_pos (.inl rfl), walk] at step
    cases step
    exact folder
  | cons piece rest ih =>
    have step := ((walk_cons t here piece (rest ++ [""]) place).mp walked).2
    split at step
    · exact ih step
    · split at step
      · exact ih step
      · split at step
        · cases step
        · exact ih step

/-- A path that ends with a slash leads to folders only. -/
theorem endsWith_of_fileAt {t : FileTree} {home : Location} {path : String} {place : Location}
    (located : t.locate home path = .ok place) {file : Content × Time}
    (there : t.fileAt place = some file) : Text.endsWith path "/" = false := by
  refine Bool.eq_false_iff.mpr fun ends => ?_
  have tail : ['/'] <:+ path.toList := by simpa [Text.endsWith] using ends
  obtain ⟨front, text⟩ := tail
  have pieces : Path.pieces path = (Text.split '/' front).map String.ofList ++ [""] := by
    rw [Path.pieces, ← text, split_snoc, List.map_append]
    rfl
  have folder : t.hasFolder place = true := by
    unfold locate at located
    split at located
    · cases located
    · split at located
      · cases located
      · rw [pieces] at located
        exact hasFolder_of_walk located
  rw [fileAt] at there
  split at there
  · rename_i known
    rw [hasFolder, known] at folder
    cases folder
  · cases there

/-- The content of a file that can be reached can be replaced. -/
theorem write_of_fileAt {t : FileTree} {home : Location} {path : String} {place : Location}
    (located : t.locate home path = .ok place) {file : Content × Time}
    (there : t.fileAt place = some file) (content : Content) (time : Time) :
    ∃ t', t.write home path content time = .ok t' := by
  have plain := endsWith_of_fileAt located there
  rw [fileAt] at there
  split at there
  · rename_i id old time' known
    refine ⟨t.set place (.file id content time), ?_⟩
    simp [write, target, withoutEnd_eq plain, located, plain, known, bind, Except.bind]
  · cases there

end FileTree

namespace Machine
open FileTree

/-- What is left as it was by a deed that spares the files at some places. -/
structure Keeps (at' : Location → Prop) (m m' : Machine) : Prop where
  home : m'.home = m.home
  clock : m'.clock = m.clock
  tree : m.tree.Keeps at' m'.tree

namespace Keeps

variable {at' : Location → Prop} {m m' m'' : Machine}

theorem rfl' (at' : Location → Prop) (m : Machine) : Keeps at' m m :=
  ⟨rfl, rfl, fun _ folder => folder, fun _ _ => rfl⟩

theorem trans (first : Keeps at' m m') (second : Keeps at' m' m'') : Keeps at' m m'' :=
  ⟨second.home.trans first.home, second.clock.trans first.clock,
    fun place folder => second.tree.folders place (first.tree.folders place folder),
    fun place spared => (second.tree.files place spared).trans (first.tree.files place spared)⟩

theorem mono {fewer : Location → Prop} (kept : Keeps at' m m')
    (among : ∀ place, fewer place → at' place) : Keeps fewer m m' :=
  ⟨kept.home, kept.clock, kept.tree.folders,
    fun place spared => kept.tree.files place (among place spared)⟩

end Keeps

theorem run_bind {β γ : Type} (p : StateM Machine β) (f : β → StateM Machine γ) (m : Machine) :
    (p >>= f).run m = (f (p.run m).1).run (p.run m).2 := rfl

theorem run_bind_of {β γ : Type} {p : StateM Machine β} {b : β} {m m' : Machine}
    (ran : p.run m = (b, m')) (f : β → StateM Machine γ) : (p >>= f).run m = (f b).run m' := by
  rw [StateT.run_bind, ran]
  rfl

/-- A program that leaves the files at some places as they are. -/
def Spares (at' : Location → Prop) {β : Type} (p : StateM Machine β) : Prop :=
  ∀ m, Keeps at' m (p.run m).2

theorem spares_pure (at' : Location → Prop) {β : Type} (b : β) :
    Spares at' (pure b : StateM Machine β) := Keeps.rfl' at'

theorem spares_bind {at' : Location → Prop} {β γ : Type} {p : StateM Machine β}
    {f : β → StateM Machine γ} (first : Spares at' p) (second : ∀ b, Spares at' (f b)) :
    Spares at' (p >>= f) := fun m => (first m).trans (second _ _)

theorem spares_makeFolder (at' : Location → Prop) (path : String) :
    Spares at' (Host.makeFolder path : StateM Machine (Except DiskError Unit)) := by
  intro m
  show Keeps at' m
    (change (fun m => (m.tree.makeFolder m.home path m.clock).map fun tree => ((), tree)) m).2
  simp only [change]
  cases made : m.tree.makeFolder m.home path m.clock with
  | error e => exact Keeps.rfl' at' m
  | ok tree => exact ⟨rfl, rfl, keeps_makeFolder made at'⟩

theorem spares_settleFolder (at' : Location → Prop) (path : String)
    (result : Except DiskError Unit) :
    Spares at' (Host.settleFolder path result : StateM Machine (Except DiskError Unit)) := by
  cases result with
  | ok done => exact spares_pure at' _
  | error e => exact fun m => Keeps.rfl' at' m

theorem spares_makeFoldersUp (at' : Location → Prop) (parts : List Path.Part) :
    Spares at' (Host.makeFoldersUp parts : StateM Machine (Except DiskError Unit)) := by
  induction parts with
  | nil => exact spares_pure at' _
  | cons part above ih =>
    rw [Host.makeFoldersUp]
    refine spares_bind (spares_makeFolder at' _) fun result => ?_
    split
    · refine spares_bind ih fun result => ?_
      split
      · exact spares_bind (spares_makeFolder at' _) (spares_settleFolder at' _)
      · exact spares_pure at' _
    · exact spares_settleFolder at' _ result

/-- Making the folders that lead to a file leaves all files as they are. -/
theorem spares_makeParents (at' : Location → Prop) (path : String) :
    Spares at' (Host.makeParents path : StateM Machine (Except DiskError Unit)) := by
  unfold Host.makeParents
  split
  · exact spares_makeFoldersUp at' _
  · exact spares_pure at' _

/-- A machine on which reading a path gives a content. -/
def Opens (m : Machine) (path : String) (content : Content) : Prop :=
  ∃ place id, m.tree.file m.home path = .ok (place, id, content)

theorem opens_iff (m : Machine) (path : String) (content : Content) :
    m.Opens path content ↔ (∃ place, m.tree.locate m.home path = .ok place) ∧
      ∃ time, m.tree.fileAt (placeOf m.home path) = some (content, time) :=
  file_eq_ok_iff m.tree m.home path content

theorem fileAt_of_opens {m : Machine} {path : String} {content : Content} {e : FileEntry}
    (opened : m.Opens path content) (there : m.tree.standing m.home path = some e) :
    m.tree.fileAt (placeOf m.home path) = some (content, e.modified) := by
  obtain ⟨place, id, file⟩ := opened
  obtain ⟨time, found⟩ := (file_eq_ok m.tree m.home path place id content).mp file
  obtain ⟨located, known⟩ := (find_eq_ok m.tree m.home path place _).mp found
  rw [standing_of_locate located, known] at there
  cases there
  rw [← locate_eq_placeOf located, fileAt, known]
  rfl

theorem run_readText (m : Machine) (path : String) :
    (Host.readText path : StateM Machine (Except DiskError String)).run m =
      ((m.tree.file m.home path).bind fun found => textOf found.2.2, m) := rfl

theorem run_readText_eq_ok (m : Machine) (path text : String) :
    ((Host.readText path : StateM Machine (Except DiskError String)).run m).1 = .ok text ↔
      m.Opens path (.text text) := by
  rw [run_readText, Opens]
  cases m.tree.file m.home path with
  | error e => simp [Except.bind]
  | ok answer =>
    obtain ⟨place, id, content⟩ := answer
    cases content <;> simp [Except.bind, textOf]

theorem run_writeText (m : Machine) (path text : String) :
    (Host.writeText path text : StateM Machine (Except DiskError Unit)).run m =
      match m.tree.write m.home path (.text text) m.clock with
      | .ok tree => ((.ok (), { m with tree }) : Except DiskError Unit × Machine)
      | .error e => (.error e, m) := by
  show change (fun m => (m.tree.write m.home path (.text text) m.clock).map
    fun tree => ((), tree)) m = _
  simp only [change]
  cases m.tree.write m.home path (.text text) m.clock <;> rfl

end Machine
end Docket
