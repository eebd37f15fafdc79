import Docket.Proofs.Glob.Passing

/-! How a pattern is read that is joined to a folder. A path without wildcards stands for itself,
piece by piece, and what is joined to it is read as it is alone. -/
namespace Docket.Glob
open Docket.Path

/-- A character that stands for itself only. -/
def Ordinary (c : Char) : Prop := c ≠ '?' ∧ c ≠ '*' ∧ c ≠ '['

/-- A text that is read as a part of its own characters. -/
def verbatim (cs : List Char) : Pattern := cs.map .char

theorem literal?_verbatim (cs : List Char) : literal? (verbatim cs) = some cs := by
  induction cs with
  | nil => rfl
  | cons c cs ih =>
    rw [verbatim, List.map_cons, literal?, ← verbatim, ih]
    rfl

theorem eq_verbatim {part : Pattern} {cs : List Char} (text : literal? part = some cs) :
    part = verbatim cs := by
  induction part generalizing cs with
  | nil =>
    cases text
    rfl
  | cons token rest ih =>
    cases token with
    | char c =>
      obtain ⟨ds, text', rfl⟩ := Option.map_eq_some_iff.mp text
      rw [ih text']
      rfl
    | _ => cases text

theorem accepts_verbatim {cs ds : List Char} : accepts (verbatim cs) ds = true ↔ ds = cs := by
  induction cs generalizing ds with
  | nil => simp [verbatim, accepts]
  | cons c cs ih =>
    cases ds with
    | nil => simp [verbatim, accepts]
    | cons d ds => simp [verbatim, accepts, Token.accepts, ← ih]

theorem readFrom_cons {c : Char} (ordinary : Ordinary c) (before : Option Char) (position : Nat)
    (rest : List Char) : readFrom before position (c :: rest) =
      (readFrom (some c) (position + 1) rest).map (.char c :: ·) := by
  obtain ⟨any, star, set⟩ := ordinary
  rw [readFrom]
  · exact fun same => any same
  · exact fun _ same => absurd same star
  · exact fun _ same => absurd same star
  · exact star
  · exact set

/-- A folder begins where nothing or a slash stands before. -/
def Begins (before : Option Char) : Prop := before = none ∨ before = some '/'

theorem map_eq_ok {token : Token} {read : Except PatternError Pattern} {part : Pattern} :
    read.map (token :: ·) = .ok part ↔ ∃ rest, read = .ok rest ∧ token :: rest = part := by
  cases read <;> simp [Except.map]

/-- Where a text stands counts only as far as a folder begins there. -/
theorem readFrom_elsewhere {before before' : Option Char} {position : Nat} {cs : List Char}
    {part : Pattern} (read : readFrom before position cs = .ok part)
    (alike : Begins before ↔ Begins before') (position' : Nat) :
    readFrom before' position' cs = .ok part := by
  have onward {token : Token} {x y : Except PatternError Pattern} {part : Pattern}
      (read : x.map (token :: ·) = .ok part) (same : ∀ {rest}, x = .ok rest → y = .ok rest) :
      y.map (token :: ·) = .ok part := by
    obtain ⟨rest, known, rfl⟩ := map_eq_ok.mp read
    rw [same known]
    rfl
  -- only two stars ask what stands before them; behind the first token nothing differs any more
  fun_induction readFrom before position cs generalizing before' position' part with
  | case1 =>
    cases read
    rw [readFrom]
  | case2 before position rest ih =>
    rw [readFrom]
    exact onward read fun read => ih read .rfl _
  | case3 | case6 | case7 | case10 => cases read
  | case4 before position begins =>
    have begins' : before' = none ∨ before' = some '/' := alike.mp begins
    rw [readFrom, if_pos begins']
    exact read
  | case5 before position begins rest _ ih =>
    have begins' : before' = none ∨ before' = some '/' := alike.mp begins
    rw [readFrom, if_pos begins']
    exact onward read fun read => ih read .rfl _
  | case8 before position rest _ _ ih =>
    rw [readFrom]
    · exact onward read fun read => ih read .rfl _
    · assumption
    · assumption
  | case9 before position rest token behind set _ ih =>
    rw [readFrom]
    split
    · rename_i set'
      cases set.symm.trans set'
      exact onward read fun read => ih read .rfl _
    · rename_i none
      rw [set] at none
      cases none
  | case11 before position c rest any _ _ star set ih =>
    rw [readFrom_cons ⟨fun same => any same, fun same => star same, fun same => set same⟩]
    exact onward read fun read => ih read .rfl _

/-- The text before a folder begins is read as it is, and what comes then as if it stood alone. -/
theorem readFrom_append {cs rest : List Char} {part : Pattern} (ordinary : ∀ c ∈ cs, Ordinary c)
    (read : readFrom none 0 rest = .ok part) (before : Option Char) (position : Nat)
    (begins : Begins (cs.getLast?.or before)) :
    readFrom before position (cs ++ rest) = .ok (verbatim cs ++ part) := by
  induction cs generalizing before position with
  | nil => exact readFrom_elsewhere read ⟨fun _ => begins, fun _ => .inl rfl⟩ position
  | cons c cs ih =>
    have last : (c :: cs).getLast?.or before = cs.getLast?.or (some c) := by
      cases cs with
      | nil => rfl
      | cons d ds => rw [List.getLast?_cons_cons, List.getLast?_cons]; rfl
    rw [List.cons_append, readFrom_cons (ordinary c List.mem_cons_self),
      ih (fun d known => ordinary d (List.mem_cons_of_mem c known)) (some c) (position + 1)
        (last ▸ begins)]
    rfl

theorem readFrom_verbatim {cs : List Char} (ordinary : ∀ c ∈ cs, Ordinary c) :
    ∀ before position, readFrom before position cs = .ok (verbatim cs) := by
  induction cs with
  | nil => exact fun _ _ => by rw [readFrom]; rfl
  | cons c cs ih =>
    intro before position
    rw [readFrom_cons (ordinary c List.mem_cons_self),
      ih fun d known => ordinary d (List.mem_cons_of_mem c known)]
    rfl

/-- A pattern that is read without wildcards is the text of its part. -/
theorem verbatim_of_readFrom {before : Option Char} {position : Nat} {cs ds : List Char}
    (read : readFrom before position cs = .ok (verbatim ds)) : ds = cs := by
  have wild {token : Token} {x : Except PatternError Pattern} {ds : List Char} (other : Wild token)
      (read : x.map (token :: ·) = .ok (verbatim ds)) : False := by
    obtain ⟨rest, -, same⟩ := map_eq_ok.mp read
    cases ds with
    | nil => cases same
    | cons d ds => exact other d (List.cons.inj same).1
  fun_induction readFrom before position cs generalizing ds with
  | case1 =>
    cases ds with
    | nil => rfl
    | cons d ds => cases read
  | case2 | case5 | case8 => exact (wild (by simp [Wild]) read).elim
  | case3 | case6 | case7 | case10 => cases read
  | case4 =>
    cases ds with
    | nil => cases read
    | cons d ds => cases read
  | case9 before position rest token behind set _ ih =>
    exact (wild (wild_of_set set).1 read).elim
  | case11 before position c rest _ _ _ _ _ ih =>
    obtain ⟨part, known, same⟩ := map_eq_ok.mp read
    cases ds with
    | nil => cases same
    | cons d ds =>
      obtain ⟨first, later⟩ := List.cons.inj same
      cases first
      rw [later] at known
      rw [ih known]

theorem split_dropWhile (cs : List Char) (some : cs.dropWhile (· == '/') ≠ []) :
    Text.split '/' (cs.dropWhile (· == '/')) = (Text.split '/' cs).dropWhile (· = []) := by
  induction cs with
  | nil => exact absurd rfl some
  | cons c cs ih =>
    by_cases slash : c = '/'
    · subst slash
      have more : ('/' :: cs).dropWhile (· == '/') = cs.dropWhile (· == '/') := by simp
      rw [more] at some ⊢
      rw [ih some, Text.split]
      simp
    · have whole : (c :: cs).dropWhile (· == '/') = c :: cs := by simp [slash]
      rw [whole, Text.split, if_neg slash]
      cases Text.split '/' cs <;> simp

theorem mem_of_mem_split {sep c : Char} {cs piece : List Char} (known : piece ∈ Text.split sep cs)
    (inside : c ∈ piece) : c ∈ cs := by
  induction cs generalizing piece with
  | nil =>
    rw [Text.split, List.mem_singleton] at known
    rwa [known] at inside
  | cons d cs ih =>
    rw [Text.split] at known
    split at known
    · rcases List.mem_cons.mp known with rfl | later
      · cases inside
      · exact List.mem_cons_of_mem d (ih later inside)
    · split at known
      · rename_i first rest pieces
        rw [pieces] at ih
        rcases List.mem_cons.mp known with rfl | later
        · rcases List.mem_cons.mp inside with rfl | inside
          · exact List.mem_cons_self
          · exact List.mem_cons_of_mem d (ih List.mem_cons_self inside)
        · exact List.mem_cons_of_mem d (ih (List.mem_cons_of_mem first later) inside)
      · rw [List.mem_singleton] at known
        rw [known, List.mem_singleton] at inside
        exact inside ▸ List.mem_cons_self

theorem mem_of_mem_pieces {path s : String} (known : s ∈ Path.pieces path) {c : Char}
    (inside : c ∈ s.toList) : c ∈ path.toList := by
  obtain ⟨cs, split, rfl⟩ := List.mem_map.mp known
  rw [String.toList_ofList] at inside
  exact mem_of_mem_split split inside

/-- The pieces of a path without the empty ones it begins with. -/
def steps (folder : String) : List String := (way folder).dropWhile (· = "")

theorem mem_steps {folder s : String} (known : s ∈ steps folder) : s ∈ Path.pieces folder := by
  have among : s ∈ way folder := (List.dropWhile_suffix _).subset known
  rcases pieces_eq_way folder with same | slash
  · rwa [same]
  · rw [slash]
    exact List.mem_append_left _ among

theorem text_join {folder name : String} (some : folder ≠ "") (whole : '/' ∉ name.toList) :
    ∃ front, (∀ c ∈ front, c ∈ folder.toList ∨ c = '/') ∧ front.getLast? = .some '/' ∧
      (join folder name).toList = front ++ name.toList := by
  rw [join_eq some whole]
  split
  · rename_i slash
    exact ⟨folder.toList, fun c known => .inl known, slash, by simp⟩
  · exact ⟨folder.toList ++ ['/'], fun c known => by simpa using known, by simp, by simp⟩

theorem dropWhile_join_ne_nil {folder pattern : String} (some : folder ≠ "")
    (plain : Plain pattern) :
    (join folder pattern).toList.dropWhile (· == '/') ≠ [] := by
  have named : pattern.toList ≠ [] := by simpa using plain.some
  obtain ⟨front, -, -, text⟩ := text_join some plain.whole
  obtain ⟨c, cs, chars⟩ := List.exists_cons_of_ne_nil named
  rw [ne_eq, List.dropWhile_eq_nil_iff]
  intro slashes
  have slash : c = '/' := by simpa using slashes c (by simp [text, chars])
  exact plain.whole (by simp [chars, slash])

theorem endsWith_join {folder pattern : String} (some : folder ≠ "") (plain : Plain pattern) :
    Text.endsWith (join folder pattern) "/" = false := by
  have named : pattern.toList ≠ [] := by simpa using plain.some
  obtain ⟨front, -, -, text⟩ := text_join some plain.whole
  rw [Text.endsWith, ← Bool.not_eq_true, List.isSuffixOf_iff_suffix]
  rintro ⟨before, same⟩
  have last := congrArg List.getLast? same
  rw [text, List.getLast?_append_of_ne_nil _ named] at last
  exact plain.whole (List.mem_of_getLast? (last.symm.trans (by simp)))

theorem pieces_join_pattern {folder pattern : String} (some : folder ≠ "") (plain : Plain pattern) :
    Glob.pieces ((join folder pattern).toList.dropWhile (· == '/')) =
      (steps folder).map String.toList ++ [pattern.toList] := by
  have named : pattern.toList ≠ [] := by simpa using plain.some
  have left := dropWhile_join_ne_nil some plain
  have split : Text.split '/' (join folder pattern).toList =
      (way folder).map String.toList ++ [pattern.toList] := by
    have named := congrArg (List.map String.toList) (pieces_join some plain.whole)
    simpa [Path.pieces, Function.comp_def] using named
  have empty : (fun cs : List Char => decide (cs = [])) ∘ String.toList =
      fun s => decide (s = "") := by
    funext s
    simp
  have dropped : Text.split '/' ((join folder pattern).toList.dropWhile (· == '/')) =
      (steps folder).map String.toList ++ [pattern.toList] := by
    rw [split_dropWhile _ left, split, List.dropWhile_append, List.dropWhile_map, empty]
    split_ifs with none
    · have none : steps folder = [] := by simpa [steps] using none
      simp [none, named]
    · rfl
  rw [Glob.pieces, dropped]
  simp [named]

theorem mapM_readFrom {texts : List (List Char)} {parts : List Pattern}
    (each : List.Forall₂ (fun cs part => readFrom none 0 cs = .ok part) texts parts) :
    texts.mapM (readFrom none 0) = .ok parts := by
  induction each with
  | nil => rfl
  | cons first _ ih => rw [List.mapM_cons, first, ih]; rfl

/-- A pattern of file names that is joined to a folder without wildcards asks for the pieces of the
folder's path one after the other, and then for the names that it stands for alone. -/
theorem read_join {folder pattern : String} {part : Pattern} (some : folder ≠ "")
    (ordinary : ∀ c ∈ folder.toList, Ordinary c) (plain : Plain pattern)
    (read : Glob.read pattern = .ok part) :
    PathPattern.read (join folder pattern) =
      .ok ⟨if isAbsolute folder then "/" else ".",
        (steps folder).map (fun s => verbatim s.toList) ++ [part], false⟩ := by
  obtain ⟨front, among, last, text⟩ := text_join some plain.whole
  have whole : Glob.read (join folder pattern) = .ok (verbatim front ++ part) := by
    rw [Glob.read, text]
    refine readFrom_append (fun c known => ?_) read none 0 (by rw [last]; exact .inr rfl)
    rcases among c known with inside | rfl
    · exact ordinary c inside
    · exact ⟨by decide, by decide, by decide⟩
  have parts : (Glob.pieces ((join folder pattern).toList.dropWhile (· == '/'))).mapM
      (readFrom none 0) = .ok ((steps folder).map (fun s => verbatim s.toList) ++ [part]) := by
    rw [pieces_join_pattern some plain]
    refine mapM_readFrom (List.rel_append ?_ (.cons read .nil))
    rw [List.forall₂_map_left_iff, List.forall₂_map_right_iff, List.forall₂_same]
    intro s known
    refine readFrom_verbatim (fun c inside => ordinary c ?_) none 0
    exact mem_of_mem_pieces (mem_steps known) inside
  have left : ((join folder pattern).toList.dropWhile (· == '/')).isEmpty = false := by
    simpa using dropWhile_join_ne_nil some plain
  simp only [PathPattern.read, whole, parts, left, endsWith_join some plain,
    isAbsolute_join some plain.whole, bind, Except.bind, Bool.false_eq_true, if_false]
  rfl

end Docket.Glob
