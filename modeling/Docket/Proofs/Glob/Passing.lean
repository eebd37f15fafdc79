import Docket.Proofs.Glob.Finding

/-! The folders that a found path goes through. A path is found again on a machine that had all of
these folders before: what else was made there in between is of no account to it. -/
namespace Docket

namespace Path

/-- The pieces that a path goes on from; a name found in the starting folder has none before it. -/
def trail (path : String) : List String := if path = "." then [] else way path

theorem pieces_eq_trail (path : String) :
    pieces path = trail path ∨ ∃ s, (s = "" ∨ s = ".") ∧ pieces path = trail path ++ [s] := by
  unfold trail
  split
  · rename_i here
    rw [here]
    exact .inr ⟨".", .inr rfl, by decide⟩
  · exact (pieces_eq_way path).imp_right fun slash => ⟨"", .inl rfl, slash⟩

/-- A path that goes on from a folder. -/
def Above (folder path : String) : Prop :=
  isAbsolute path = isAbsolute folder ∧ ∃ rest, rest ≠ [] ∧ pieces path = trail folder ++ rest

theorem Above.trans {folder path x : String} (first : Above folder path) (second : Above path x) :
    Above folder x := by
  obtain ⟨start, rest, nonempty, pieces⟩ := first
  obtain ⟨start', rest', nonempty', pieces'⟩ := second
  refine ⟨start'.trans start, ?_⟩
  rcases pieces_eq_trail path with same | ⟨s, -, longer⟩
  · exact ⟨rest ++ rest', by simp [nonempty], by rw [pieces', ← same, pieces, List.append_assoc]⟩
  · have shorter : trail path = trail folder ++ rest.dropLast := by
      rw [← List.dropLast_append_of_ne_nil nonempty, ← pieces, longer, List.dropLast_concat]
    exact ⟨rest.dropLast ++ rest', by simp [nonempty'], by
      rw [pieces', shorter, List.append_assoc]⟩

theorem above_join {folder name : String} (some : folder ≠ "") (whole : '/' ∉ name.toList) :
    Above folder (join folder name) := by
  refine ⟨isAbsolute_join some whole, ?_⟩
  rw [pieces_join some whole, trail]
  split
  · exact ⟨way folder ++ [name], by simp, rfl⟩
  · exact ⟨[name], by simp, rfl⟩

theorem above_below {folder name : String} (some : folder ≠ "") (whole : '/' ∉ name.toList) :
    Above folder (Glob.below folder name) := by
  unfold Glob.below
  split
  · rename_i here
    refine ⟨?_, [name], by simp, ?_⟩
    · rw [isAbsolute_whole whole, here]
      decide
    · rw [pieces_whole whole, trail, if_pos here]
      rfl
  · exact above_join some whole

end Path

namespace FileTree
open Docket.Path

variable {t t' : FileTree} {home place : Location}

theorem locate_here (folder : t.hasFolder home = true) : t.locate home "." = .ok home := by
  have pieces : pieces "." = ["."] := by decide
  refine (locate_iff ".").mpr ⟨by decide, by decide, ?_⟩
  rw [pieces]
  exact (walk_cons t home "." [] home).mpr ⟨folder, by simp [walk]⟩

/-- Where a name leads that a pattern finds in a folder. -/
theorem locate_below {folder name : String} (some : folder ≠ "") (whole : '/' ∉ name.toList) :
    t.locate home (Glob.below folder name) = .ok place →
      ∃ above, t.locate home folder = .ok above ∧ t.hasFolder above = true ∧
        t.walk above [name] = .ok place := by
  intro located
  unfold Glob.below at located
  split at located
  · rename_i here
    rw [locate_iff, isAbsolute_whole whole, pieces_whole whole] at located
    obtain ⟨-, -, step⟩ := located
    have folder := ((walk_cons t _ name [] place).mp step).1
    exact ⟨home, here ▸ locate_here folder, folder, step⟩
  · obtain ⟨above, located, -, step⟩ := (locate_join some whole).mp located
    exact ⟨above, located, ((walk_cons t above name [] place).mp step).1, step⟩

theorem walk_trail {here : Location} {path : String}
    (walked : t.walk here (pieces path) = .ok place) : t.walk here (trail path) = .ok place := by
  rcases pieces_eq_trail path with same | ⟨s, end', longer⟩
  · rwa [same] at walked
  · rw [longer, walk_append] at walked
    obtain ⟨mid, walked, stays⟩ := walked
    have here := walk_eq_foldl t stays
    simp only [List.foldl_cons, List.foldl_nil, advance, if_pos end'] at here
    rwa [here]

theorem walk_of_folders {here : Location} {ps : List String} (walked : t'.walk here ps = .ok place)
    (folders : ∀ front back mid, back ≠ [] → ps = front ++ back → t'.walk here front = .ok mid →
      t.hasFolder mid = true) : t.walk here ps = .ok place := by
  induction ps generalizing here with
  | nil => exact walked
  | cons p ps ih =>
    have first := folders [] (p :: ps) here (by simp) rfl (by rw [walk])
    obtain ⟨folder, step⟩ := (walk_cons t' here p ps place).mp walked
    refine (walk_cons t here p ps place).mpr ⟨first, ?_⟩
    have next {there : Location} (front : t'.walk here [p] = .ok there)
        (step : t'.walk there ps = .ok place) : t.walk there ps = .ok place := by
      apply ih step
      intro front' back mid nonempty split walked
      apply folders (p :: front') back mid nonempty (by rw [split]; rfl)
      exact (walk_append here [p] front').mpr ⟨there, front, walked⟩
    have one (there : Location) : t'.walk here [p] = .ok there ↔ _ := walk_cons t' here p [] there
    split at step
    · exact (if_pos ‹_›).trans (next ((one _).mpr ⟨folder, by simp [walk, *]⟩) step)
    · rw [if_neg ‹_›]
      split at step
      · exact (if_pos ‹_›).trans (next ((one _).mpr ⟨folder, by simp [walk, *]⟩) step)
      · rw [if_neg ‹_›]
        split at step
        · cases step
        · exact (if_neg ‹_›).trans (next ((one _).mpr ⟨folder, by simp [walk, *]⟩) step)

theorem foldl_advance_straight {ps : List String} (straight : ".." ∉ ps) (here : Location) :
    ∃ more, ps.foldl advance here = here ++ more := by
  induction ps generalizing here with
  | nil => exact ⟨[], (List.append_nil here).symm⟩
  | cons p ps ih =>
    rw [List.mem_cons, not_or] at straight
    obtain ⟨more, below⟩ := ih straight.2 (advance here p)
    rw [List.foldl_cons, below, advance]
    split
    · exact ⟨more, rfl⟩
    · rw [if_neg (Ne.symm straight.1)]
      exact ⟨p :: more, by simp⟩

end FileTree

namespace Machine
open FileTree Docket.Path

/-- A place that a path goes through on its way. -/
def Passes (m : Machine) (path : String) (place : Location) : Prop :=
  ∃ front back, back ≠ [] ∧ pieces path = front ++ back ∧
    m.tree.walk (if isAbsolute path then [] else m.home) front = .ok place

/-- A path all of whose folders another machine has. -/
def Led (m m' : Machine) (x : String) : Prop :=
  m'.home = m.home ∧ ∀ place, m'.Passes x place → m.tree.hasFolder place = true

section Led
variable {m m' : Machine} {x folder : String} {place : Location} (led : Led m m' x)
include led

theorem Led.locate (located : m'.tree.locate m'.home x = .ok place) :
    m.tree.locate m.home x = .ok place := by
  obtain ⟨some, zero, walked⟩ := (locate_iff x).mp located
  refine (locate_iff x).mpr ⟨some, zero, ?_⟩
  rw [← led.1]
  apply walk_of_folders walked
  intro front back mid nonempty split walked
  exact led.2 mid ⟨front, back, nonempty, split, walked⟩

theorem Led.opens (above : Above folder x) (opens : m'.Open folder place) :
    m.Open folder place := by
  obtain ⟨start, rest, nonempty, pieces⟩ := above
  obtain ⟨located, -⟩ := opens
  obtain ⟨some, zero, walked⟩ := (locate_iff folder).mp located
  have passes (front back : List String) (mid : Location) (split : trail folder = front ++ back)
      (walked : m'.tree.walk (if isAbsolute folder then [] else m'.home) front = .ok mid) :
      m.tree.hasFolder mid = true := by
    refine led.2 mid ⟨front, back ++ rest, by simp [nonempty], ?_, by rwa [start]⟩
    rw [pieces, split, List.append_assoc]
  refine ⟨(locate_iff folder).mpr ⟨some, zero, ?_⟩, passes (trail folder) [] place (by simp)
    (walk_trail walked)⟩
  rw [← led.1]
  apply walk_of_folders walked
  intro front back mid nonempty split walked
  rcases pieces_eq_trail folder with same | ⟨s, -, longer⟩
  · exact passes front back mid (same ▸ split) walked
  · refine passes front back.dropLast mid ?_ walked
    rw [← List.dropLast_append_of_ne_nil nonempty, ← split, longer, List.dropLast_concat]

end Led

/-- A path that never goes up passes the folders above the place it leads to, and no others. -/
theorem led_of_straight {m m' : Machine} {x : String} {place : Location} (home : m'.home = m.home)
    (formed : m.tree.Formed) (located : m'.tree.locate m'.home x = .ok place)
    (file : m'.tree.hasFolder place = false) (known : ( m.tree.entry? place).isSome = true)
    (straight : ".." ∉ pieces x) : Led m m' x := by
  refine ⟨home, ?_⟩
  rintro above ⟨front, back, nonempty, split, walked⟩
  obtain ⟨-, -, whole⟩ := (locate_iff x).mp located
  rw [split, walk_append] at whole
  obtain ⟨mid, walked', on⟩ := whole
  cases walked.symm.trans walked'
  rw [split, List.mem_append, not_or] at straight
  obtain ⟨more, below⟩ := foldl_advance_straight straight.2 above
  rw [← walk_eq_foldl _ on] at below
  have deeper : more ≠ [] := by
    rintro rfl
    obtain ⟨piece, rest, rfl⟩ := List.exists_cons_of_ne_nil nonempty
    rw [List.append_nil] at below
    rw [below, ((walk_cons _ above piece rest place).mp on).1] at file
    cases file
  obtain ⟨e, entry⟩ := Option.isSome_iff_exists.mp known
  exact formed.ancestors above more deeper (below ▸ entry)

end Machine

namespace Glob
open Machine Docket.Path

/-- Parts whose texts are pieces of a path. -/
def Whole (parts : List Pattern) : Prop :=
  ∀ part ∈ parts, ∀ cs, literal? part = some cs → '/' ∉ cs

theorem mem_of_literal {part : Pattern} {cs : List Char} (text : literal? part = some cs) {c : Char}
    (known : c ∈ cs) : .char c ∈ part := by
  induction part generalizing cs with
  | nil =>
    cases text
    cases known
  | cons token rest ih =>
    cases token with
    | char d =>
      obtain ⟨ds, text', rfl⟩ := Option.map_eq_some_iff.mp text
      rcases List.mem_cons.mp known with rfl | later
      · exact List.mem_cons_self
      · exact List.mem_cons_of_mem _ (ih text' later)
    | _ => cases text

/-- A token that stands for more than one character. -/
def Wild (token : Token) : Prop := ∀ d, token ≠ .char d

theorem wild_of_set {inside behind : List Char} {token : Token}
    (read : set? inside = some (token, behind)) : Wild token ∧ ∀ c ∈ behind, c ∈ inside := by
  have close {first : Char} {rest : List Char} {holds : Bool}
      (read : (Text.cutFirst? ']' rest).map (fun found =>
        (Token.set holds (ranges (first :: found.1)), found.2)) = some (token, behind)) :
      Wild token ∧ ∀ c ∈ behind, c ∈ rest := by
    obtain ⟨⟨more, rest'⟩, cut, same⟩ := Option.map_eq_some_iff.mp read
    obtain ⟨rfl, -⟩ := Text.cutFirst?_eq_some.mp cut
    cases same
    refine ⟨by simp [Wild], fun c known => ?_⟩
    exact List.mem_append_right _ (List.mem_cons_of_mem _ known)
  unfold set? at read
  split at read
  · rename_i rest
    cases rest with
    | nil => cases read
    | cons first rest =>
      obtain ⟨wild, among⟩ := close read
      exact ⟨wild, fun c known => by simp [among c known]⟩
  · cases inside with
    | nil => cases read
    | cons first rest =>
      obtain ⟨wild, among⟩ := close read
      exact ⟨wild, fun c known => List.mem_cons_of_mem _ (among c known)⟩

theorem mem_of_map {token : Token} {read : Except PatternError Pattern} {part : Pattern}
    (mapped : read.map (token :: ·) = .ok part) {c : Char} (known : .char c ∈ part) :
    token = .char c ∨ ∃ rest, read = .ok rest ∧ .char c ∈ rest := by
  cases read with
  | error e => cases mapped
  | ok rest =>
    cases mapped
    exact (List.mem_cons.mp known).imp Eq.symm fun later => ⟨rest, rfl, later⟩

theorem mem_of_readFrom {before : Option Char} {position : Nat} {cs : List Char} {part : Pattern}
    (read : readFrom before position cs = .ok part) {c : Char} (known : .char c ∈ part) :
    c ∈ cs := by
  have wildcard {token : Token} {more : Except PatternError Pattern} {part : Pattern}
      {rest : List Char} (wild : Wild token) (read : more.map (token :: ·) = .ok part)
      (known : .char c ∈ part)
      (ih : ∀ {part : Pattern}, more = .ok part → .char c ∈ part → c ∈ rest) : c ∈ rest := by
    rcases mem_of_map read known with same | ⟨later, read, known⟩
    · exact absurd same (wild c)
    · exact ih read known
  fun_induction readFrom before position cs generalizing part with
  | case1 | case4 =>
    cases read
    simp at known
  | case2 before position rest ih =>
    exact List.mem_cons_of_mem _ (wildcard (by simp [Wild]) read known ih)
  | case3 | case6 | case7 | case10 => cases read
  | case5 before position _ rest _ ih =>
    have later := wildcard (by simp [Wild]) read known ih
    simp [later]
  | case8 before position rest _ _ ih =>
    exact List.mem_cons_of_mem _ (wildcard (by simp [Wild]) read known ih)
  | case9 before position rest token behind set _ ih =>
    obtain ⟨wild, among⟩ := wild_of_set set
    exact List.mem_cons_of_mem _ (among c (wildcard wild read known ih))
  | case11 before position d rest _ _ _ _ _ ih =>
    rcases mem_of_map read known with same | ⟨later, read, known⟩
    · cases same
      exact List.mem_cons_self
    · exact List.mem_cons_of_mem _ (ih read known)

theorem whole_of_mapM {texts : List (List Char)} {parts : List Pattern}
    (read : texts.mapM (readFrom none 0) = .ok parts) (whole : ∀ cs ∈ texts, '/' ∉ cs) :
    Whole parts := by
  induction texts generalizing parts with
  | nil =>
    cases read
    simp [Whole]
  | cons cs texts ih =>
    rw [List.mapM_cons] at read
    cases first : readFrom none 0 cs with
    | error e => simp [first, bind, Except.bind] at read
    | ok part =>
      cases later : texts.mapM (readFrom none 0) with
      | error e => simp [first, later, bind, Except.bind] at read
      | ok rest =>
        simp only [first, later, bind, Except.bind, pure, Except.pure, Except.ok.injEq] at read
        subst read
        refine List.forall_mem_cons.mpr ⟨fun ds text slash => ?_, ih later ?_⟩
        · exact whole cs List.mem_cons_self (mem_of_readFrom first (mem_of_literal text slash))
        · exact fun ds known => whole ds (List.mem_cons_of_mem _ known)

theorem whole_of_read {pattern : String} {p : PathPattern}
    (read : PathPattern.read pattern = .ok p) : Whole p.parts ∧ p.start ≠ "" := by
  have start (absolute : Bool) : (if absolute = true then "/" else ".") ≠ "" := by
    cases absolute <;> decide
  simp only [PathPattern.read] at read
  cases whole : Glob.read pattern with
  | error e => simp [whole, bind, Except.bind] at read
  | ok tokens =>
    simp only [whole, bind, Except.bind] at read
    split at read
    · cases read
      exact ⟨by simp [Whole, literal?], start _⟩
    · split at read
      · cases read
      · rename_i parts each
        cases read
        refine ⟨whole_of_mapM each fun cs known => ?_, start _⟩
        have piece : cs ∈ Text.split '/' (pattern.toList.dropWhile (· == '/')) := by
          unfold pieces at known
          dsimp only at known
          split at known
          · exact List.dropLast_subset _ known
          · exact known
        exact Text.not_mem_of_mem_split piece

theorem Whole.tail {part : Pattern} {rest : List Pattern} (whole : Whole (part :: rest)) :
    Whole rest := fun other known => whole other (List.mem_cons_of_mem part known)

theorem Whole.text {part : Pattern} {rest : List Pattern} {cs : List Char}
    (whole : Whole (part :: rest)) (text : literal? part = some cs) :
    '/' ∉ (String.ofList cs).toList := by
  rw [String.toList_ofList]
  exact whole part List.mem_cons_self cs text

theorem Whole.dropWhile {parts : List Pattern} (whole : Whole parts) (p : Pattern → Bool) :
    Whole (parts.dropWhile p) :=
  fun part known => whole part ((List.dropWhile_suffix p).subset known)

theorem Whole.deep {parts : List Pattern} (whole : Whole parts) : Whole ([.deep] :: parts) :=
  List.forall_mem_cons.mpr ⟨by simp [literal?], whole⟩

variable {m m' : Machine} {depth : Nat} {parts rest : List Pattern} {folder path x : String}

theorem open_of_meets {name : String} (some : folder ≠ "") (whole : '/' ∉ name.toList)
    (meets : Meets m folder name) : ∃ place, m.Open folder place := by
  unfold Meets at meets
  split at meets
  · exact meets
  · obtain ⟨place, located, -⟩ := meets
    obtain ⟨above, located, opens, -⟩ := FileTree.locate_below some whole located
    exact ⟨above, located, opens⟩

theorem open_of_finds (some : folder ≠ "") (whole : Whole parts)
    (finds : Finds m depth parts folder x) : ∃ place, m.Open folder place := by
  cases depth with
  | zero => exact finds.elim
  | succ depth =>
    cases parts with
    | nil => exact finds.elim
    | cons part rest =>
      rw [Finds] at finds
      split at finds
      · rename_i cs text
        exact open_of_meets some (whole.text text) finds.1
      · exact finds.1

theorem plain_of_mem_namesIn (formed : m.tree.Formed) {name : String}
    (known : name ∈ m.namesIn folder) : Plain name := by
  obtain ⟨place, -, entry⟩ := mem_namesIn.mp known
  obtain ⟨e, entry⟩ := Option.isSome_iff_exists.mp entry
  exact (formed.below place name e entry).2

theorem below_ne_empty {name : String} (some : folder ≠ "") (whole : '/' ∉ name.toList)
    (named : name ≠ "") : below folder name ≠ "" := by
  unfold below
  split
  · exact named
  · exact join_ne_empty some whole

theorem ne_empty_of_meets {name : String} (some : folder ≠ "") (whole : '/' ∉ name.toList)
    (meets : Meets m folder name) : below folder name ≠ "" := by
  unfold Meets at meets
  split at meets
  · rename_i special
    apply below_ne_empty some whole
    rcases special with rfl | rfl <;> decide
  · obtain ⟨place, located, -⟩ := meets
    exact ((FileTree.locate_iff _).mp located).1

theorem Onward.cases {finds : List Pattern → String → String → Prop}
    (onward : Onward finds rest path x) : x = path ∨ finds rest path x := by
  unfold Onward at onward
  split at onward
  · exact .inl onward
  · exact .inr onward

theorem AtEntry.cases (whole : Whole parts) {finds : List Pattern → String → String → Prop}
    (entry : AtEntry m finds parts path x) :
    x = path ∨ ∃ next, Whole next ∧ finds next path x := by
  have named {parts : List Pattern} (whole : Whole parts) (named : Named finds parts path x) :
      x = path ∨ ∃ next, Whole next ∧ finds next path x := by
    obtain ⟨part, rest, name, rfl, -, -, onward⟩ := named
    exact onward.cases.imp_right fun found => ⟨rest, whole.tail, found⟩
  unfold AtEntry at entry
  split at entry
  · rcases entry with ⟨-, inside | ⟨-, here⟩⟩ | here
    · exact .inr ⟨_, (whole.dropWhile _).deep, inside⟩
    · exact .inl here
    · exact named (whole.dropWhile _) here
  · exact named whole entry

/-- Whatever is found from a folder on is found at a path right below or from there on. -/
theorem Finds.next (formed : m.tree.Formed) (some : folder ≠ "") (whole : Whole parts)
    (finds : Finds m (depth + 1) parts folder x) :
    ∃ path, path ≠ "" ∧ Above folder path ∧
      (x = path ∨ ∃ next, Whole next ∧ Finds m depth next path x) := by
  cases parts with
  | nil => exact finds.elim
  | cons part rest =>
    have rest' := whole.tail
    rw [Finds] at finds
    split at finds
    · rename_i cs text
      obtain ⟨meets, onward⟩ := finds
      have piece := whole.text text
      exact ⟨_, ne_empty_of_meets some piece meets, above_below some piece,
        onward.cases.imp_right fun found => ⟨rest, rest', found⟩⟩
    · rcases finds.2 with ⟨name, listed, entry⟩ | ⟨s, special, -, -, onward⟩
      · have plain := plain_of_mem_namesIn formed listed
        exact ⟨_, below_ne_empty some plain.whole plain.some, above_below some plain.whole,
          entry.cases whole⟩
      · have piece : '/' ∉ s.toList := by rcases special with rfl | rfl <;> decide
        exact ⟨_, join_ne_empty some piece, above_join some piece,
          onward.cases.imp_right fun found => ⟨rest, rest', found⟩⟩

theorem above_of_finds (formed : m.tree.Formed) (some : folder ≠ "") (whole : Whole parts)
    (finds : Finds m depth parts folder x) : Above folder x := by
  induction depth generalizing parts folder with
  | zero => exact finds.elim
  | succ depth ih =>
    obtain ⟨path, some', above, rfl | ⟨next, whole', found⟩⟩ := finds.next formed some whole
    · exact above
    · exact above.trans (ih some' whole' found)

section Imp
variable {finds finds' : List Pattern → String → String → Prop}
  (each : ∀ {parts : List Pattern} {folder : String}, folder ≠ "" → Whole parts →
    finds parts folder x → finds' parts folder x)
include each

theorem Onward.imp (some : path ≠ "") (whole : Whole rest) (onward : Onward finds rest path x) :
    Onward finds' rest path x := by
  unfold Onward at onward ⊢
  split at onward
  · exact (if_pos ‹_›).mpr onward
  · exact (if_neg ‹_›).mpr (each some whole onward)

theorem Named.imp (some : path ≠ "") (whole : Whole parts) (named : Named finds parts path x) :
    Named finds' parts path x := by
  obtain ⟨part, rest, name, rfl, last, accepted, onward⟩ := named
  exact ⟨part, rest, name, rfl, last, accepted, onward.imp each some whole.tail⟩

end Imp

/-- A file found on one machine whose way another machine has, up to something in its place. -/
structure Again (m m' : Machine) (x : String) (place : Location) : Prop where
  led : Led m m' x
  formed : m'.tree.Formed
  located : m'.tree.locate m'.home x = .ok place
  file : m'.tree.hasFolder place = false
  known : ( m.tree.entry? place).isSome = true

namespace Again

variable {place : Location} (again : Again m m' x place)
include again

theorem holds (some : path ≠ "")
    (found : x = path ∨ ∃ next, Whole next ∧ Finds m' depth next path x) : m.Holds path := by
  rcases found with rfl | ⟨next, whole, found⟩
  · exact ⟨place, again.led.locate again.located, again.known⟩
  · obtain ⟨above, opens⟩ := open_of_finds some whole found
    obtain ⟨located, folder⟩ := again.led.opens (above_of_finds again.formed some whole found) opens
    refine ⟨above, located, ?_⟩
    cases entry : m.tree.entry? above with
    | none => simp [FileTree.hasFolder, entry] at folder
    | some e => rfl

theorem mem_namesIn {name : String} (some : folder ≠ "") (above : Above folder x)
    (listed : name ∈ m'.namesIn folder) (holds : m.Holds (below folder name)) :
    name ∈ m.namesIn folder := by
  have plain := plain_of_mem_namesIn again.formed listed
  obtain ⟨here, opens, -⟩ := Machine.mem_namesIn.mp listed
  obtain ⟨there, located, entry⟩ := holds
  obtain ⟨here', located', -, step⟩ := FileTree.locate_below some plain.whole located
  have opens := again.led.opens above opens
  cases opens.1.symm.trans located'
  have last := FileTree.walk_eq_foldl _ step
  simp only [List.foldl_cons, List.foldl_nil, FileTree.advance_plain plain] at last
  exact Machine.mem_namesIn.mpr ⟨here, opens, last ▸ entry⟩

section Step
variable (ih : ∀ {parts : List Pattern} {folder : String}, folder ≠ "" → Whole parts →
  Finds m' depth parts folder x → Finds m depth parts folder x)
include ih

theorem atEntry (some : path ≠ "") (whole : Whole parts)
    (entry : AtEntry m' (Finds m' depth) parts path x) :
    AtEntry m (Finds m depth) parts path x := by
  unfold AtEntry at entry ⊢
  split at entry
  · rw [if_pos ‹_›]
    rcases entry with ⟨opens, inside | ⟨-, rfl⟩⟩ | here
    · have whole' := (whole.dropWhile (· = [.deep])).deep
      obtain ⟨above, opens⟩ := opens
      have opens := again.led.opens (above_of_finds again.formed some whole' inside) opens
      exact .inl ⟨⟨above, opens⟩, .inl (ih some whole' inside)⟩
    · -- the path of a file does not lead to a folder
      obtain ⟨above, located, folder⟩ := opens
      cases located.symm.trans again.located
      rw [again.file] at folder
      cases folder
    · exact .inr (here.imp ih some (whole.dropWhile _))
  · rw [if_neg ‹_›]
    exact Named.imp ih some whole entry

theorem step (some : folder ≠ "") (whole : Whole parts)
    (finds : Finds m' (depth + 1) parts folder x) : Finds m (depth + 1) parts folder x := by
  have above := above_of_finds again.formed some whole finds
  cases parts with
  | nil => exact finds.elim
  | cons part rest =>
    rw [Finds] at finds ⊢
    cases text : literal? part with
    | some cs =>
      rw [text] at finds
      obtain ⟨meets, on⟩ := finds
      have piece := whole.text text
      have some' := ne_empty_of_meets some piece meets
      refine ⟨?_, on.imp ih some' whole.tail⟩
      unfold Meets at meets ⊢
      split at meets
      · obtain ⟨here, opens⟩ := meets
        exact (if_pos ‹_›).mpr ⟨here, again.led.opens above opens⟩
      · have found : x = _ ∨ ∃ next, Whole next ∧ Finds m' depth next _ x :=
          on.cases.imp_right fun found => ⟨rest, whole.tail, found⟩
        exact (if_neg ‹_›).mpr (again.holds some' found)
    | none =>
      rw [text] at finds
      obtain ⟨⟨here, opens⟩, found⟩ := finds
      refine ⟨⟨here, again.led.opens above opens⟩, ?_⟩
      rcases found with ⟨name, listed, entry⟩ | ⟨s, special, dot, accepted, on⟩
      · have plain := plain_of_mem_namesIn again.formed listed
        have some' := below_ne_empty some plain.whole plain.some
        have holds := again.holds some' (entry.cases whole)
        exact .inl ⟨name, again.mem_namesIn some above listed holds,
          again.atEntry ih some' whole entry⟩
      · have piece : '/' ∉ s.toList := by rcases special with rfl | rfl <;> decide
        exact .inr ⟨s, special, dot, accepted,
          on.imp ih (join_ne_empty some piece) whole.tail⟩

end Step

/-- What is found on the one machine is found on the other. -/
theorem finds (some : folder ≠ "") (whole : Whole parts)
    (finds : Finds m' depth parts folder x) : Finds m depth parts folder x := by
  induction depth generalizing parts folder with
  | zero => exact finds.elim
  | succ depth ih => exact again.step ih some whole finds

theorem mem_find {pattern : String} {p : PathPattern} (read : PathPattern.read pattern = .ok p)
    (found : x ∈ ((find p : StateM Machine (List String)).run m').1) :
    x ∈ ((find p : StateM Machine (List String)).run m).1 := by
  obtain ⟨whole, start⟩ := whole_of_read read
  obtain ⟨found, folders⟩ := Glob.mem_find.mp found
  refine Glob.mem_find.mpr ⟨again.finds start whole found, fun only => ?_⟩
  obtain ⟨here, located, folder⟩ := folders only
  cases located.symm.trans again.located
  rw [again.file] at folder
  cases folder

end Again
end Glob
end Docket
