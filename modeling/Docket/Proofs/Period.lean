import Mathlib
import Docket.Period
import Docket.Proofs.Number.Places
import Docket.Proofs.Text.Digits
import Docket.Proofs.Text.Sighting

/-! Which period of a file name is found. A month and its year are a token where no other digits are
next to them, and the search passes over the character behind a token along with it. So of tokens in
a row, with one character between each and the next, every second is never looked at. Of all the
others the first that is a period is found. -/
namespace Docket.Period
open Reading (Digits natural)
open Text (isDecimalDigit digits_unique firstSight? firstSight?_append Leftmost
  firstSight?_eq_some_iff_leftmost firstSight?_eq_none_iff_forall)

/-- No digit comes next. -/
def atEdge : List Char → Bool
  | [] => true
  | c :: _ => !isDecimalDigit c

theorem atEdge_cons {c : Char} {rest : List Char} :
    atEdge (c :: rest) = true ↔ isDecimalDigit c = false := by
  rw [atEdge, Bool.not_eq_true']

/-- So many digits of any script. -/
structure Run (n : Nat) (ds : List Char) : Prop where
  length : ds.length = n
  digits : ∀ c ∈ ds, isDecimalDigit c = true

/-- How a form writes a year and a month. -/
inductive Form.Spells (year month : List Char) : Form → List Char → Prop
  | yearMonth {k : Char} (mark : k ∈ ['-', '_']) : Spells year month .yearMonth (year ++ k :: month)
  | compact : Spells year month .compact (year ++ month)
  | monthYear : Spells year month .monthYear (month ++ '-' :: year)

structure Form.Token (form : Form) (year month token : List Char) : Prop where
  years : Run 4 year
  months : Run 2 month
  spells : form.Spells year month token

def Form.width : Form → Nat
  | .yearMonth => 7
  | .compact => 6
  | .monthYear => 7

theorem edge_of_mark {k : Char} (mark : k ∈ ['-', '_']) (rest : List Char) :
    atEdge (k :: rest) = true := by
  simp only [List.mem_cons, List.not_mem_nil, or_false] at mark
  rcases mark with rfl | rfl <;> rfl

theorem takeWhile_edge {rest : List Char} (edge : atEdge rest = true) :
    rest.takeWhile isDecimalDigit = [] := by
  cases rest with
  | nil => rfl
  | cons c rest => exact List.takeWhile_cons_of_neg (by simp [atEdge_cons.mp edge])

/-- Digits that two texts begin with are as many, if none come behind them. -/
theorem Run.same {n k : Nat} {ds es front back : List Char} (first : Run n ds) (second : Run k es)
    (ends : atEdge front = true) (stops : atEdge back = true) (same : ds ++ front = es ++ back) :
    n = k := by
  have alike := digits_unique first.digits second.digits (takeWhile_edge ends)
    (takeWhile_edge stops) same
  rw [← first.length, ← second.length, alike.1]

theorem atEdge_reverse (seen : List Char) {ds : List Char} (some : ds ≠ [])
    (digits : ∀ c ∈ ds, isDecimalDigit c = true) : atEdge (seen ++ ds).reverse = false := by
  obtain ⟨d, rest, parts⟩ := List.exists_cons_of_ne_nil (List.reverse_ne_nil_iff.mpr some)
  have among : d ∈ ds := List.mem_reverse.mp (parts ▸ List.mem_cons_self)
  rw [List.reverse_append, parts, List.cons_append, atEdge, digits d among, Bool.not_true]

theorem eq_nil_of_atEdge (seen : List Char) {ds : List Char}
    (digits : ∀ c ∈ ds, isDecimalDigit c = true) (edge : atEdge (seen ++ ds).reverse = true) :
    ds = [] := by
  by_contra some
  rw [atEdge_reverse seen some digits] at edge
  cases edge

/-- Within digits around a mark the only edge is behind the mark. -/
theorem eq_of_atEdge {xs ys front back : List Char} {k : Char}
    (first : ∀ c ∈ xs, isDecimalDigit c = true) (second : ∀ c ∈ ys, isDecimalDigit c = true)
    (parts : xs ++ k :: ys = front ++ back) (some : front ≠ [])
    (edge : atEdge front.reverse = true) : back = ys := by
  rcases List.append_eq_append_iff.mp parts with ⟨as, rfl, split⟩ | ⟨bs, rfl, -⟩
  · rcases List.cons_eq_append_iff.mp split with ⟨rfl, -⟩ | ⟨as, rfl, rfl⟩
    · rw [List.append_nil] at some edge
      exact absurd (eq_nil_of_atEdge [] first edge) some
    · have digits : ∀ c ∈ as, isDecimalDigit c = true := fun c among =>
        second c (List.mem_append_left back among)
      rw [List.append_cons] at edge
      rw [eq_nil_of_atEdge _ digits edge, List.nil_append]
  · have digits : ∀ c ∈ front, isDecimalDigit c = true := fun c among =>
      first c (List.mem_append_left bs among)
    exact absurd (eq_nil_of_atEdge [] digits edge) some

theorem digits?_eq_some_iff {n : Nat} {cs ds rest : List Char} :
    digits? n cs = some (ds, rest) ↔ Run n ds ∧ cs = ds ++ rest := by
  rw [digits?, Option.ite_none_right_eq_some]
  constructor
  · rintro ⟨⟨length, digits⟩, same⟩
    cases same
    exact ⟨⟨length, List.all_eq_true.mp digits⟩, (List.take_append_drop n cs).symm⟩
  · rintro ⟨⟨rfl, digits⟩, rfl⟩
    rw [List.take_left, List.drop_left]
    exact ⟨⟨rfl, List.all_eq_true.mpr digits⟩, rfl⟩

theorem mark?_eq_some_iff {marks cs rest : List Char} :
    mark? marks cs = some rest ↔ ∃ k ∈ marks, cs = k :: rest := by
  cases cs with
  | nil => simp [mark?]
  | cons c cs =>
    rw [mark?, Option.ite_none_right_eq_some, List.contains_iff_mem]
    constructor
    · rintro ⟨known, same⟩
      cases same
      exact ⟨c, known, rfl⟩
    · rintro ⟨k, known, same⟩
      cases same
      exact ⟨known, rfl⟩

namespace Form
variable {form : Form} {year month token : List Char}

theorem read?_eq_some_iff {cs rest : List Char} : form.read? cs = some ((year, month), rest) ↔
    ∃ token, form.Token year month token ∧ cs = token ++ rest := by
  constructor
  · intro read
    cases form with
    | yearMonth =>
      simp only [read?, Option.bind_eq_bind, Option.bind_eq_some_iff] at read
      obtain ⟨⟨y, _⟩, first, _, mark, ⟨m, _⟩, second, same⟩ := read
      cases same
      obtain ⟨years, rfl⟩ := digits?_eq_some_iff.mp first
      obtain ⟨k, known, rfl⟩ := mark?_eq_some_iff.mp mark
      obtain ⟨months, rfl⟩ := digits?_eq_some_iff.mp second
      exact ⟨_, ⟨years, months, .yearMonth known⟩, by simp⟩
    | compact =>
      simp only [read?, Option.bind_eq_bind, Option.bind_eq_some_iff] at read
      obtain ⟨⟨y, _⟩, first, ⟨m, _⟩, second, same⟩ := read
      cases same
      obtain ⟨years, rfl⟩ := digits?_eq_some_iff.mp first
      obtain ⟨months, rfl⟩ := digits?_eq_some_iff.mp second
      exact ⟨_, ⟨years, months, .compact⟩, by simp⟩
    | monthYear =>
      simp only [read?, Option.bind_eq_bind, Option.bind_eq_some_iff] at read
      obtain ⟨⟨m, _⟩, first, _, mark, ⟨y, _⟩, second, same⟩ := read
      cases same
      obtain ⟨months, rfl⟩ := digits?_eq_some_iff.mp first
      obtain ⟨k, known, rfl⟩ := mark?_eq_some_iff.mp mark
      obtain rfl := List.mem_singleton.mp known
      obtain ⟨years, rfl⟩ := digits?_eq_some_iff.mp second
      exact ⟨_, ⟨years, months, .monthYear⟩, by simp⟩
  · rintro ⟨token, ⟨years, months, spells⟩, rfl⟩
    have first (rest : List Char) := digits?_eq_some_iff.mpr ⟨years, Eq.refl (year ++ rest)⟩
    have second (rest : List Char) := digits?_eq_some_iff.mpr ⟨months, Eq.refl (month ++ rest)⟩
    cases spells with
    | yearMonth known =>
      have mark := mark?_eq_some_iff.mpr ⟨_, known, Eq.refl (_ :: (month ++ rest))⟩
      simp [read?, first, second, mark]
    | compact => simp [read?, first, second]
    | monthYear =>
      have mark := mark?_eq_some_iff.mpr
        ⟨'-', List.mem_singleton_self '-', Eq.refl ('-' :: (year ++ rest))⟩
      simp [read?, first, second, mark]

theorem closed?_eq_some_iff {cs behind : List Char} :
    form.closed? cs = some ((year, month), behind) ↔ ∃ token after, form.Token year month token ∧
      cs = token ++ after ∧ atEdge after = true ∧ behind = after.tail := by
  rw [closed?]
  constructor
  · intro read
    split at read
    · rename_i found known
      cases read
      obtain ⟨token, spelled, rfl⟩ := read?_eq_some_iff.mp known
      exact ⟨token, [], spelled, rfl, rfl, rfl⟩
    · rename_i found c rest known
      obtain ⟨other, same⟩ := Option.ite_none_left_eq_some.mp read
      obtain ⟨rfl, rfl⟩ := Prod.mk.inj (Option.some.inj same)
      obtain ⟨token, spelled, rfl⟩ := read?_eq_some_iff.mp known
      exact ⟨token, c :: rest, spelled, rfl, atEdge_cons.mpr (by simpa using other), rfl⟩
    · cases read
  · rintro ⟨token, after, spelled, rfl, edge, rfl⟩
    have read := read?_eq_some_iff.mpr ⟨token, spelled, Eq.refl (token ++ after)⟩
    rw [read]
    cases after with
    | nil => rfl
    | cons c rest => simp [atEdge_cons.mp edge]

theorem at?_behind (c : Char) (rest : List Char) : form.at? false (c :: rest) =
    if isDecimalDigit c then none else form.closed? rest := rfl

theorem Token.length (spelled : form.Token year month token) : token.length = form.width := by
  obtain ⟨⟨years, -⟩, ⟨months, -⟩, spells⟩ := spelled
  cases spells <;> simp [width, years, months]

/-- Whether a text is a token and nothing else. -/
def isToken (form : Form) (cs : List Char) : Bool :=
  (form.read? cs).any fun (_, rest) => rest.isEmpty

theorem isToken_iff : form.isToken token = true ↔ ∃ year month, form.Token year month token := by
  rw [isToken]
  constructor
  · intro known
    cases read : form.read? token with
    | none =>
      rw [read] at known
      cases known
    | some found =>
      obtain ⟨⟨year, month⟩, rest⟩ := found
      obtain ⟨same, spelled, rfl⟩ := read?_eq_some_iff.mp read
      rw [read, Option.any_some, List.isEmpty_iff] at known
      exact ⟨year, month, by rwa [known, List.append_nil]⟩
  · rintro ⟨year, month, spelled⟩
    rw [read?_eq_some_iff.mpr ⟨token, spelled, (List.append_nil token).symm⟩]
    rfl

/-- How many tokens stand in a row up to the end of a text, each with one character behind it. The
text is given from its end; the number tells how many of its characters belong to a token. -/
def row (form : Form) : Nat → List Char → Nat
  | _, [] => 0
  | n + 1, _ :: seen => form.row n seen
  | 0, c :: seen =>
    if isDecimalDigit c || !form.isToken (seen.take form.width).reverse ||
        !atEdge (seen.drop form.width) then 0
    else form.row form.width seen + 1

/-- A token stands behind `front`, and one character behind the token is the end of `before`. -/
structure Touches (form : Form) (front before : List Char) : Prop where
  starts : atEdge front.reverse = true
  ends : ∃ year month token c, form.Token year month token ∧ isDecimalDigit c = false ∧
    before = front ++ token ++ [c]

/-- How many tokens stand in a row up to a place. -/
def inRow (form : Form) (before : List Char) : Nat := form.row 0 before.reverse

theorem row_skip (n : Nat) (seen : List Char) : form.row n seen = form.row 0 (seen.drop n) := by
  induction seen generalizing n with
  | nil => cases n <;> rfl
  | cons c seen ih =>
    cases n with
    | zero => rfl
    | succ n => rw [row, ih, List.drop_succ_cons]

theorem inRow_touches {front before : List Char} (touches : form.Touches front before) :
    form.inRow before = form.inRow front + 1 := by
  obtain ⟨starts, year, month, token, c, spelled, other, rfl⟩ := touches
  have width : token.reverse.length = form.width := by rw [List.length_reverse, spelled.length]
  have reversed : (front ++ token ++ [c]).reverse = c :: (token.reverse ++ front.reverse) := by simp
  rw [inRow, reversed, row, ← width, List.take_left, List.drop_left, List.reverse_reverse, row_skip,
    List.drop_left, other, isToken_iff.mpr ⟨year, month, spelled⟩, starts]
  rfl

theorem exists_touches {before : List Char} (some : form.inRow before ≠ 0) :
    ∃ front, form.Touches front before := by
  obtain ⟨seen, rfl⟩ := List.reverse_surjective before
  rw [inRow, List.reverse_reverse] at some
  cases seen with
  | nil => exact absurd rfl some
  | cons c seen =>
    rw [row, Ne, ite_eq_left_iff, Classical.not_imp] at some
    obtain ⟨known, -⟩ := some
    simp only [Bool.or_eq_true, Bool.not_eq_true', not_or, Bool.not_eq_true, Bool.not_eq_false]
      at known
    obtain ⟨⟨other, token⟩, starts⟩ := known
    obtain ⟨year, month, spelled⟩ := isToken_iff.mp token
    refine ⟨(seen.drop form.width).reverse, by rwa [List.reverse_reverse], year, month, _, c,
      spelled, other, ?_⟩
    rw [← List.reverse_append, List.take_append_drop, List.reverse_cons]

/-- Whether a token at a place is looked at. -/
def opens (form : Form) (before : List Char) : Bool :=
  atEdge before.reverse && form.inRow before % 2 == 0

theorem opens_eq_true_iff {before : List Char} : form.opens before = true ↔
    atEdge before.reverse = true ∧ form.inRow before % 2 = 0 := by
  rw [opens, Bool.and_eq_true, beq_iff_eq]

/-- What is made of a token at a place, if it is looked at. -/
def sight? {α : Type} (form : Form) (f : List Char × List Char → Option α)
    (before rest : List Char) : Option α :=
  if form.opens before then (form.closed? rest).bind fun found => f found.1 else none

section Token
variable (spelled : form.Token year month token)
include spelled

theorem Token.ne_nil : token ≠ [] := by
  rw [← List.length_pos_iff, spelled.length]
  cases form <;> decide

theorem Token.ends (seen : List Char) : atEdge (seen ++ token).reverse = false := by
  obtain ⟨years, months, spells⟩ := spelled
  have year : year ≠ [] := List.ne_nil_of_length_pos (by rw [years.length]; decide)
  have month : month ≠ [] := List.ne_nil_of_length_pos (by rw [months.length]; decide)
  cases spells with
  | yearMonth => rw [List.append_cons, ← List.append_assoc, atEdge_reverse _ month months.digits]
  | compact => rw [← List.append_assoc, atEdge_reverse _ month months.digits]
  | monthYear => rw [List.append_cons, ← List.append_assoc, atEdge_reverse _ year years.digits]

/-- No token begins within another. -/
theorem closed?_inside {front back after : List Char} (parts : token = front ++ back)
    (some : front ≠ []) (edge : atEdge front.reverse = true) (ends : atEdge after = true) :
    form.closed? (back ++ after) = none := by
  refine Option.eq_none_iff_forall_ne_some.mpr fun ((y, m), behind) read => ?_
  obtain ⟨other, rest, found, same, stops, -⟩ := closed?_eq_some_iff.mp read
  obtain ⟨years, months, spells⟩ := spelled
  obtain ⟨first, second, others⟩ := found
  cases spells with
  | yearMonth mark =>
    obtain rfl := eq_of_atEdge years.digits months.digits parts some edge
    cases others with
    | yearMonth link =>
      rw [List.append_assoc] at same
      cases months.same first ends (edge_of_mark link _) same
  | compact =>
    have all := List.forall_mem_append.mpr ⟨years.digits, months.digits⟩
    have digits : ∀ c ∈ front, isDecimalDigit c = true := fun c among =>
      all c (parts ▸ List.mem_append_left back among)
    exact absurd (eq_nil_of_atEdge [] digits edge) some
  | monthYear =>
    obtain rfl := eq_of_atEdge months.digits years.digits parts some edge
    cases others with
    | monthYear =>
      rw [List.append_assoc] at same
      cases years.same second ends rfl same

end Token

section Search
variable {α : Type} {f : List Char × List Char → Option α}

/-- What is seen behind the first character of `cs`. -/
def later (see : List Char → List Char → Option α) (seen : List Char) : List Char → Option α
  | [] => none
  | c :: rest => firstSight? see (seen ++ [c]) rest

theorem closed?_nil : form.closed? [] = none := by
  cases form <;> rfl

theorem firstSight?_later {see : List Char → List Char → Option α} {seen cs : List Char}
    (none : see seen cs = none) : firstSight? see seen cs = later see seen cs := by
  cases cs with
  | nil => exact none
  | cons c rest => rw [firstSight?, none, Option.none_or, later]

theorem sight?_of_closed {before rest : List Char} (unseen : form.opens before = true →
    form.closed? rest = none) : form.sight? f before rest = none := by
  rw [sight?]
  split
  · rename_i looked
    rw [unseen looked, Option.bind_none]
  · rfl

/-- Tokens that are looked at end before the place that the search has come to. -/
def Clear (form : Form) (seen cs : List Char) : Prop :=
  ∀ front back, seen ++ cs = front ++ back → front.length ≤ seen.length →
    form.opens front = true → form.closed? back ≠ none → front.length + form.width < seen.length

theorem Clear.even {seen rest : List Char} {c : Char} (clear : form.Clear seen (c :: rest))
    (other : isDecimalDigit c = false) : form.inRow (seen ++ [c]) % 2 = 0 := by
  by_contra odd
  have some : form.inRow (seen ++ [c]) ≠ 0 := by omega
  obtain ⟨front, touches⟩ := exists_touches some
  have more := inRow_touches touches
  obtain ⟨starts, year, month, token, d, spelled, -, parts⟩ := touches
  obtain ⟨rfl, last⟩ := List.append_inj' parts rfl
  cases last
  have closed : form.closed? (token ++ c :: rest) ≠ none := by
    rw [closed?_eq_some_iff.mpr ⟨token, c :: rest, spelled, rfl, atEdge_cons.mpr other, rfl⟩]
    exact Option.some_ne_none _
  have looked : form.opens front = true := opens_eq_true_iff.mpr ⟨starts, by omega⟩
  -- the token before would be one that has not ended yet
  have ended := clear front (token ++ c :: rest) (List.append_assoc ..) (by simp) looked closed
  rw [List.length_append, spelled.length] at ended
  exact Nat.lt_irrefl _ ended

theorem Clear.step {seen rest : List Char} {c : Char} (clear : form.Clear seen (c :: rest))
    (unseen : form.opens (seen ++ [c]) = true → form.closed? rest = none) :
    form.Clear (seen ++ [c]) rest := by
  intro front back parts reached looked token
  rw [List.length_append, List.length_singleton] at reached ⊢
  rw [← List.append_cons] at parts
  rcases Nat.lt_or_eq_of_le reached with less | same
  · have ended := clear front back parts (Nat.le_of_lt_succ less) looked token
    omega
  · rw [List.append_cons] at parts
    obtain ⟨rfl, rfl⟩ := List.append_inj parts (by simp [same])
    exact absurd (unseen looked) token

section Match
variable {here after : List Char} (looked : form.opens here = true)
  (spelled : form.Token year month token) (ends : atEdge after = true)

include looked spelled in
theorem opens_behind {d : Char} (other : isDecimalDigit d = false) :
    form.opens (here ++ token ++ [d]) = false := by
  obtain ⟨starts, even⟩ := opens_eq_true_iff.mp looked
  have more := inRow_touches ⟨starts, year, month, token, d, spelled, other, rfl⟩
  refine Bool.eq_false_iff.mpr fun known => ?_
  have again := (opens_eq_true_iff.mp known).2
  omega

include spelled ends in
theorem unseen_inside {front back : List Char} (parts : token = front ++ back) (some : front ≠ [])
    (looked : form.opens (here ++ front) = true) : form.closed? (back ++ after) = none := by
  refine closed?_inside spelled parts some ?_ ends
  obtain ⟨c, rest, split⟩ := List.exists_cons_of_ne_nil (List.reverse_ne_nil_iff.mpr some)
  have edge := (opens_eq_true_iff.mp looked).1
  rw [List.reverse_append, split] at edge
  rw [split]
  exact edge

include looked spelled ends in
/-- Behind a token the search goes on as if it had looked at every place within. -/
theorem firstSight?_token : firstSight? (form.sight? f) here (token ++ after) =
    (f (year, month)).or (later (form.sight? f) (here ++ token) after) := by
  have closed := closed?_eq_some_iff.mpr ⟨token, after, spelled, rfl, ends, rfl⟩
  have sight : form.sight? f here (token ++ after) = f (year, month) := by
    rw [sight?, if_pos looked, closed, Option.bind_some]
  have behind : form.sight? f (here ++ token) after = none := by
    refine sight?_of_closed fun known => ?_
    rw [opens, spelled.ends here] at known
    cases known
  obtain ⟨t, ts, rfl⟩ := List.exists_cons_of_ne_nil spelled.ne_nil
  rw [List.cons_append] at sight ⊢
  rw [firstSight?, sight, firstSight?_append, ← List.append_cons, firstSight?_later behind]
  intro before rest parts _
  rw [← List.append_cons]
  refine sight?_of_closed (unseen_inside spelled ends ?_ (List.cons_ne_nil t before))
  rw [parts, List.cons_append]

include looked spelled in
/-- Behind a token and one character no token is left open. -/
theorem clear_behind {d : Char} (other : isDecimalDigit d = false) (behind : List Char) :
    form.Clear (here ++ token ++ [d]) behind := by
  intro front back parts reached known closed
  simp only [List.append_assoc, List.singleton_append] at parts
  simp only [List.length_append, spelled.length, List.length_singleton] at reached ⊢
  rcases List.append_eq_append_iff.mp parts with ⟨inner, rfl, split⟩ | ⟨bs, rfl, -⟩
  · by_cases none : inner = []
    · rw [none, List.append_nil]
      omega
    · exfalso
      rcases List.append_eq_append_iff.mp split with ⟨rest, rfl, tails⟩ | ⟨bs, within, rfl⟩
      · rcases List.cons_eq_append_iff.mp tails with ⟨rfl, -⟩ | ⟨rest, rfl, -⟩
        · rw [List.append_nil, opens, spelled.ends here] at known
          cases known
        · have last : rest = [] := by
            rw [← List.length_eq_zero_iff]
            simp only [List.length_append, List.length_cons, spelled.length] at reached
            omega
          rw [last, ← List.append_assoc, opens_behind looked spelled other] at known
          cases known
      · exact closed (unseen_inside spelled (atEdge_cons.mpr other) within none known)
  · rw [List.length_append]
    omega

end Match

theorem places_skip (n : Nat) (cs : List Char) :
    form.places false n cs = form.places false 0 (cs.drop n) := by
  induction cs generalizing n with
  | nil => cases n <;> rfl
  | cons c cs ih =>
    cases n with
    | zero => rfl
    | succ n => rw [places, ih, List.drop_succ_cons]

/-- The search behind a token. -/
theorem findSome?_token {here after : List Char} (looked : form.opens here = true)
    (spelled : form.Token year month token) (ends : atEdge after = true)
    (further : ∀ d behind, after = d :: behind → form.Clear (here ++ token ++ [d]) behind →
      (form.places false 0 behind).findSome? f =
        later (form.sight? f) (here ++ token ++ [d]) behind) :
    ((year, month) :: form.places false 0 after.tail).findSome? f =
      firstSight? (form.sight? f) here (token ++ after) := by
  have goes : (form.places false 0 after.tail).findSome? f =
      later (form.sight? f) (here ++ token) after := by
    cases after with
    | nil => rfl
    | cons d behind =>
      have other := atEdge_cons.mp ends
      have unseen : form.sight? f (here ++ token ++ [d]) behind = none := by
        refine sight?_of_closed fun known => ?_
        rw [opens_behind looked spelled other] at known
        cases known
      rw [later, firstSight?_later unseen]
      exact further d behind rfl (clear_behind looked spelled other behind)
  rw [firstSight?_token looked spelled ends, ← goes, List.findSome?_cons]
  cases f (year, month) <;> rfl

theorem places_behind {before after : List Char} :
    form.places false ((before ++ after).length - after.tail.length) (before ++ after) =
      form.places false 0 after.tail := by
  have behind : after.tail <:+ before ++ after :=
    (List.tail_suffix after).trans (List.suffix_append before after)
  rw [places_skip, ← List.suffix_iff_eq_drop.mp behind]

/-- From a place where no token is left open the search sees what there is to see. -/
theorem findSome?_behind {seen cs : List Char} {n : Nat} (enough : cs.length ≤ n)
    (clear : form.Clear seen cs) :
    (form.places false 0 cs).findSome? f = later (form.sight? f) seen cs := by
  induction n generalizing seen cs with
  | zero =>
    obtain rfl := List.eq_nil_of_length_eq_zero (Nat.le_zero.mp enough)
    rfl
  | succ n ih =>
    cases cs with
    | nil => rfl
    | cons c rest =>
      have fewer : rest.length ≤ n := Nat.le_of_succ_le_succ enough
      have last : (seen ++ [c]).reverse = c :: seen.reverse := by simp
      cases read : form.at? false (c :: rest) with
      | none =>
        have unseen (looked : form.opens (seen ++ [c]) = true) : form.closed? rest = none := by
          have edge := (opens_eq_true_iff.mp looked).1
          rw [last] at edge
          simpa [at?_behind, atEdge_cons.mp edge] using read
        simp only [places, read]
        rw [later, firstSight?_later (sight?_of_closed unseen)]
        exact ih fewer (clear.step unseen)
      | some found =>
        obtain ⟨⟨year, month⟩, behind⟩ := found
        simp only [places, read]
        rw [at?_behind, Option.ite_none_left_eq_some, Bool.not_eq_true] at read
        obtain ⟨other, closed⟩ := read
        obtain ⟨token, after, spelled, rfl, ends, rfl⟩ := closed?_eq_some_iff.mp closed
        have looked : form.opens (seen ++ [c]) = true :=
          opens_eq_true_iff.mpr ⟨last ▸ atEdge_cons.mpr other, clear.even other⟩
        rw [places_behind, findSome?_token looked spelled ends, later]
        rintro d behind rfl clear
        refine ih ?_ clear
        simp only [List.length_append, List.length_cons] at fewer
        omega

/-- The search sees at every place what stands there and is looked at. -/
theorem findSome?_places (name : List Char) :
    (form.places true 0 name).findSome? f = firstSight? (form.sight? f) [] name := by
  cases name with
  | nil =>
    have unseen : form.sight? f [] [] = none := sight?_of_closed fun _ => closed?_nil
    exact unseen.symm
  | cons c rest =>
    cases closed : form.closed? (c :: rest) with
    | none =>
      have unseen : form.sight? f [] (c :: rest) = none := sight?_of_closed fun _ => closed
      have same : form.places true 0 (c :: rest) = form.places false 0 (c :: rest) := by
        simp only [places, at?, closed, if_true]
        rfl
      have clear : form.Clear [] (c :: rest) := by
        intro front back parts reached _ token
        obtain rfl := List.eq_nil_of_length_eq_zero (Nat.le_zero.mp reached)
        rw [List.nil_append, List.nil_append] at parts
        rw [← parts, closed] at token
        exact absurd rfl token
      rw [same, firstSight?_later unseen]
      exact findSome?_behind le_rfl clear
    | some found =>
      obtain ⟨⟨year, month⟩, behind⟩ := found
      have here : form.at? true (c :: rest) = some ((year, month), behind) := by
        simp only [at?, closed, if_true]
      obtain ⟨token, after, spelled, parts, ends, rfl⟩ := closed?_eq_some_iff.mp closed
      obtain ⟨t, ts, rfl⟩ := List.exists_cons_of_ne_nil spelled.ne_nil
      rw [List.cons_append] at parts
      obtain ⟨rfl, rfl⟩ := List.cons.inj parts
      have looked : form.opens [] = true := rfl
      simp only [places, here]
      rw [places_behind, findSome?_token looked spelled ends, List.cons_append]
      intro d behind _ clear
      exact findSome?_behind le_rfl clear

end Search

end Form

/-- ASCII digits write the year and the month of a period that there is. -/
structure Writes (year month : List Char) (p : Period) : Prop where
  years : Digits year
  months : Digits month
  period : p = ⟨natural year, natural month⟩
  known : (1900 ≤ p.year ∧ p.year ≤ 2999) ∧ 1 ≤ p.month ∧ p.month ≤ 12

theorem ofDigits?_eq_some_iff {year month : List Char} {p : Period} (first : Run 4 year)
    (second : Run 2 month) : ofDigits? year month = some p ↔ Writes year month p := by
  have year_ne : year ≠ [] := List.ne_nil_of_length_pos (by rw [first.length]; decide)
  have month_ne : month ≠ [] := List.ne_nil_of_length_pos (by rw [second.length]; decide)
  simp only [ofDigits?, Reading.natural?, ofParts?, Option.bind_eq_bind, Option.bind_eq_some_iff,
    Option.ite_none_right_eq_some, List.all_eq_true]
  constructor
  · rintro ⟨n, ⟨⟨-, years⟩, same⟩, k, ⟨⟨-, months⟩, alike⟩, ⟨low, high, least, most⟩, whole⟩
    cases same
    cases alike
    cases whole
    exact ⟨years, months, rfl, ⟨low, high⟩, least, most⟩
  · rintro ⟨years, months, rfl, ⟨low, high⟩, least, most⟩
    exact ⟨_, ⟨⟨year_ne, years⟩, rfl⟩, _, ⟨⟨month_ne, months⟩, rfl⟩, ⟨low, high, least, most⟩, rfl⟩

namespace Form

/-- A token stands behind `before`, and no other digit is next to it. -/
structure StandsIn (form : Form) (name before year month : List Char) : Prop where
  starts : atEdge before.reverse = true
  ends : ∃ token after, form.Token year month token ∧ name = before ++ (token ++ after) ∧
    atEdge after = true

/-- A token for a period that there is. -/
def Valid (form : Form) (name before : List Char) (p : Period) : Prop :=
  ∃ year month, form.StandsIn name before year month ∧ Writes year month p

/-- It is not the second, fourth and so on of the tokens in a row. -/
def Taken (form : Form) (name before : List Char) (p : Period) : Prop :=
  form.inRow before % 2 = 0 ∧ form.Valid name before p

variable {form : Form} {name : List Char}

theorem valid_iff {before : List Char} {p : Period} : form.Valid name before p ↔
    atEdge before.reverse = true ∧ ∃ rest, name = before ++ rest ∧
      ((form.closed? rest).bind fun found => ofDigits? found.1.1 found.1.2) = some p := by
  constructor
  · rintro ⟨year, month, ⟨starts, token, after, spelled, rfl, ends⟩, writes⟩
    have closed := closed?_eq_some_iff.mpr ⟨token, after, spelled, rfl, ends, rfl⟩
    refine ⟨starts, token ++ after, rfl, ?_⟩
    rw [closed, Option.bind_some]
    exact (ofDigits?_eq_some_iff spelled.years spelled.months).mpr writes
  · rintro ⟨starts, rest, rfl, read⟩
    obtain ⟨⟨⟨year, month⟩, behind⟩, closed, made⟩ := Option.bind_eq_some_iff.mp read
    obtain ⟨token, after, spelled, rfl, ends, -⟩ := closed?_eq_some_iff.mp closed
    exact ⟨year, month, ⟨starts, token, after, spelled, rfl, ends⟩,
      (ofDigits?_eq_some_iff spelled.years spelled.months).mp made⟩

theorem taken_iff (before : List Char) (p : Period) : form.Taken name before p ↔
    ∃ rest, name = before ++ rest ∧
      form.sight? (fun (year, month) => ofDigits? year month) before rest = some p := by
  simp only [Taken, valid_iff, sight?, Option.ite_none_right_eq_some, opens_eq_true_iff]
  constructor
  · rintro ⟨even, starts, rest, parts, read⟩
    exact ⟨rest, parts, ⟨starts, even⟩, read⟩
  · rintro ⟨rest, parts, ⟨starts, even⟩, read⟩
    exact ⟨even, starts, rest, parts, read⟩

theorem first?_eq_some_iff {p : Period} :
    form.first? name = some p ↔ Leftmost (form.Taken name) p := by
  rw [first?, findSome?_places]
  exact firstSight?_eq_some_iff_leftmost taken_iff

theorem first?_eq_none_iff :
    form.first? name = none ↔ ∀ before p, ¬ form.Taken name before p := by
  rw [first?, findSome?_places]
  exact firstSight?_eq_none_iff_forall taken_iff

theorem inRow_eq_zero {before : List Char} (apart : ∀ front, ¬ form.Touches front before) :
    form.inRow before = 0 := by
  by_contra some
  obtain ⟨front, touches⟩ := exists_touches some
  exact apart front touches

end Form

/-- The part of a file name that is searched. -/
def searched (fileName : String) : List Char := ((Path.stem? fileName).getD fileName).toList

/-- The first form that a period is taken in gives the leftmost one. -/
def Answers (name : List Char) : Option Period → Prop
  | some p => Leftmost (Form.yearMonth.Taken name) p ∨
      (∀ before q, ¬ Form.yearMonth.Taken name before q) ∧
        (Leftmost (Form.compact.Taken name) p ∨
          (∀ before q, ¬ Form.compact.Taken name before q) ∧
            Leftmost (Form.monthYear.Taken name) p)
  | none => ∀ (form : Form) (before : List Char) (q : Period), ¬ form.Taken name before q

theorem ofFileName?_eq (fileName : String) :
    ofFileName? fileName = (Form.yearMonth.first? (searched fileName)).or
      ((Form.compact.first? (searched fileName)).or
        (Form.monthYear.first? (searched fileName))) := by
  change [Form.yearMonth, .compact, .monthYear].findSome? (·.first? (searched fileName)) = _
  simp only [List.findSome?_cons, List.findSome?_nil]
  cases Form.yearMonth.first? (searched fileName)
  · cases Form.compact.first? (searched fileName)
    · cases Form.monthYear.first? (searched fileName) <;> rfl
    · rfl
  · rfl

/-- A file name has the period of its leftmost valid token, in the first form that has one, where of
tokens in a row every second one does not count. No token is lost to one that it does not touch. -/
theorem ofFileName?_taken (fileName : String) :
    (∀ result, ofFileName? fileName = result ↔ Answers (searched fileName) result) ∧
    ∀ before p, Form.yearMonth.Valid (searched fileName) before p →
      (∀ front q, Form.yearMonth.Valid (searched fileName) front q →
        before.length ≤ front.length) →
      (∀ front, ¬ Form.yearMonth.Touches front before) → ofFileName? fileName = some p := by
  constructor
  · intro result
    rw [ofFileName?_eq]
    cases result with
    | none =>
      rw [Option.or_eq_none_iff, Option.or_eq_none_iff, Form.first?_eq_none_iff,
        Form.first?_eq_none_iff, Form.first?_eq_none_iff]
      constructor
      · rintro ⟨dashed, joined, turned⟩ form
        cases form with
        | yearMonth => exact dashed
        | compact => exact joined
        | monthYear => exact turned
      · intro none
        exact ⟨none .yearMonth, none .compact, none .monthYear⟩
    | some p =>
      rw [Option.or_eq_some_iff, Option.or_eq_some_iff, Form.first?_eq_none_iff,
        Form.first?_eq_none_iff, Form.first?_eq_some_iff, Form.first?_eq_some_iff,
        Form.first?_eq_some_iff]
      exact Iff.rfl
  · intro before p valid least apart
    have taken : Form.yearMonth.Taken (searched fileName) before p :=
      ⟨by rw [Form.inRow_eq_zero apart], valid⟩
    have found := Form.first?_eq_some_iff.mpr
      ⟨before, taken, fun front q known => least front q known.2⟩
    rw [ofFileName?_eq, found, Option.some_or]

example : ofFileName? "2024-13-2024-14-2024-05.pdf" = some ⟨2024, 5⟩ := by decide +kernel

theorem ofFileName?_taken_apart :
    Form.yearMonth.Valid (searched "MS_2024-13 of 2024-05.pdf") "MS_2024-13 of ".toList ⟨2024, 5⟩ ∧
      (∀ front, ¬ Form.yearMonth.Touches front "MS_2024-13 of ".toList) ∧
        ofFileName? "MS_2024-13 of 2024-05.pdf" = some ⟨2024, 5⟩ := by
  have valid : Form.yearMonth.Valid (searched "MS_2024-13 of 2024-05.pdf") "MS_2024-13 of ".toList
      ⟨2024, 5⟩ :=
    Form.valid_iff.mpr ⟨by decide, "2024-05".toList, by decide +kernel, by decide +kernel⟩
  have apart (front : List Char) : ¬ Form.yearMonth.Touches front "MS_2024-13 of ".toList := by
    intro touches
    have alone : Form.yearMonth.inRow "MS_2024-13 of ".toList = 0 := by decide
    rw [Form.inRow_touches touches] at alone
    cases alone
  refine ⟨valid, apart, (ofFileName?_taken _).2 _ _ valid ?_ apart⟩
  intro front q known
  obtain ⟨-, rest, parts, read⟩ := Form.valid_iff.mp known
  by_contra less
  have none : ∀ n < "MS_2024-13 of ".toList.length,
      ((Form.yearMonth.closed? ((searched "MS_2024-13 of 2024-05.pdf").drop n)).bind
        fun found => ofDigits? found.1.1 found.1.2) = none := by decide +kernel
  have here := none front.length (Nat.lt_of_not_le less)
  rw [parts, List.drop_left, read] at here
  cases here

/-- The second of two tokens is a period and is not found: the first, which is none, took the mark
between them. -/
theorem neighbour_lost :
    Form.yearMonth.Valid (searched "2024-13-2024-05.pdf") "2024-13-".toList ⟨2024, 5⟩ ∧
      Form.yearMonth.inRow "2024-13-".toList = 1 ∧ ofFileName? "2024-13-2024-05.pdf" = none :=
  ⟨Form.valid_iff.mpr ⟨by decide, "2024-05".toList, by decide +kernel, by decide +kernel⟩,
    by decide, by decide +kernel⟩

end Docket.Period
