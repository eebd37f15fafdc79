import Mathlib
import Docket.Extraction.DateText
import Docket.Proofs.Text.Digits
import Docket.Proofs.Text.Sighting

/-! Triples of joined numerals at word boundaries. The search goes on behind each triple it finds and
yet misses none: within a triple a numeral begins only behind a joint, and from there on the lengths
of the numerals are never those of another triple. -/
namespace Docket.DateText
open Text (digits_unique firstSight? firstSight?_append isWordChar_of_isDecimalDigit)

/-- Digits of any script. -/
structure IsNumeral (ds : List Char) : Prop where
  some : ds ≠ []
  digits : ∀ c ∈ ds, Text.isDecimalDigit c = true

def Within (range : Nat × Nat) (ds : List Char) : Prop :=
  range.1 ≤ ds.length ∧ ds.length ≤ range.2

namespace Triple

/-- A text begins with three joined numerals that end at a word boundary. -/
structure Spells (t : Triple) (cs : List Char) : Prop where
  first : IsNumeral t.first
  second : IsNumeral t.second
  third : IsNumeral t.third
  joints : ∃ j k, isJoint j = true ∧ isJoint k = true ∧
    cs = t.first ++ j :: (t.second ++ k :: (t.third ++ t.rest))
  ends : atBoundary t.rest = true

/-- The triple stands behind `before`, where no word goes on. -/
structure Stands (t : Triple) (before cs : List Char) : Prop where
  starts : atBoundary before.reverse = true
  spells : t.Spells cs

structure Fits (a b c : Nat × Nat) (t : Triple) : Prop where
  first : Within a t.first
  second : Within b t.second
  third : Within c t.third

end Triple

theorem not_digit_of_isJoint {j : Char} (joint : isJoint j = true) :
    Text.isDecimalDigit j = false := by
  simp only [isJoint, Bool.or_eq_true, beq_iff_eq] at joint
  rcases joint with (rfl | rfl) | rfl <;> decide

theorem takeWhile_joint {j : Char} (joint : isJoint j = true) (rest : List Char) :
    (j :: rest).takeWhile Text.isDecimalDigit = [] :=
  List.takeWhile_cons_of_neg (by simp [not_digit_of_isJoint joint])

theorem takeWhile_boundary {rest : List Char} (ends : atBoundary rest = true) :
    rest.takeWhile Text.isDecimalDigit = [] := by
  cases rest with
  | nil => rfl
  | cons c rest =>
    apply List.takeWhile_cons_of_neg
    intro digit
    rw [atBoundary, isWordChar_of_isDecimalDigit digit] at ends
    cases ends

theorem digits_eq_some {lo hi : Nat} {cs ds rest : List Char}
    (read : digits lo hi cs = some (ds, rest)) :
    cs = ds ++ rest ∧ (∀ c ∈ ds, Text.isDecimalDigit c = true) ∧ Within (lo, hi) ds := by
  rw [digits] at read
  split at read
  · rename_i enough
    cases read
    have start : (cs.takeWhile Text.isDecimalDigit).take hi <+: cs :=
      (List.take_prefix hi _).trans (List.takeWhile_prefix _)
    refine ⟨(List.prefix_append_drop start), fun c known => ?_, enough, List.length_take_le hi _⟩
    exact List.mem_takeWhile_imp (List.mem_of_mem_take known)
  · cases read

theorem digits_append {range : Nat × Nat} {ds rest : List Char}
    (known : ∀ c ∈ ds, Text.isDecimalDigit c = true) (within : Within range ds)
    (ends : rest.takeWhile Text.isDecimalDigit = []) :
    digits range.1 range.2 (ds ++ rest) = some (ds, rest) := by
  rw [digits, (Reading.takeWhile_stretch known ends).1, List.take_of_length_le within.2,
    if_pos within.1, List.drop_left]

theorem joint_eq_some_iff {cs rest : List Char} :
    joint cs = some rest ↔ ∃ j, isJoint j = true ∧ cs = j :: rest := by
  cases cs with
  | nil => simp [joint]
  | cons c cs =>
    rw [joint]
    split
    · rename_i known
      simp only [Option.some.injEq, List.cons.injEq]
      constructor
      · rintro rfl
        exact ⟨c, known, rfl, rfl⟩
      · rintro ⟨j, -, -, rfl⟩
        rfl
    · rename_i other
      simp only [List.cons.injEq, reduceCtorEq, false_iff, not_exists]
      rintro j ⟨known, rfl, -⟩
      exact other known

theorem isNumeral_of_within {range : Nat × Nat} (positive : 1 ≤ range.1) {ds : List Char}
    (digits : ∀ c ∈ ds, Text.isDecimalDigit c = true) (within : Within range ds) : IsNumeral ds :=
  ⟨List.ne_nil_of_length_pos (positive.trans within.1), digits⟩

section Ranges
variable {a b c : Nat × Nat}

/-- A numeral of each length is at least one digit. -/
structure Positive (a b c : Nat × Nat) : Prop where
  first : 1 ≤ a.1
  second : 1 ≤ b.1
  third : 1 ≤ c.1

theorem triple?_eq_some_iff (positive : Positive a b c) {cs : List Char} {t : Triple} :
    triple? a b c cs = some t ↔ t.Spells cs ∧ t.Fits a b c := by
  constructor
  · intro read
    simp only [triple?, Option.bind_eq_bind, Option.bind_eq_some_iff] at read
    obtain ⟨⟨x, _⟩, first, _, behindFirst, ⟨y, _⟩, second, _, behindSecond, ⟨z, rest⟩, third,
      read⟩ := read
    split at read
    · rename_i ends
      cases read
      obtain ⟨rfl, xs, fits⟩ := digits_eq_some first
      obtain ⟨j, joint, rfl⟩ := joint_eq_some_iff.mp behindFirst
      obtain ⟨rfl, ys, suits⟩ := digits_eq_some second
      obtain ⟨k, link, rfl⟩ := joint_eq_some_iff.mp behindSecond
      obtain ⟨rfl, zs, goes⟩ := digits_eq_some third
      exact ⟨⟨isNumeral_of_within positive.first xs fits, isNumeral_of_within positive.second ys suits,
        isNumeral_of_within positive.third zs goes, ⟨j, k, joint, link, rfl⟩, ends⟩, fits, suits, goes⟩
    · cases read
  · rintro ⟨⟨xs, ys, zs, ⟨j, k, joint, link, rfl⟩, ends⟩, fits, suits, goes⟩
    have first := digits_append xs.digits fits (takeWhile_joint joint (t.second ++ k :: (t.third ++ t.rest)))
    have second := digits_append ys.digits suits (takeWhile_joint link (t.third ++ t.rest))
    have third := digits_append zs.digits goes (takeWhile_boundary ends)
    simp only [triple?, first, joint_eq_some_iff.mpr ⟨j, joint, rfl⟩, second,
      joint_eq_some_iff.mpr ⟨k, link, rfl⟩, third, Option.bind_eq_bind, Option.bind_some, ends, if_true]

/-- No numeral can be the first of a triple that is the third of another, and none the first that is
the second of another which goes on as it must. -/
structure Apart (a b c : Nat × Nat) : Prop where
  last : a.2 < c.1 ∨ c.2 < a.1
  middle : (a.2 < b.1 ∨ b.2 < a.1) ∨ b.2 < c.1 ∨ c.2 < b.1

theorem Within.not {range other : Nat × Nat} (apart : range.2 < other.1 ∨ other.2 < range.1)
    {ds : List Char} (within : Within range ds) : ¬ Within other ds := by
  rintro ⟨low, high⟩
  obtain ⟨least, most⟩ := within
  omega

theorem triple?_eq_none (positive : Positive a b c) {cs : List Char}
    (none : ∀ t : Triple, t.Spells cs → ¬ t.Fits a b c) : triple? a b c cs = Option.none := by
  refine Option.eq_none_iff_forall_ne_some.mpr fun t read => ?_
  obtain ⟨spells, fits⟩ := (triple?_eq_some_iff positive).mp read
  exact none t spells fits

theorem triple?_third (positive : Positive a b c) (apart : Apart a b c) {z rest : List Char}
    (third : IsNumeral z) (within : Within c z) (ends : atBoundary rest = true) :
    triple? a b c (z ++ rest) = none := by
  refine triple?_eq_none positive fun t spells fits => ?_
  obtain ⟨j, k, joint, -, parts⟩ := spells.joints
  obtain ⟨rfl, -⟩ := digits_unique third.digits spells.first.digits (takeWhile_boundary ends)
    (takeWhile_joint joint _) parts
  exact fits.first.not apart.last within

theorem triple?_second (positive : Positive a b c) (apart : Apart a b c) {y z rest : List Char}
    {k : Char} (second : IsNumeral y) (third : IsNumeral z) (link : isJoint k = true)
    (within : Within b y) (goes : Within c z) (ends : atBoundary rest = true) :
    triple? a b c (y ++ k :: (z ++ rest)) = none := by
  refine triple?_eq_none positive fun t spells fits => ?_
  obtain ⟨j, l, joint, last, parts⟩ := spells.joints
  obtain ⟨rfl, tails⟩ := digits_unique second.digits spells.first.digits (takeWhile_joint link _)
    (takeWhile_joint joint _) parts
  obtain ⟨-, tails⟩ := List.cons.inj tails
  obtain ⟨rfl, -⟩ := digits_unique third.digits spells.second.digits (takeWhile_boundary ends)
    (takeWhile_joint last _) tails
  rcases apart.middle with first | second
  · exact fits.first.not first within
  · exact fits.second.not second goes

theorem triple?_nil (positive : Positive a b c) : triple? a b c [] = none := by
  refine triple?_eq_none positive fun t spells _ => ?_
  obtain ⟨_, _, -, -, parts⟩ := spells.joints
  exact spells.first.some (List.nil_eq_append_iff.mp parts).1

theorem triple?_joint (positive : Positive a b c) {j : Char} (joint : isJoint j = true)
    (rest : List Char) : triple? a b c (j :: rest) = none := by
  refine triple?_eq_none positive fun t spells _ => ?_
  obtain ⟨_, _, -, -, parts⟩ := spells.joints
  obtain ⟨d, ds, starts⟩ := List.exists_cons_of_ne_nil spells.first.some
  rw [starts, List.cons_append] at parts
  have digit := spells.first.digits d (starts ▸ List.mem_cons_self)
  rw [← (List.cons.inj parts).1, not_digit_of_isJoint joint] at digit
  cases digit

/-- What a triple at a place is read as, if one stands there. -/
def sight? {α : Type} (a b c : Nat × Nat) (f : Triple → Option α) (before rest : List Char) :
    Option α :=
  if atBoundary before.reverse then (triple? a b c rest).bind f else none

section Sight
variable {α : Type} {f : Triple → Option α} {seen : List Char}

theorem sight?_eq_some_iff (positive : Positive a b c) {before rest : List Char} {x : α} :
    sight? a b c f before rest = some x ↔
      ∃ t : Triple, t.Stands before rest ∧ t.Fits a b c ∧ f t = some x := by
  rw [sight?]
  split
  · rename_i starts
    simp only [Option.bind_eq_some_iff, triple?_eq_some_iff positive]
    constructor
    · rintro ⟨t, ⟨spells, fits⟩, read⟩
      exact ⟨t, ⟨starts, spells⟩, fits, read⟩
    · rintro ⟨t, stands, fits, read⟩
      exact ⟨t, ⟨stands.spells, fits⟩, read⟩
  · rename_i inside
    constructor
    · rintro ⟨⟩
    · rintro ⟨t, stands, -⟩
      exact absurd stands.starts inside

theorem sight?_of_none {rest : List Char} (none : triple? a b c rest = none) :
    sight? a b c f seen rest = Option.none := by
  rw [sight?, none, Option.bind_none, ite_self]

theorem atBoundary_digits {ds : List Char} (known : IsNumeral ds) :
    atBoundary (seen ++ ds).reverse = false := by
  obtain ⟨d, rest, parts⟩ :=
    List.exists_cons_of_ne_nil (List.reverse_ne_nil_iff.mpr known.some)
  have among : d ∈ ds := List.mem_reverse.mp (parts ▸ List.mem_cons_self)
  rw [List.reverse_append, parts, List.cons_append, atBoundary,
    isWordChar_of_isDecimalDigit (known.digits d among), Bool.not_true]

/-- Within a numeral only its first digit can begin a triple. -/
theorem firstSight?_numeral {ds : List Char} (known : IsNumeral ds) (rest : List Char) :
    firstSight? (sight? a b c f) seen (ds ++ rest) =
      (sight? a b c f seen (ds ++ rest)).or (firstSight? (sight? a b c f) (seen ++ ds) rest) := by
  obtain ⟨d, ds, rfl⟩ := List.exists_cons_of_ne_nil known.some
  rw [List.cons_append, firstSight?, firstSight?_append rest, ← List.append_cons]
  intro before back parts _
  have start : d :: before <+: d :: ds := ⟨back, by rw [parts, List.cons_append]⟩
  have digits : IsNumeral (d :: before) :=
    ⟨List.cons_ne_nil d before, fun c among => known.digits c (start.subset among)⟩
  rw [sight?, ← List.append_cons, atBoundary_digits digits, if_neg Bool.false_ne_true]

theorem firstSight?_joint (positive : Positive a b c) {j : Char} (joint : isJoint j = true)
    (rest : List Char) : firstSight? (sight? a b c f) seen (j :: rest) =
      firstSight? (sight? a b c f) (seen ++ [j]) rest := by
  rw [firstSight?, sight?_of_none (triple?_joint positive joint rest), Option.none_or]

/-- Behind a triple the search goes on as if it had looked at every place within. -/
theorem firstSight?_triple (positive : Positive a b c) (apart : Apart a b c) {t : Triple}
    {cs : List Char} (stands : t.Stands seen cs) (fits : t.Fits a b c) :
    ∃ passed, cs = passed ++ t.rest ∧ atBoundary (seen ++ passed).reverse = false ∧
      firstSight? (sight? a b c f) seen cs =
        (f t).or (firstSight? (sight? a b c f) (seen ++ passed) t.rest) := by
  obtain ⟨starts, spells⟩ := stands
  have here : sight? a b c f seen cs = f t := by
    rw [sight?, if_pos starts, (triple?_eq_some_iff positive).mpr ⟨spells, fits⟩, Option.bind_some]
  obtain ⟨j, k, joint, link, rfl⟩ := spells.joints
  have second : sight? a b c f (seen ++ t.first ++ [j]) (t.second ++ k :: (t.third ++ t.rest)) =
      none := sight?_of_none
    (triple?_second positive apart spells.second spells.third link fits.second fits.third spells.ends)
  have third : sight? a b c f (seen ++ t.first ++ [j] ++ t.second ++ [k]) (t.third ++ t.rest) =
      none := sight?_of_none (triple?_third positive apart spells.third fits.third spells.ends)
  have all : seen ++ (t.first ++ [j] ++ t.second ++ [k] ++ t.third) =
      seen ++ t.first ++ [j] ++ t.second ++ [k] ++ t.third := by simp only [List.append_assoc]
  refine ⟨t.first ++ [j] ++ t.second ++ [k] ++ t.third, by simp, ?_, ?_⟩
  · rw [all]
    exact atBoundary_digits spells.third
  · rw [firstSight?_numeral spells.first, here, firstSight?_joint positive joint,
      firstSight?_numeral spells.second, second, Option.none_or, firstSight?_joint positive link,
      firstSight?_numeral spells.third, third, Option.none_or, all]

/-- The search sees at every place what stands there. -/
theorem findSome?_go (positive : Positive a b c) (apart : Apart a b c) (seen : List Char) {n : Nat}
    {cs : List Char} (enough : cs.length ≤ n) :
    (triples.go a b c n (!atBoundary seen.reverse) cs).findSome? f =
      firstSight? (sight? a b c f) seen cs := by
  induction n generalizing seen cs with
  | zero =>
    obtain rfl := List.eq_nil_of_length_eq_zero (Nat.le_zero.mp enough)
    exact (sight?_of_none (triple?_nil positive)).symm
  | succ n ih =>
    cases found : if !atBoundary seen.reverse then none else triple? a b c cs with
    | some t =>
      have read := found
      simp only [Bool.not_eq_true', Option.ite_none_left_eq_some, Bool.not_eq_false] at read
      obtain ⟨starts, read⟩ := read
      obtain ⟨spells, fits⟩ := (triple?_eq_some_iff positive).mp read
      obtain ⟨passed, rfl, inside, same⟩ :=
        firstSight?_triple (f := f) positive apart ⟨starts, spells⟩ fits
      have some : passed ≠ [] := by
        rintro rfl
        rw [List.append_nil, starts] at inside
        cases inside
      have fewer : t.rest.length ≤ n := by
        have one := List.length_pos_iff.mpr some
        rw [List.length_append] at enough
        omega
      have later := ih (seen ++ passed) fewer
      rw [inside, Bool.not_false] at later
      simp only [triples.go, found]
      rw [List.findSome?_cons, same, ← later]
      cases f t <;> rfl
    | none =>
      have unseen : sight? a b c f seen cs = none := by
        rw [sight?]
        cases starts : atBoundary seen.reverse with
        | false => rfl
        | true =>
          rw [starts] at found
          exact congrArg (·.bind f) found
      simp only [triples.go, found]
      cases cs with
      | nil => exact unseen.symm
      | cons ch rest =>
        have later := ih (seen ++ [ch]) (Nat.le_of_succ_le_succ enough)
        rw [List.reverse_append, List.reverse_singleton, List.singleton_append, atBoundary,
          Bool.not_not] at later
        rw [firstSight?, unseen, Option.none_or]
        exact later

end Sight

theorem findSome?_triples (positive : Positive a b c) (apart : Apart a b c) {α : Type}
    (f : Triple → Option α) (cs : List Char) :
    (triples a b c false cs).findSome? f = firstSight? (sight? a b c f) [] cs :=
  findSome?_go positive apart [] le_rfl

end Ranges

end Docket.DateText
