import Mathlib
import Docket.Extraction.Numeral
import Docket.Proofs.Extraction.Separators
import Docket.Proofs.Number.Places
import Docket.Proofs.Text.Digits

/-! Which digits of a numeral its decimal is made of. A numeral is found in the digits of any script,
but only those of ASCII are read. The others are passed over like the marks between groups, and the
number is that of the digits left. -/
namespace Docket
open Reading (Digits natural natural_append)
open Text (isDecimalDigit isDecimalDigit_of_isDigit)

namespace Decimal96

theorem digits_of_readFraction {ds : List Char} {m s : Nat} {d : Decimal96}
    (read : readFraction m s ds = some d) : Digits ds := by
  induction ds generalizing m s with
  | nil => exact List.forall_mem_nil _
  | cons c ds ih =>
    rw [readFraction] at read
    split at read
    · cases read
    · rename_i known
      have digit : Reading.isDigit c = true := by
        rw [Reading.digit?, Option.ite_none_right_eq_some] at known
        simpa [Reading.isDigit] using known.1
      refine List.forall_mem_cons.mpr ⟨digit, ?_⟩
      split at read
      · exact ih read
      · split at read
        · cases read
        · rename_i rest
          exact List.all_eq_true.mp (by simpa using rest)

/-- What is behind the first mark, and so behind the point. -/
def places (text : List Char) : List Char := (text.dropWhile Reading.isDigit).tail

/-- A text that is read has nothing but digits and a point. If they fit, the decimal is the number
they write. -/
structure Reads (text : List Char) (d : Decimal96) : Prop where
  plain : ∀ c ∈ text, Reading.isDigit c = true ∨ c = '.'
  number : natural (text.filter Reading.isDigit) < limit → (places text).length ≤ maxScale →
    d = ⟨false, natural (text.filter Reading.isDigit), (places text).length⟩

theorem reads_of_parts {text whole fraction : List Char} {d : Decimal96} (digits : Digits whole)
    (parts : text = whole ∧ fraction = [] ∨ text = whole ++ '.' :: fraction)
    (read : readFraction (natural whole) 0 fraction = some d) : Reads text d := by
  have behind := digits_of_readFraction read
  have value (room : natural (whole ++ fraction) < limit) (few : fraction.length ≤ maxScale) :
      d = ⟨false, natural (whole ++ fraction), fraction.length⟩ := by
    rw [natural_append] at room ⊢
    rw [readFraction_fits behind room (by omega), Option.some_inj, Nat.zero_add] at read
    exact read.symm
  have all : whole.filter Reading.isDigit = whole := List.filter_eq_self.mpr digits
  rcases parts with ⟨rfl, rfl⟩ | rfl
  · have none : places text = [] := by
      rw [places, List.dropWhile_eq_nil_iff.mpr digits]
      rfl
    refine ⟨fun c among => .inl (digits c among), ?_⟩
    rw [all, none]
    rwa [List.append_nil] at value
  · have rest : places (whole ++ '.' :: fraction) = fraction := by
      rw [places, List.dropWhile_append_of_pos digits]
      rfl
    have kept : (whole ++ '.' :: fraction).filter Reading.isDigit = whole ++ fraction := by
      rw [List.filter_append, all, List.filter_cons_of_neg (by decide),
        List.filter_eq_self.mpr behind]
    refine ⟨?_, by rwa [rest, kept]⟩
    intro c among
    rcases List.mem_append.mp among with front | back
    · exact .inl (digits c front)
    · rcases List.mem_cons.mp back with rfl | back
      · exact .inr rfl
      · exact .inl (behind c back)

theorem reads_of_read? {text : List Char} {d : Decimal96} (read : read? text = some d) :
    Reads text d := by
  have digits : Digits (text.takeWhile Reading.isDigit) := fun _ => List.mem_takeWhile_imp
  have parts := List.takeWhile_append_dropWhile (p := Reading.isDigit) (l := text)
  simp only [read?] at read
  split at read
  · cases read
  · rename_i fraction known
    simp only [Option.ite_none_left_eq_some] at read
    refine reads_of_parts digits ?_ read.2.2
    split at known
    · rename_i none
      cases known
      rw [none, List.append_nil] at parts
      exact .inl ⟨parts.symm, rfl⟩
    · rename_i rest
      cases known
      rw [rest] at parts
      exact .inr parts.symm
    · cases known

end Decimal96

namespace Numeral

theorem filter_without {p : Char → Bool} {mark : Char} (other : p mark = false) (cs : List Char) :
    (without mark cs).filter p = cs.filter p := by
  rw [without, List.filter_filter]
  apply List.filter_congr
  intro c _
  by_cases same : c = mark
  · rw [same, other, Bool.false_and]
  · simp [same]

theorem filter_replace {p : Char → Bool} {a b : Char} (first : p a = false) (second : p b = false)
    (cs : List Char) : (replace a b cs).filter p = cs.filter p := by
  induction cs with
  | nil => rfl
  | cons c cs ih =>
    rw [replace, List.map_cons, List.filter_cons, List.filter_cons, ← replace, ih]
    by_cases same : c = a
    · simp [same, first, second]
    · rw [if_neg same]

/-- The choice of a decimal point moves marks only. -/
theorem filter_withPoint {p : Char → Bool} (comma : p ',' = false) (point : p '.' = false)
    (cs : List Char) : (withPoint cs).filter p = cs.filter p := by
  unfold withPoint
  split
  · split
    · rw [filter_replace comma point, filter_without point]
    · rw [filter_without comma]
  · dsimp only
    split
    · rw [filter_replace comma point]
    · rw [filter_without comma]
  · split
    · rw [filter_without point]
    · rfl
  · rfl

/-- The text that the decimal of a numeral is read from. -/
def fed (text : List Char) : List Char := withPoint (text.filter isNumeralChar)

/-- A numeral without the digits that are not of ASCII. -/
def ascii (text : List Char) : List Char :=
  text.filter fun c => !isDecimalDigit c || Reading.isDigit c

/-- Of the characters that a numeral is read from the digits are those of ASCII. -/
theorem digit_of_isNumeralChar {c : Char} (known : isNumeralChar c = true) :
    isDecimalDigit c = Reading.isDigit c := by
  simp only [isNumeralChar, Bool.or_eq_true, beq_iff_eq] at known
  rcases known with (digit | rfl) | rfl
  · rw [isDecimalDigit_of_isDigit digit, digit]
  · rfl
  · rfl

theorem filter_isDigit_fed (text : List Char) :
    (fed text).filter Reading.isDigit = text.filter Reading.isDigit := by
  rw [fed, filter_withPoint rfl rfl, List.filter_filter]
  apply List.filter_congr
  intro c _
  cases digit : Reading.isDigit c
  · rfl
  · rw [isNumeralChar_of_digit digit, Bool.and_self]

theorem filter_isDecimalDigit_fed (text : List Char) :
    (fed text).filter isDecimalDigit = text.filter Reading.isDigit := by
  rw [← filter_isDigit_fed, fed, filter_withPoint rfl rfl, filter_withPoint rfl rfl]
  apply List.filter_congr
  intro c among
  exact digit_of_isNumeralChar (List.mem_filter.mp among).2

theorem fed_ascii (text : List Char) : fed (ascii text) = fed text := by
  rw [fed, ascii, List.filter_filter, fed]
  congr 1
  apply List.filter_congr
  intro c _
  cases known : isNumeralChar c
  · rfl
  · rw [digit_of_isNumeralChar known, Bool.not_or_self, Bool.and_self]

/-- What the decimal of a numeral is made of: the ASCII digits in their order. They are all that was
found only if no other digits are there, and without those it is the same. -/
structure Feeds (text : List Char) (d : Decimal96) : Prop where
  plain : ∀ c ∈ fed text, Reading.isDigit c = true ∨ c = '.'
  digits : (fed text).filter isDecimalDigit = text.filter Reading.isDigit
  all_iff : (fed text).filter isDecimalDigit = text.filter isDecimalDigit ↔
    ∀ c ∈ text, isDecimalDigit c = true → Reading.isDigit c = true
  others : value? (ascii text) = some d
  number : natural (text.filter Reading.isDigit) < Decimal96.limit →
    (Decimal96.places (fed text)).length ≤ Decimal96.maxScale →
      d = ⟨false, natural (text.filter Reading.isDigit), (Decimal96.places (fed text)).length⟩

theorem feeds_of_value? {text : List Char} {d : Decimal96} (read : value? text = some d) :
    Feeds text d := by
  obtain ⟨plain, number⟩ := Decimal96.reads_of_read? read
  have digits := filter_isDecimalDigit_fed text
  refine ⟨plain, digits, ?_, ?_, filter_isDigit_fed text ▸ number⟩
  · rw [digits]
    constructor
    · intro same c among digit
      have found : c ∈ text.filter isDecimalDigit := List.mem_filter.mpr ⟨among, digit⟩
      exact (List.mem_filter.mp (same ▸ found)).2
    · intro ascii
      apply List.filter_congr
      intro c among
      exact Bool.eq_iff_iff.mpr ⟨isDecimalDigit_of_isDigit, ascii c among⟩
  · rw [← read]
    exact congrArg Decimal96.read? (fed_ascii text)

theorem feeds_of_found {α : Type} (out : Decimal96 → α) {found : Option Found} {x : α}
    (read : (found.bind fun f => f.value?.map out) = some x) : ∃ f d, found = some f ∧
      value? f.text = some d ∧ x = out (if f.negative then d.neg else d) ∧ Feeds f.text d := by
  obtain ⟨f, known, value⟩ := Option.bind_eq_some_iff.mp read
  obtain ⟨e, signed, rfl⟩ := Option.map_eq_some_iff.mp value
  obtain ⟨d, unsigned, rfl⟩ := Option.map_eq_some_iff.mp signed
  exact ⟨f, d, known, unsigned, rfl, feeds_of_value? unsigned⟩

/-- The first number of a text and the first percentage are made of the ASCII digits of the numeral
that was found. -/
theorem first_feeds (text : String) :
    (∀ x, firstNumber? text = some x → ∃ f d, first? number? text.toList = some f ∧
      value? f.text = some d ∧ x = (if f.negative then d.neg else d).toFloat ∧ Feeds f.text d) ∧
    (∀ x, firstPercentage? text = some x → ∃ f d, first? percentage? text.toList = some f ∧
      value? f.text = some d ∧ x = (if f.negative then d.neg else d).hundredth.toFloat ∧
        Feeds f.text d) := by
  constructor
  · intro x found
    exact feeds_of_found Decimal96.toFloat found
  · intro x found
    exact feeds_of_found (fun d => d.hundredth.toFloat) found

theorem first_feeds_mixed : (firstNumber? "-1٢٣4.50 %" = some (-14.5) ∧
      ∃ f d, first? number? "-1٢٣4.50 %".toList = some f ∧ value? f.text = some d ∧
        -14.5 = (if f.negative then d.neg else d).toFloat ∧ Feeds f.text d) ∧
    (firstPercentage? "-1٢٣4.50 %" = some (-0.145) ∧
      ∃ f d, first? percentage? "-1٢٣4.50 %".toList = some f ∧ value? f.text = some d ∧
        -0.145 = (if f.negative then d.neg else d).hundredth.toFloat ∧ Feeds f.text d) := by
  obtain ⟨numbers, percentages⟩ := first_feeds "-1٢٣4.50 %"
  have number : firstNumber? "-1٢٣4.50 %" = some (-14.5) := by decide +kernel
  have percentage : firstPercentage? "-1٢٣4.50 %" = some (-0.145) := by decide +kernel
  exact ⟨⟨number, numbers _ number⟩, percentage, percentages _ percentage⟩

/-- The last of three digits is found and not read. -/
theorem foreignDigit_dropped : first? number? "12٣".toList = some ⟨false, "12٣".toList⟩ ∧
    firstNumber? "12٣" = some 12 ∧ fed "12٣".toList = "12".toList ∧
      (fed "12٣".toList).filter isDecimalDigit ≠ "12٣".toList.filter isDecimalDigit :=
  ⟨by decide, by decide +kernel, by decide, by decide⟩

end Numeral
end Docket
