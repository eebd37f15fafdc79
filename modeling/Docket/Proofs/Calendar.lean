import Mathlib
import Docket.Extraction.DateText
import Docket.Timestamp
import Docket.Proofs.Number.Plain

/-! Dates and timestamps read back from their texts. Days are counted in eras of 400 years, so the
count and the calendar agree once they agree on the days of one era. -/
namespace Docket.Date

/-- A day of an era of 400 years, by its century, its four years, its year and its place there.
Years begin in March, so that a leap day is the last day of its year. -/
structure DayParts (n c q s d : Int) : Prop where
  day : n = 36524 * c + 1461 * q + 365 * s + d
  century : 0 ≤ c ∧ c ≤ 3
  four : 0 ≤ q ∧ q ≤ 24
  single : 0 ≤ s ∧ s ≤ 3
  place : 0 ≤ d ∧ d ≤ 365
  leap : d = 365 → s = 3 ∧ (q ≤ 23 ∨ c = 3)

theorem exists_dayParts {n : Int} (low : 0 ≤ n) (high : n < 146097) :
    ∃ c q s d, DayParts n c q s d := by
  have century : ∃ c r, n = 36524 * c + r ∧ 0 ≤ c ∧ c ≤ 3 ∧ 0 ≤ r ∧
      (r ≤ 36523 ∨ c = 3 ∧ r ≤ 36524) := by
    refine ⟨min (n / 36524) 3, n - 36524 * min (n / 36524) 3, by omega, ?_⟩
    omega
  obtain ⟨c, r, rfl, c0, c3, r0, r1⟩ := century
  have four : ∃ q t, r = 1461 * q + t ∧ 0 ≤ q ∧ q ≤ 24 ∧ 0 ≤ t ∧ t ≤ 1460 ∧
      (t = 1460 → q ≤ 23 ∨ c = 3) := by
    refine ⟨r / 1461, r % 1461, by omega, ?_⟩
    omega
  obtain ⟨q, t, rfl, q0, q3, t0, t1, ends⟩ := four
  have single : ∃ s d, t = 365 * s + d ∧ 0 ≤ s ∧ s ≤ 3 ∧ 0 ≤ d ∧ d ≤ 365 ∧
      (d = 365 → s = 3) := by
    refine ⟨min (t / 365) 3, t - 365 * min (t / 365) 3, by omega, ?_⟩
    omega
  obtain ⟨s, d, rfl, s0, s3, d0, d1, last⟩ := single
  refine ⟨c, q, s, d, by omega, ⟨c0, c3⟩, ⟨q0, q3⟩, ⟨s0, s3⟩, ⟨d0, d1⟩, fun leap => ?_⟩
  have fourth := last leap
  exact ⟨fourth, ends (by omega)⟩

theorem DayParts.year {n c q s d : Int} (parts : DayParts n c q s d) :
    (n - n / 1460 + n / 36524 - n / 146096) / 365 = 100 * c + 4 * q + s := by
  obtain ⟨day, ⟨c0, c3⟩, ⟨q0, q3⟩, ⟨s0, s3⟩, ⟨d0, d1⟩, leap⟩ := parts
  -- the last day of the era counts once as a century and once as an era
  have centuries : n / 36524 - n / 146096 = c := by
    by_cases last : n = 146096
    · subst last
      omega
    · have whole : n / 146096 = 0 := by omega
      have century : n / 36524 = c := by omega
      omega
  by_cases passed : 24 * c + q + 365 * s + d < 1460
  · have fours : n / 1460 = 25 * c + q := by omega
    have short : d ≤ 364 := by omega
    omega
  · have fours : n / 1460 = 25 * c + q + 1 := by omega
    omega

/-- A day of a year that begins in March. -/
def ofMarch (year d : Int) : Date :=
  let m := (5 * d + 2) / 153
  let month := if m < 10 then m + 3 else m - 9
  ⟨year + (if month ≤ 2 then 1 else 0), month.toNat, (d - (153 * m + 2) / 5 + 1).toNat⟩

theorem ofDayNumber_eq (n : Int) : ∃ era c q s d,
    DayParts (n + 719468 - era * 146097) c q s d ∧
      ofDayNumber n = ofMarch (100 * c + 4 * q + s + era * 400) d := by
  obtain ⟨c, q, s, d, parts⟩ := exists_dayParts (n := n + 719468 - (n + 719468) / 146097 * 146097)
    (by omega) (by omega)
  refine ⟨(n + 719468) / 146097, c, q, s, d, parts, ?_⟩
  have eras : (n + 719468).fdiv 146097 = (n + 719468) / 146097 :=
    Int.fdiv_eq_ediv_of_nonneg _ (by decide)
  have place : n + 719468 - (n + 719468) / 146097 * 146097 - (365 * (100 * c + 4 * q + s) +
      (100 * c + 4 * q + s) / 4 - (100 * c + 4 * q + s) / 100) = d := by
    obtain ⟨day, ⟨c0, c3⟩, ⟨q0, q3⟩, ⟨s0, s3⟩, -, -⟩ := parts
    omega
  simp only [ofDayNumber, eras, parts.year, place, ofMarch]

/-- The months from March to December belong to the year, January and February to the next. -/
theorem ofMarch_cases (year : Int) {d : Int} (low : 0 ≤ d) (high : d ≤ 365) :
    ∃ m : Nat, m = (5 * d + 2) / 153 ∧
      (m ≤ 9 ∧ ofMarch year d = ⟨year, m + 3, (d - (153 * m + 2) / 5 + 1).toNat⟩ ∨
        10 ≤ m ∧ m ≤ 11 ∧
          ofMarch year d = ⟨year + 1, m - 9, (d - (153 * m + 2) / 5 + 1).toNat⟩) := by
  have whole : (((5 * d + 2) / 153).toNat : Int) = (5 * d + 2) / 153 := by omega
  refine ⟨((5 * d + 2) / 153).toNat, whole, ?_⟩
  by_cases early : (5 * d + 2) / 153 < 10
  · have late : ¬ (5 * d + 2) / 153 + 3 ≤ 2 := by omega
    have month : ((5 * d + 2) / 153 + 3).toNat = ((5 * d + 2) / 153).toNat + 3 := by omega
    refine .inl ⟨by omega, ?_⟩
    simp only [ofMarch, if_pos early, if_neg late, whole, month, add_zero]
  · have winter : (5 * d + 2) / 153 - 9 ≤ 2 := by omega
    have month : ((5 * d + 2) / 153 - 9).toNat = ((5 * d + 2) / 153).toNat - 9 := by omega
    refine .inr ⟨by omega, by omega, ?_⟩
    simp only [ofMarch, if_neg early, if_pos winter, whole, month]

theorem dayNumber_ofMarch (year : Int) {d : Int} (low : 0 ≤ d) (high : d ≤ 365) :
    dayNumber (ofMarch year d) = year / 400 * 146097 +
      ((year - year / 400 * 400) * 365 + (year - year / 400 * 400) / 4 -
        (year - year / 400 * 400) / 100 + d) - 719468 := by
  have eras (y : Int) : y.fdiv 400 = y / 400 := Int.fdiv_eq_ediv_of_nonneg y (by decide)
  obtain ⟨m, month, ⟨early, date⟩ | ⟨late, last, date⟩⟩ := ofMarch_cases year low high
  · have behind : ¬ m + 3 ≤ 2 := by omega
    have back : (((m + 3 : Nat) : Int) + 9) % 12 = m := by omega
    simp only [date, dayNumber, eras, if_neg behind, back]
    omega
  · have before : m - 9 ≤ 2 := by omega
    have back : (((m - 9 : Nat) : Int) + 9) % 12 = m := by omega
    simp only [date, dayNumber, eras, if_pos before, back, add_sub_cancel_right]
    omega

theorem DayParts.isLeap {n c q s d : Int} (parts : DayParts n c q s d) (last : d = 365)
    (era : Int) :
    isLeap (100 * c + 4 * q + s + era * 400 + 1) = true := by
  obtain ⟨-, ⟨c0, c3⟩, ⟨q0, q3⟩, -, -, leap⟩ := parts
  obtain ⟨rfl, inside⟩ := leap last
  simp only [Date.isLeap, Bool.and_eq_true, Bool.or_eq_true, beq_iff_eq, bne_iff_ne]
  omega

theorem dayNumber_ofDayNumber (n : Int) : dayNumber (ofDayNumber n) = n := by
  obtain ⟨era, c, q, s, d, parts, same⟩ := ofDayNumber_eq n
  rw [same, dayNumber_ofMarch _ parts.place.1 parts.place.2]
  obtain ⟨day, ⟨c0, c3⟩, ⟨q0, q3⟩, ⟨s0, s3⟩, -, -⟩ := parts
  have eras : (100 * c + 4 * q + s + era * 400) / 400 = era := by omega
  rw [eras, add_sub_cancel_right]
  omega

/-- A day that the calendar has. -/
structure InCalendar (d : Date) : Prop where
  year : yearInRange d.year = true
  first : 1 ≤ d.day
  last : d.day ≤ daysIn d.year d.month

theorem inCalendar_ofDayNumber {n : Int} (range : yearInRange (ofDayNumber n).year = true) :
    InCalendar (ofDayNumber n) := by
  obtain ⟨era, c, q, s, d, parts, same⟩ := ofDayNumber_eq n
  obtain ⟨m, month, ⟨early, date⟩ | ⟨late, last, date⟩⟩ :=
    ofMarch_cases (100 * c + 4 * q + s + era * 400) parts.place.1 parts.place.2
  · refine ⟨range, ?_, ?_⟩
    · simp only [same, date]
      omega
    · rw [same, date]
      interval_cases m <;> simp only [daysIn] <;> omega
  · refine ⟨range, ?_, ?_⟩
    · simp only [same, date]
      omega
    · rw [same, date]
      obtain rfl | rfl : m = 10 ∨ m = 11 := by omega
      · simp only [daysIn]
        omega
      · simp only [daysIn]
        split
        · have place := parts.place
          omega
        · rename_i common
          have short : d ≠ 365 := fun last => common (parts.isLeap last era)
          have place := parts.place
          omega

theorem inCalendar_of_ofParts? {year : Int} {month day : Nat} {d : Date}
    (made : ofParts? year month day = some d) : InCalendar d := by
  rw [ofParts?] at made
  split at made
  · rename_i fits
    cases made
    exact ⟨fits.1, fits.2.1, fits.2.2⟩
  · cases made

/-- The dates found in running text are days of the calendar. -/
theorem inCalendar_of_first? {text : String} {d : Date} (found : DateText.first? text = some d) :
    InCalendar d := by
  rw [DateText.first?, Option.or_eq_some_iff] at found
  rcases found with early | ⟨-, late⟩
  · obtain ⟨t, -, made⟩ := List.exists_of_findSome?_eq_some early
    exact inCalendar_of_ofParts? made
  · obtain ⟨t, -, made⟩ := List.exists_of_findSome?_eq_some late
    rcases Option.or_eq_some_iff.mp made with made | ⟨-, made⟩
    · exact inCalendar_of_ofParts? made
    · exact inCalendar_of_ofParts? made

namespace InCalendar
variable {d : Date} (known : InCalendar d)
include known

theorem ofParts? : ofParts? d.year d.month d.day = some d :=
  if_pos ⟨known.year, known.first, known.last⟩

theorem month : 1 ≤ d.month ∧ d.month ≤ 12 := by
  obtain ⟨-, first, last⟩ := known
  by_contra outside
  have none : daysIn d.year d.month = 0 := by
    unfold daysIn
    split <;> omega
  omega

theorem day : d.day ≤ 31 := by
  refine known.last.trans ?_
  unfold daysIn
  split <;> try split
  all_goals omega

end InCalendar

theorem ofParts?_eq_some_iff {year : Int} {month day : Nat} {d : Date} :
    Date.ofParts? year month day = some d ↔ d = ⟨year, month, day⟩ ∧ InCalendar d := by
  constructor
  · intro made
    refine ⟨?_, inCalendar_of_ofParts? made⟩
    rw [Date.ofParts?] at made
    split at made
    · exact (Option.some.inj made).symm
    · cases made
  · rintro ⟨rfl, known⟩
    exact known.ofParts?

theorem toList_padded (width n : Nat) :
    (padded width n).toList =
      FloatFormat.zeros (width - (FloatFormat.digitsOf n).length) ++ FloatFormat.digitsOf n :=
  String.toList_ofList

theorem isDigit_padded {width n : Nat} {c : Char} (known : c ∈ (padded width n).toList) :
    Reading.isDigit c = true := by
  rw [toList_padded, List.mem_append] at known
  exact known.elim FloatFormat.zeros_isDigit FloatFormat.digitsOf_isDigit

theorem padded_ne_nil (width n : Nat) : (padded width n).toList ≠ [] := by
  rw [toList_padded]
  exact List.append_ne_nil_of_right_ne_nil _ Nat.toDigits_ne_nil

theorem padded_isEmpty (width n : Nat) : (padded width n).toList.isEmpty = false :=
  List.isEmpty_eq_false_iff.mpr (padded_ne_nil width n)

theorem padded_cons (width n : Nat) :
    ∃ c text, (padded width n).toList = c :: text ∧ Reading.isDigit c = true := by
  obtain ⟨c, text, first⟩ := List.exists_cons_of_ne_nil (padded_ne_nil width n)
  exact ⟨c, text, first, isDigit_padded (first ▸ List.mem_cons_self)⟩

theorem length_padded {width n : Nat} (some : 0 < width) (fits : n < 10 ^ width) :
    (padded width n).toList.length = width := by
  have room : (FloatFormat.digitsOf n).length ≤ width :=
    (Nat.length_toDigits_le_iff (by decide) some).mpr fits
  rw [toList_padded, List.length_append, FloatFormat.zeros, List.length_replicate]
  omega

theorem natural_padded (width n : Nat) : Reading.natural (padded width n).toList = n := by
  rw [toList_padded]
  show Nat.ofDigitChars 10 (FloatFormat.zeros _ ++ FloatFormat.digitsOf n) 0 = n
  rw [Nat.ofDigitChars_append, FloatFormat.zeros, Nat.ofDigitChars_replicate_zero, Nat.mul_zero]
  exact Nat.ofDigitChars_ten_toDigits

theorem readDigits_padded {width n : Nat} (some' : 0 < width) (fits : n < 10 ^ width)
    (rest : List Char) :
    readDigits (some width) ((padded width n).toList ++ rest) = some (n, rest) := by
  have length := length_padded some' fits
  have digits : ∀ c ∈ (padded width n).toList, Reading.isDigit c = true :=
    fun c known => isDigit_padded known
  have run : (((padded width n).toList ++ rest).takeWhile Reading.isDigit).take width =
      (padded width n).toList := by
    rw [List.takeWhile_append_of_pos digits, List.take_left' length]
  have drop : ((padded width n).toList ++ rest).drop (padded width n).toList.length = rest :=
    List.drop_left
  simp only [readDigits, run, drop, natural_padded, padded_isEmpty, Bool.false_eq_true, if_false]

/-- All digits are taken as long as there may be so many. -/
theorem readDigits_run (width n : Nat) {most : Option Nat} {rest : List Char}
    (room : ∀ k ∈ most, (padded width n).toList.length ≤ k)
    (ends : rest.takeWhile Reading.isDigit = []) :
    readDigits most ((padded width n).toList ++ rest) = some (n, rest) := by
  have digits : ∀ c ∈ (padded width n).toList, Reading.isDigit c = true :=
    fun c known => isDigit_padded known
  have run : ((padded width n).toList ++ rest).takeWhile Reading.isDigit =
      (padded width n).toList := by
    rw [List.takeWhile_append_of_pos digits, ends, List.append_nil]
  have drop : ((padded width n).toList ++ rest).drop (padded width n).toList.length = rest :=
    List.drop_left
  cases most with
  | none =>
    simp only [readDigits, run, drop, natural_padded, padded_isEmpty, Bool.false_eq_true, if_false]
  | some k =>
    simp only [readDigits, run, List.take_of_length_le (room k rfl), drop, natural_padded,
      padded_isEmpty, Bool.false_eq_true, if_false]

theorem trimStart_cons {c : Char} (plain : Text.isBlank c = false) (rest : List Char) :
    Text.trimStart (c :: rest) = c :: rest := by
  rw [Text.trimStart, List.dropWhile_cons, plain]
  rfl

theorem trimStart_padded (width n : Nat) (rest : List Char) :
    Text.trimStart ((padded width n).toList ++ rest) = (padded width n).toList ++ rest := by
  obtain ⟨c, text, first, digit⟩ := padded_cons width n
  rw [first]
  exact trimStart_cons (Reading.isBlank_of_isDigit digit) (text ++ rest)

/-- Digits with their sign, which years of four digits do not have. -/
theorem yearText_cases (year : Int) :
    (∃ n : Nat, n < 10 ^ 4 ∧ year = n ∧ (yearText year).toList = (padded 4 n).toList) ∨
      (∃ n : Nat, year = -n ∧ (yearText year).toList = '-' :: (padded 4 n).toList) ∨
      ∃ n : Nat, year = n ∧ (yearText year).toList = '+' :: (padded 4 n).toList := by
  by_cases plain : 0 ≤ year ∧ year ≤ 9999
  · exact .inl ⟨year.toNat, by omega, by omega, by rw [yearText, if_pos plain]⟩
  · by_cases before : year < 0
    · refine .inr (.inl ⟨year.natAbs, by omega, ?_⟩)
      rw [yearText, if_neg plain, if_pos before, String.toList_append]
      rfl
    · refine .inr (.inr ⟨year.natAbs, by omega, ?_⟩)
      rw [yearText, if_neg plain, if_neg before, String.toList_append]
      rfl

theorem readYear_yearText (year : Int) (rest : List Char) :
    readYear ((yearText year).toList ++ '-' :: rest) = some (year, '-' :: rest) := by
  have signed (n : Nat) : readDigits none ((padded 4 n).toList ++ '-' :: rest) =
      some (n, '-' :: rest) := by
    exact readDigits_run 4 n (by simp) rfl
  obtain ⟨n, fits, rfl, text⟩ | ⟨n, rfl, text⟩ | ⟨n, rfl, text⟩ := yearText_cases year
  · have read := readDigits_padded (by decide) fits ('-' :: rest)
    obtain ⟨c, more, first, digit⟩ := padded_cons 4 n
    rw [text, readYear, trimStart_padded]
    rw [first, List.cons_append] at read ⊢
    split
    · rename_i minus
      cases minus
      cases digit
    · rename_i plus
      cases plus
      cases digit
    · rw [read]
      rfl
  · rw [text, readYear, List.cons_append, trimStart_cons rfl]
    simp only [signed, Option.map_some]
  · rw [text, readYear, List.cons_append, trimStart_cons rfl]
    simp only [signed, Option.map_some]

theorem toList_display (d : Date) (rest : List Char) :
    d.display.toList ++ rest = (yearText d.year).toList ++ '-' ::
      ((padded 2 d.month).toList ++ '-' :: ((padded 2 d.day).toList ++ rest)) := by
  simp [display]

/-- A date is read back from its text. -/
theorem read?_display {d : Date} (known : InCalendar d) : read? d.display = some d := by
  have text := toList_display d []
  rw [List.append_nil, List.append_nil] at text
  have months : d.month < 10 ^ 2 := known.month.2.trans_lt (by decide)
  have days : d.day < 10 ^ 2 := known.day.trans_lt (by decide)
  have month := readDigits_padded (by decide) months ('-' :: (padded 2 d.day).toList)
  have day := readDigits_padded (by decide) days []
  have start := trimStart_padded 2 d.month ('-' :: (padded 2 d.day).toList)
  have start' := trimStart_padded 2 d.day []
  have dash (cs : List Char) : readDash ('-' :: cs) = some cs := rfl
  rw [List.append_nil] at day start'
  simp only [read?, text, readYear_yearText, dash, start, month, start', day, bind, Option.bind]
  exact known.ofParts?

end Docket.Date

namespace Docket.Timestamp
open Date

theorem digits_of_readDigits {most : Option Nat} {cs rest : List Char} {n : Nat}
    (read : readDigits most cs = some (n, rest)) (fits : n < twoTo 63) :
    digits most cs = .ok (n, rest) := by
  cases cs with
  | nil => cases most <;> simp [readDigits] at read
  | cons c cs =>
    simp only [digits, read, if_pos fits]

theorem digits_padded {width n : Nat} (some' : 0 < width) (small : width ≤ 9)
    (fits : n < 10 ^ width) (rest : List Char) :
    digits (some width) ((padded width n).toList ++ rest) = .ok (n, rest) := by
  refine digits_of_readDigits (readDigits_padded some' fits rest) ?_
  have bound : 10 ^ width ≤ 10 ^ 9 := Nat.pow_le_pow_right (by decide) small
  exact fits.trans_le (bound.trans (by decide))

theorem bounded_padded {lo hi n : Nat} (low : lo ≤ n) (high : n ≤ hi) (small : hi < 100)
    (rest : List Char) : bounded lo hi ((padded 2 n).toList ++ rest) = .ok (n, rest) := by
  have read := digits_padded (by decide) (by decide) (by omega : n < 10 ^ 2) rest
  rw [bounded, trimStart_padded, read]
  exact if_pos ⟨low, high⟩

theorem mark_cons {c : Char} (plain : Text.isBlank c = false) (rest : List Char) :
    mark c (c :: rest) = .ok rest := by
  simp only [mark, trimStart_cons plain, if_true]

theorem year_yearText {y : Int} (range : yearInRange y = true) (rest : List Char) :
    year ((yearText y).toList ++ '-' :: rest) = .ok (y, '-' :: rest) := by
  simp only [yearInRange, Bool.and_eq_true, decide_eq_true_eq] at range
  have large' : twoTo 31 = 2147483648 := rfl
  have word : -twoTo 31 ≤ y ∧ y < twoTo 31 := by omega
  have signed {n : Nat} (small : n < twoTo 63) :
      digits none ((padded 4 n).toList ++ '-' :: rest) = .ok (n, '-' :: rest) := by
    have read : readDigits none ((padded 4 n).toList ++ '-' :: rest) = some (n, '-' :: rest) :=
      readDigits_run 4 n (by simp) rfl
    exact digits_of_readDigits read small
  have large : twoTo 63 = 9223372036854775808 := rfl
  obtain ⟨n, fits, rfl, text⟩ | ⟨n, rfl, text⟩ | ⟨n, rfl, text⟩ := yearText_cases y
  · have read := digits_padded (by decide) (by decide) fits ('-' :: rest)
    obtain ⟨c, more, first, digit⟩ := padded_cons 4 n
    rw [text, year, trimStart_padded]
    rw [first, List.cons_append] at read ⊢
    split
    · rename_i minus
      cases minus
      cases digit
    · rename_i plus
      cases plus
      cases digit
    · simp only [read, Except.map, bind, Except.bind, if_pos word]
  · rw [text, year, List.cons_append, trimStart_cons rfl]
    have small : n < twoTo 63 := by omega
    simp only [signed small, Except.map, bind, Except.bind, if_pos word]
  · rw [text, year, List.cons_append, trimStart_cons rfl]
    have small : n < twoTo 63 := by omega
    simp only [signed small, Except.map, bind, Except.bind, if_pos word]

theorem nanoseconds_point {width n places : Nat} (some' : 0 < width) (small : width ≤ 9)
    (fits : n < 10 ^ width) (count : n * tenTo (9 - width) = places) :
    nanoseconds ('.' :: ((padded width n).toList ++ ['Z'])) = .ok (places, ['Z']) := by
  have read : readDigits (some 9) ((padded width n).toList ++ ['Z']) = some (n, ['Z']) :=
    readDigits_run width n (by simp [length_padded some' fits, small]) rfl
  have bound : 10 ^ width ≤ 10 ^ 9 := Nat.pow_le_pow_right (by decide) small
  have digits := digits_of_readDigits read (fits.trans_le (bound.trans (by decide)))
  simp only [nanoseconds, digits, bind, Except.bind, List.length_append, length_padded some' fits,
    Nat.add_sub_cancel, count]
  rfl

theorem nanoseconds_fraction {nanos : Nat} (small : nanos < 1000000000) :
    nanoseconds ((fraction nanos).toList ++ ['Z']) = .ok (nanos, ['Z']) := by
  unfold fraction
  split
  · rename_i none
    subst none
    rfl
  split
  · rename_i thousandth
    rw [String.toList_append]
    refine nanoseconds_point (by decide) (by decide) (by omega) ?_
    show nanos / 1000000 * 1000000 = nanos
    omega
  split
  · rename_i millionth
    rw [String.toList_append]
    refine nanoseconds_point (by decide) (by decide) (by omega) ?_
    show nanos / 1000 * 1000 = nanos
    omega
  · rw [String.toList_append]
    exact nanoseconds_point (by decide) (by decide) (by omega) (Nat.mul_one nanos)

theorem toList_display (t : Timestamp) (small : t.nanosecond < 1000000000) :
    t.display.toList = (yearText t.date.year).toList ++ '-' :: ((padded 2 t.date.month).toList ++
      '-' :: ((padded 2 t.date.day).toList ++ 'T' :: ((padded 2 (t.second / 3600)).toList ++
        ':' :: ((padded 2 (t.second / 60 % 60)).toList ++ ':' ::
          ((padded 2 (t.second % 60)).toList ++ ((fraction t.nanosecond).toList ++ ['Z'])))))) := by
  have extra : t.nanosecond / 1000000000 = 0 := Nat.div_eq_of_lt small
  have nanos : t.nanosecond % 1000000000 = t.nanosecond := Nat.mod_eq_of_lt small
  simp [display, clockText, Date.display, extra, nanos]

theorem shifted_zero {date : Date} {second nanos : Nat} (day : second < 86400)
    (same : ofDayNumber date.dayNumber = date) (range : yearInRange date.year = true) :
    shifted date second nanos = .ok ⟨date, second, nanos⟩ := by
  have none : (second : Int).fdiv 86400 = 0 := by
    rw [Int.fdiv_eq_ediv_of_nonneg _ (by decide)]
    omega
  have all : (second : Int).fmod 86400 = second := by
    rw [Int.fmod_eq_emod_of_nonneg _ (by decide)]
    omega
  simp only [shifted, none, all, Int.add_zero, same, range, if_true, Int.toNat_natCast]

/-- A timestamp of a clock is read back from its text. -/
theorem read_display {t : Timestamp} (known : t.date.InCalendar) (day : t.second < 86400)
    (small : t.nanosecond < 1000000000) (same : ofDayNumber t.date.dayNumber = t.date) :
    read t.display = .ok t := by
  have dash := mark_cons (c := '-') rfl
  have colon := mark_cons (c := ':') rfl
  have month := bounded_padded known.month.1 known.month.2 (by decide)
  have date := bounded_padded known.first known.day (by decide)
  have hours : t.second / 3600 ≤ 23 := by omega
  have minutes : t.second / 60 % 60 ≤ 59 := by omega
  have seconds : t.second % 60 ≤ 60 := by omega
  have hour := bounded_padded (Nat.zero_le _) hours (by decide)
  have minute := bounded_padded (Nat.zero_le _) minutes (by decide)
  have second := bounded_padded (Nat.zero_le _) seconds (by decide)
  have nanos := nanoseconds_fraction small
  have zone : offset (Text.trimStart ['Z']) = .ok (0, []) := rfl
  have leap : t.second % 60 / 60 = 0 := by omega
  have time : (((t.second / 3600 : Nat) : Int) * 60 + (t.second / 60 % 60 : Nat)) * 60 +
      (t.second % 60 : Nat) - (0 : Nat) - 0 = t.second := by omega
  have ends : (!(Text.trimStart ([] : List Char)).isEmpty) = false := rfl
  have near : Int.natAbs 0 < 86400 := by decide
  rw [read, toList_display t small]
  simp only [year_yearText known.year, dash, month, date, hour, colon, minute, second, nanos, zone,
    bind, Except.bind, known.ofParts?, leap, time, ends, Bool.false_eq_true, if_false, if_pos near,
    Nat.zero_mul, Nat.zero_add]
  exact shifted_zero day same known.year

theorem read_ofTime {t : Time} (range : yearInRange (ofTime t).date.year = true) :
    read (ofTime t).display = .ok (ofTime t) := by
  have seconds (s : Int) : s.fmod 86400 = s % 86400 := Int.fmod_eq_emod_of_nonneg s (by decide)
  have nanos : t.fmod Time.second = t % 1000000000 := Int.fmod_eq_emod_of_nonneg t (by decide)
  refine read_display (inCalendar_ofDayNumber range) ?_ ?_ ?_
  · simp only [ofTime, seconds]
    omega
  · simp only [ofTime, nanos]
    omega
  · exact congrArg ofDayNumber (dayNumber_ofDayNumber _)

end Docket.Timestamp
