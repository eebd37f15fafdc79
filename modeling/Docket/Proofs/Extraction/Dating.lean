import Mathlib
import Docket.Proofs.Calendar
import Docket.Proofs.Extraction.Triples

/-! The date that is read from a text. In ASCII digits it is the first year-first date anywhere in the
text, else the first date whose year comes last, day before month where the calendar lets it. In
other digits a numeral counts for zero, which no day and no month is; but the calendar has a year of
that number, and so a date may get a year that nobody wrote. -/
namespace Docket.DateText
open Text (decimal firstSight? Leftmost firstSight?_eq_some_iff firstSight?_eq_none_iff
  firstSight?_eq_some_iff_leftmost firstSight?_eq_none_iff_forall)

/-- Which numeral stands for what. -/
structure Roles where
  year : List Char
  month : List Char
  day : List Char

namespace Roles

/-- A year has four digits; a month and a day have no more than two. -/
structure Shaped (r : Roles) : Prop where
  year : Within (4, 4) r.year
  month : Within (1, 2) r.month
  day : Within (1, 2) r.day

/-- The numerals are those of the date. -/
structure Writes (r : Roles) (d : Date) : Prop where
  year : d.year = decimal r.year
  month : d.month = decimal r.month
  day : d.day = decimal r.day

theorem writes_iff {r : Roles} {d : Date} :
    r.Writes d ↔ d = ⟨decimal r.year, decimal r.month, decimal r.day⟩ := by
  constructor
  · rintro ⟨year, month, day⟩
    rw [← year, ← month, ← day]
  · rintro rfl
    exact ⟨rfl, rfl, rfl⟩

instance (r : Roles) (d : Date) : Decidable (r.Writes d) := decidable_of_iff _ writes_iff.symm

/-- The numerals are those of the date, but a year that is not in ASCII digits counts for zero. -/
structure CountsAs (r : Roles) (d : Date) : Prop where
  year : d.year = if r.year.all Reading.isDigit then (decimal r.year : Int) else 0
  month : d.month = decimal r.month
  day : d.day = decimal r.day

end Roles

namespace Triple

def yearFirst (t : Triple) : Roles := ⟨t.first, t.second, t.third⟩

def dayFirst (t : Triple) : Roles := ⟨t.third, t.second, t.first⟩

def monthFirst (t : Triple) : Roles := ⟨t.third, t.first, t.second⟩

def roles (t : Triple) : List Roles := [t.yearFirst, t.dayFirst, t.monthFirst]

/-- The triple stands in a text behind `before`. -/
def StandsIn (t : Triple) (text before : List Char) : Prop :=
  ∃ cs, text = before ++ cs ∧ t.Stands before cs

end Triple

theorem Triple.StandsIn.inside {t : Triple} {text before : List Char}
    (known : t.StandsIn text before) :
    t.first <:+: text ∧ t.second <:+: text ∧ t.third <:+: text := by
  obtain ⟨cs, rfl, -, spells⟩ := known
  obtain ⟨j, k, -, -, rfl⟩ := spells.joints
  refine ⟨⟨before, j :: (t.second ++ k :: (t.third ++ t.rest)), ?_⟩,
    ⟨before ++ t.first ++ [j], k :: (t.third ++ t.rest), ?_⟩,
    ⟨before ++ t.first ++ [j] ++ t.second ++ [k], t.rest, ?_⟩⟩ <;> simp

/-- A date is written somewhere in a text, in numerals of any length and any script. -/
def Written (text : List Char) (d : Date) : Prop :=
  ∃ before t, Triple.StandsIn t text before ∧ ∃ r ∈ t.roles, r.Writes d

def writes? (d : Date) (t : Triple) : Option Unit :=
  if ∃ r ∈ t.roles, r.Writes d then some () else none

theorem written_iff (text : List Char) (d : Date) : Written text d ↔
    firstSight? (sight? (1, text.length) (1, text.length) (1, text.length) (writes? d)) [] text ≠
      none := by
  have positive : Positive (1, text.length) (1, text.length) (1, text.length) :=
    ⟨le_rfl, le_rfl, le_rfl⟩
  rw [Ne, firstSight?_eq_none_iff_forall
    (p := fun before _ => ∃ t, Triple.StandsIn t text before ∧ ∃ r ∈ t.roles, r.Writes d)]
  · simp only [not_forall, not_not, exists_const]
    rfl
  · rintro before ⟨⟩
    simp only [sight?_eq_some_iff positive]
    constructor
    · rintro ⟨t, known, r, among, writes⟩
      obtain ⟨first, second, third⟩ := known.inside
      obtain ⟨rest, parts, stands⟩ := known
      obtain ⟨one, two, three, -, -⟩ := stands.spells
      refine ⟨rest, parts, t, stands, ⟨⟨List.length_pos_iff.mpr one.some, first.length_le⟩,
        ⟨List.length_pos_iff.mpr two.some, second.length_le⟩,
        ⟨List.length_pos_iff.mpr three.some, third.length_le⟩⟩, if_pos ⟨r, among, writes⟩⟩
    · rintro ⟨rest, parts, t, stands, -, writes⟩
      rw [writes?] at writes
      split at writes
      · rename_i known
        exact ⟨t, ⟨rest, parts, stands⟩, known⟩
      · cases writes

instance (text : List Char) (d : Date) : Decidable (Written text d) :=
  decidable_of_iff _ (written_iff text d).symm

theorem value_eq {ds : List Char} (known : IsNumeral ds) :
    value ds = if ds.all Reading.isDigit then decimal ds else 0 := by
  rw [value, Reading.natural?]
  split
  · rename_i ascii
    rw [if_pos ascii.2, Text.decimal_of_digits (List.all_eq_true.mp ascii.2)]
    rfl
  · rename_i foreign
    rw [if_neg fun ascii => foreign ⟨known.some, ascii⟩]
    rfl

theorem decimal_of_value {ds : List Char} (known : IsNumeral ds) (some : value ds ≠ 0) :
    value ds = decimal ds := by
  rw [value_eq known] at some ⊢
  split at some
  · rename_i ascii
    rw [if_pos ascii]
  · exact absurd rfl some

theorem countsAs_of_ofParts? {r : Roles} (year : IsNumeral r.year) (month : IsNumeral r.month)
    (day : IsNumeral r.day) {d : Date}
    (made : Date.ofParts? (value r.year) (value r.month) (value r.day) = some d) : r.CountsAs d := by
  obtain ⟨rfl, known⟩ := Date.ofParts?_eq_some_iff.mp made
  have months : value r.month ≠ 0 := Nat.ne_of_gt known.month.1
  have days : value r.day ≠ 0 := Nat.ne_of_gt known.first
  refine ⟨?_, decimal_of_value month months, decimal_of_value day days⟩
  simp only [value_eq year]
  split <;> rfl

theorem positive_yearFirst : Positive (4, 4) (1, 2) (1, 2) := ⟨by decide, by decide, by decide⟩

theorem positive_yearLast : Positive (1, 2) (1, 2) (4, 4) := ⟨by decide, by decide, by decide⟩

/-- A date with its year last, day first if the calendar has that. -/
def yearLast? (t : Triple) : Option Date := (dayFirst? t).or (monthFirst? t)

theorem first?_eq (text : String) : first? text =
    (firstSight? (sight? (4, 4) (1, 2) (1, 2) yearFirst?) [] text.toList).or
      (firstSight? (sight? (1, 2) (1, 2) (4, 4) yearLast?) [] text.toList) := by
  have early := findSome?_triples positive_yearFirst ⟨by decide, by decide⟩ yearFirst? text.toList
  have late := findSome?_triples positive_yearLast ⟨by decide, by decide⟩ yearLast? text.toList
  rw [← early, ← late]
  rfl

theorem exists_countsAs {text : String} {d : Date} (found : first? text = some d) :
    ∃ before t, Triple.StandsIn t text.toList before ∧ ∃ r ∈ t.roles, r.Shaped ∧ r.CountsAs d := by
  rw [first?_eq, Option.or_eq_some_iff, firstSight?_eq_some_iff, firstSight?_eq_some_iff] at found
  rcases found with ⟨before, rest, parts, sight, -⟩ | ⟨-, before, rest, parts, sight, -⟩
  · obtain ⟨t, stands, fits, made⟩ := (sight?_eq_some_iff positive_yearFirst).mp sight
    refine ⟨before, t, ⟨rest, parts, stands⟩, t.yearFirst, by simp [Triple.roles],
      ⟨fits.first, fits.second, fits.third⟩, ?_⟩
    exact countsAs_of_ofParts? stands.spells.first stands.spells.second stands.spells.third made
  · obtain ⟨t, stands, fits, made⟩ := (sight?_eq_some_iff positive_yearLast).mp sight
    obtain ⟨first, second, third, -, -⟩ := stands.spells
    rcases Option.or_eq_some_iff.mp made with made | ⟨-, made⟩
    · exact ⟨before, t, ⟨rest, parts, stands⟩, t.dayFirst, by simp [Triple.roles],
        ⟨fits.third, fits.second, fits.first⟩, countsAs_of_ofParts? third second first made⟩
    · exact ⟨before, t, ⟨rest, parts, stands⟩, t.monthFirst, by simp [Triple.roles],
        ⟨fits.third, fits.first, fits.second⟩, countsAs_of_ofParts? third first second made⟩

/-- A date that is found is written in the text, unless its year is zero. Then its year may stand
there in digits of another script, whatever they write. -/
theorem first?_written {text : String} {d : Date} (found : first? text = some d) :
    (∃ before t, Triple.StandsIn t text.toList before ∧ ∃ r ∈ t.roles, r.Shaped ∧ r.CountsAs d) ∧
      (d.year ≠ 0 → Written text.toList d) := by
  have counts := exists_countsAs found
  refine ⟨counts, fun some => ?_⟩
  obtain ⟨before, t, stands, r, among, -, year, month, day⟩ := counts
  refine ⟨before, t, stands, r, among, ?_, month, day⟩
  split at year
  · exact year
  · exact absurd year some

theorem first?_written_monthFirst : first? "due 03/15/2024" = some ⟨2024, 3, 15⟩ ∧
    Written "due 03/15/2024".toList ⟨2024, 3, 15⟩ := by
  have found : first? "due 03/15/2024" = some ⟨2024, 3, 15⟩ := by decide
  exact ⟨found, (first?_written found).2 (by decide)⟩

/-- The year 2024 in other digits is lost, and the date is moved to the year zero. -/
theorem foreignYear_lost : first? "٢٠٢٤-03-15" = some ⟨0, 3, 15⟩ ∧
    Written "٢٠٢٤-03-15".toList ⟨2024, 3, 15⟩ ∧ ¬ Written "٢٠٢٤-03-15".toList ⟨0, 3, 15⟩ :=
  ⟨by decide, by decide, by decide⟩

/-- A year-first date behind `before`. -/
def YearFirstAt (text before : List Char) (d : Date) : Prop :=
  ∃ t, Triple.StandsIn t text before ∧ t.yearFirst.Shaped ∧ t.yearFirst.Writes d ∧ d.InCalendar

/-- A date with its year last behind `before`: day first, or month first if the calendar does not
have the other. -/
def YearLastAt (text before : List Char) (d : Date) : Prop :=
  ∃ t, Triple.StandsIn t text before ∧ t.dayFirst.Shaped ∧
    (t.dayFirst.Writes d ∧ d.InCalendar ∨
      (∀ e, t.dayFirst.Writes e → ¬ e.InCalendar) ∧ t.monthFirst.Writes d ∧ d.InCalendar)

/-- The first year-first date; without any, the first date with its year last; without any, none. -/
def Answers (text : List Char) : Option Date → Prop
  | some d => Leftmost (YearFirstAt text) d ∨
      (∀ before e, ¬ YearFirstAt text before e) ∧ Leftmost (YearLastAt text) d
  | none => (∀ before e, ¬ YearFirstAt text before e) ∧ ∀ before e, ¬ YearLastAt text before e

section Ascii
variable {text : List Char}
  (ascii : ∀ c ∈ text, Text.isDecimalDigit c = true → Reading.isDigit c = true)
include ascii

theorem value_of_ascii {ds : List Char} (known : IsNumeral ds) (inside : ds <:+: text) :
    value ds = decimal ds := by
  have digits : ds.all Reading.isDigit = true := List.all_eq_true.mpr fun c among =>
    ascii c (inside.subset among) (known.digits c among)
  rw [value_eq known, if_pos digits]

theorem Triple.StandsIn.readings {t : Triple} {before : List Char} (known : t.StandsIn text before)
    (d : Date) : (yearFirst? t = some d ↔ t.yearFirst.Writes d ∧ d.InCalendar) ∧
      (dayFirst? t = some d ↔ t.dayFirst.Writes d ∧ d.InCalendar) ∧
        (monthFirst? t = some d ↔ t.monthFirst.Writes d ∧ d.InCalendar) := by
  obtain ⟨first, second, third⟩ := known.inside
  obtain ⟨_, -, -, spells⟩ := known
  have one := value_of_ascii ascii spells.first first
  have two := value_of_ascii ascii spells.second second
  have three := value_of_ascii ascii spells.third third
  simp only [yearFirst?, dayFirst?, monthFirst?, Date.ofParts?_eq_some_iff, one, two, three,
    Roles.writes_iff]
  exact ⟨Iff.rfl, Iff.rfl, Iff.rfl⟩

theorem yearFirstAt_iff (before : List Char) (d : Date) : YearFirstAt text before d ↔
    ∃ rest, text = before ++ rest ∧
      sight? (4, 4) (1, 2) (1, 2) yearFirst? before rest = some d := by
  simp only [sight?_eq_some_iff positive_yearFirst]
  constructor
  · rintro ⟨t, known, ⟨year, month, day⟩, writes⟩
    have read := (known.readings ascii d).1.mpr writes
    obtain ⟨rest, parts, stands⟩ := known
    exact ⟨rest, parts, t, stands, ⟨year, month, day⟩, read⟩
  · rintro ⟨rest, parts, t, stands, ⟨year, month, day⟩, read⟩
    have known : t.StandsIn text before := ⟨rest, parts, stands⟩
    exact ⟨t, known, ⟨year, month, day⟩, (known.readings ascii d).1.mp read⟩

theorem yearLastAt_iff (before : List Char) (d : Date) : YearLastAt text before d ↔
    ∃ rest, text = before ++ rest ∧
      sight? (1, 2) (1, 2) (4, 4) yearLast? before rest = some d := by
  have reads {t : Triple} (known : t.StandsIn text before) : yearLast? t = some d ↔
      t.dayFirst.Writes d ∧ d.InCalendar ∨
        (∀ e, t.dayFirst.Writes e → ¬ e.InCalendar) ∧ t.monthFirst.Writes d ∧ d.InCalendar := by
    rw [yearLast?, Option.or_eq_some_iff, (known.readings ascii d).2.1,
      (known.readings ascii d).2.2, Option.eq_none_iff_forall_ne_some]
    simp only [ne_eq, (known.readings ascii _).2.1, not_and]
  simp only [sight?_eq_some_iff positive_yearLast]
  constructor
  · rintro ⟨t, known, ⟨year, month, day⟩, writes⟩
    have read := (reads known).mpr writes
    obtain ⟨rest, parts, stands⟩ := known
    exact ⟨rest, parts, t, stands, ⟨day, month, year⟩, read⟩
  · rintro ⟨rest, parts, t, stands, ⟨day, month, year⟩, read⟩
    have known : t.StandsIn text before := ⟨rest, parts, stands⟩
    exact ⟨t, known, ⟨year, month, day⟩, (reads known).mp read⟩

end Ascii

/-- In a text whose digits are ASCII a search gives exactly the date that it should, so no triple that
is not a date hides one that is. -/
theorem first?_eq_iff {text : String}
    (ascii : ∀ c ∈ text.toList, Text.isDecimalDigit c = true → Reading.isDigit c = true)
    (answer : Option Date) : first? text = answer ↔ Answers text.toList answer := by
  rw [first?_eq]
  cases answer with
  | none =>
    rw [Option.or_eq_none_iff, firstSight?_eq_none_iff_forall (yearFirstAt_iff ascii),
      firstSight?_eq_none_iff_forall (yearLastAt_iff ascii)]
    rfl
  | some d =>
    rw [Option.or_eq_some_iff, firstSight?_eq_some_iff_leftmost (yearFirstAt_iff ascii),
      firstSight?_eq_none_iff_forall (yearFirstAt_iff ascii),
      firstSight?_eq_some_iff_leftmost (yearLastAt_iff ascii)]
    rfl

/-- The triple that is a date begins within one that is none. -/
theorem first?_eq_iff_shared :
    (∀ c ∈ "29.02.2023, 2024-02-30.01.2024".toList,
      Text.isDecimalDigit c = true → Reading.isDigit c = true) ∧
    first? "29.02.2023, 2024-02-30.01.2024" = some ⟨2024, 1, 30⟩ ∧
      Answers "29.02.2023, 2024-02-30.01.2024".toList (some ⟨2024, 1, 30⟩) := by
  have all : "29.02.2023, 2024-02-30.01.2024".toList.all (fun c =>
      !Text.isDecimalDigit c || Reading.isDigit c) = true := by decide
  have ascii : ∀ c ∈ "29.02.2023, 2024-02-30.01.2024".toList,
      Text.isDecimalDigit c = true → Reading.isDigit c = true := by
    intro c among digit
    have each := List.all_eq_true.mp all c among
    rwa [digit, Bool.not_true, Bool.false_or] at each
  have found : first? "29.02.2023, 2024-02-30.01.2024" = some ⟨2024, 1, 30⟩ := by decide
  exact ⟨ascii, found, (first?_eq_iff ascii (some ⟨2024, 1, 30⟩)).mp found⟩

end Docket.DateText
