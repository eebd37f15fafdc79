import Mathlib
import Docket.Extraction.Numeral
import Docket.Proofs.Number.Places

/-! Numerals as people write them, and the decimals they are read as. Marks that tell themselves apart
are read as they are meant, whatever the number of groups and of digits behind the point. A comma
behind groups that spaces part is taken for one more group mark if three digits follow it. -/
namespace Docket
open Reading (Digits)

namespace Numeral

section Marks
variable {c : Char} {front back fraction : List Char}

theorem findIdx?_reverse (absent : c ∉ front) : front.reverse.findIdx? (· == c) = none := by
  apply List.findIdx?_eq_none_iff.mpr
  intro x known
  have other : x ≠ c := fun same => absent (same ▸ List.mem_reverse.mp known)
  simpa using other

theorem lastIndex?_append (absent : c ∉ back) :
    lastIndex? c (front ++ c :: back) = some front.length := by
  have behind := findIdx?_reverse absent
  have length : (front ++ c :: back).length - 1 - back.length = front.length := by
    rw [List.length_append, List.length_cons]
    omega
  rw [lastIndex?, List.reverse_append, List.reverse_cons, List.append_assoc, List.findIdx?_append,
    behind]
  simp only [List.singleton_append, List.findIdx?_cons, beq_self_eq_true, if_true, Option.map_some,
    Option.none_or, Nat.zero_add, List.length_reverse]
  exact congrArg some length

theorem lastIndex?_of_not_mem (absent : c ∉ front) : lastIndex? c front = none := by
  rw [lastIndex?, findIdx?_reverse absent]
  rfl

theorem lastIndex?_of_mem (known : c ∈ front) (back : List Char) (absent : c ∉ back) :
    ∃ i < front.length, lastIndex? c (front ++ back) = some i := by
  obtain ⟨as, bs, parts, later⟩ := List.eq_append_cons_of_mem (List.mem_reverse.mpr known)
  have whole : front = bs.reverse ++ c :: as.reverse := by
    rw [← List.reverse_reverse front, parts]
    simp
  have behind : c ∉ as.reverse ++ back := by
    intro among
    rcases List.mem_append.mp among with among | among
    · exact later (List.mem_reverse.mp among)
    · exact absent among
  refine ⟨bs.reverse.length, ?_, ?_⟩
  · rw [whole, List.length_append, List.length_cons]
    omega
  · rw [whole, List.append_assoc, List.cons_append]
    exact lastIndex?_append behind

theorem without_of_not_mem (absent : c ∉ front) : without c front = front := by
  rw [without, List.filter_eq_self]
  intro x known
  have other : x ≠ c := by
    rintro rfl
    exact absent known
  simpa using other

theorem replace_of_not_mem {b : Char} (absent : c ∉ front) : replace c b front = front := by
  rw [replace]
  conv_rhs => rw [← List.map_id front]
  apply List.map_congr_left
  intro x known
  apply if_neg
  rintro rfl
  exact absent known

theorem without_append (front back : List Char) :
    without c (front ++ back) = without c front ++ without c back := List.filter_append ..

theorem without_cons_self (back : List Char) : without c (c :: back) = without c back :=
  List.filter_cons_of_neg (by simp)

theorem without_cons_of_ne {b : Char} (other : b ≠ c) (back : List Char) :
    without c (b :: back) = b :: without c back := List.filter_cons_of_pos (by simpa using other)

theorem replace_append {b : Char} (front back : List Char) :
    replace c b (front ++ back) = replace c b front ++ replace c b back := List.map_append

theorem replace_cons_self {b : Char} (back : List Char) :
    replace c b (c :: back) = b :: replace c b back := by
  rw [replace, List.map_cons, if_pos rfl]
  rfl

theorem not_mem_of_digits {ds : List Char} (digits : Digits ds) (mark : Reading.isDigit c = false) :
    c ∉ ds := by
  intro known
  rw [digits c known] at mark
  cases mark

theorem comma_not_digit : Reading.isDigit ',' = false := rfl

theorem point_not_digit : Reading.isDigit '.' = false := rfl

theorem withPoint_digits (digits : Digits front) : withPoint front = front := by
  rw [withPoint, lastIndex?_of_not_mem (not_mem_of_digits digits comma_not_digit),
    lastIndex?_of_not_mem (not_mem_of_digits digits point_not_digit)]

/-- A point alone is the decimal point. -/
theorem withPoint_point (digits : Digits front) (behind : Digits fraction) :
    withPoint (front ++ '.' :: fraction) = front ++ '.' :: fraction := by
  have comma : ',' ∉ front ++ '.' :: fraction := by
    have first := not_mem_of_digits digits comma_not_digit
    have last := not_mem_of_digits behind comma_not_digit
    simp [first, last]
  have point := not_mem_of_digits behind point_not_digit
  have once : (front ++ '.' :: fraction).count '.' = 1 := by
    have first := not_mem_of_digits digits point_not_digit
    rw [List.count_append, List.count_cons_self, List.count_eq_zero.mpr first,
      List.count_eq_zero.mpr point]
  rw [withPoint, lastIndex?_of_not_mem comma, lastIndex?_append point]
  simp [once]

/-- A comma alone is the decimal point unless three digits follow that may be a group. -/
theorem withPoint_comma (digits : Digits front) (behind : Digits fraction) :
    withPoint (front ++ ',' :: fraction) =
      if fraction.length = 3 ∧ front ≠ ['0'] then front ++ fraction
      else front ++ '.' :: fraction := by
  have first := not_mem_of_digits digits comma_not_digit
  have last := not_mem_of_digits behind comma_not_digit
  have point : '.' ∉ front ++ ',' :: fraction := by
    have first := not_mem_of_digits digits point_not_digit
    have last := not_mem_of_digits behind point_not_digit
    simp [first, last]
  have once : (front ++ ',' :: fraction).count ',' = 1 := by
    rw [List.count_append, List.count_cons_self, List.count_eq_zero.mpr first,
      List.count_eq_zero.mpr last]
  have places : (front ++ ',' :: fraction).length - front.length - 1 = fraction.length := by
    rw [List.length_append, List.length_cons]
    omega
  have zero : ['0', ','].isPrefixOf (front ++ ',' :: fraction) = true ↔ front = ['0'] := by
    rw [List.isPrefixOf_iff_prefix]
    constructor
    · intro starts
      cases front with
      | nil => simp at starts
      | cons a rest =>
        cases rest with
        | nil => simpa using (List.cons_prefix_cons.mp starts).1.symm
        | cons b rest =>
          have second := (List.cons_prefix_cons.mp (List.cons_prefix_cons.mp starts).2).1
          exact absurd (second ▸ List.mem_cons_of_mem a List.mem_cons_self) first
    · rintro rfl
      exact List.prefix_append ['0', ','] fraction
  rw [withPoint, lastIndex?_append last, lastIndex?_of_not_mem point]
  simp only [once, places]
  by_cases group : fraction.length = 3 ∧ front ≠ ['0']
  · have other : ¬ ['0', ','].isPrefixOf (front ++ ',' :: fraction) = true :=
      fun starts => group.2 (zero.mp starts)
    rw [if_neg (by simp [group.1, other]), if_pos group, without_append, without_cons_self,
      without_of_not_mem first, without_of_not_mem last]
  · have decimal : fraction.length ≠ 3 ∨ ['0', ','].isPrefixOf (front ++ ',' :: fraction) = true := by
      rw [zero]
      by_contra neither
      exact group ⟨by omega, fun same => neither (.inr same)⟩
    rw [if_pos (by simpa using decimal), if_neg group, replace_append, replace_cons_self,
      replace_of_not_mem first, replace_of_not_mem last]

/-- Several commas and no point part groups. -/
theorem withPoint_commas (several : 1 < front.count ',') (point : '.' ∉ front) :
    withPoint front = without ',' front := by
  have comma : ',' ∈ front := List.count_pos_iff.mp (by omega)
  obtain ⟨i, -, last⟩ := lastIndex?_of_mem comma [] List.not_mem_nil
  rw [List.append_nil] at last
  rw [withPoint, last, lastIndex?_of_not_mem point]
  have many : (front.count ',' == 1) = false := by
    rw [beq_eq_false_iff_ne]
    omega
  simp [many]

/-- Behind commas a point is the decimal point. -/
theorem withPoint_lastPoint (comma : ',' ∈ front) (behind : Digits fraction) :
    withPoint (front ++ '.' :: fraction) = without ',' front ++ '.' :: fraction := by
  have none := not_mem_of_digits behind comma_not_digit
  obtain ⟨i, before, last⟩ := lastIndex?_of_mem comma ('.' :: fraction) (by simp [none])
  rw [withPoint, last, lastIndex?_append (not_mem_of_digits behind point_not_digit)]
  simp only
  rw [if_neg (by omega), without_append, without_cons_of_ne (by decide), without_of_not_mem none]

/-- Behind points a comma is the decimal point. -/
theorem withPoint_lastComma (point : '.' ∈ front) (comma : ',' ∉ front)
    (behind : Digits fraction) :
    withPoint (front ++ ',' :: fraction) = without '.' front ++ '.' :: fraction := by
  have none := not_mem_of_digits behind point_not_digit
  have rest := not_mem_of_digits behind comma_not_digit
  have kept : ',' ∉ without '.' front := fun known => comma (List.mem_of_mem_filter known)
  obtain ⟨i, before, last⟩ := lastIndex?_of_mem point (',' :: fraction) (by simp [none])
  rw [withPoint, last, lastIndex?_append rest]
  simp only
  rw [if_pos before, without_append, without_cons_of_ne (by decide), without_of_not_mem none,
    replace_append, replace_of_not_mem kept, replace_cons_self, replace_of_not_mem rest]

end Marks

theorem isNumeralChar_of_digit {c : Char} (digit : Reading.isDigit c = true) :
    isNumeralChar c = true := by simp [isNumeralChar, digit]

theorem filter_isNumeralChar {cs : List Char}
    (known : ∀ c ∈ cs, Reading.isDigit c = true ∨ c = ',' ∨ c = '.') :
    cs.filter isNumeralChar = cs := by
  apply List.filter_eq_self.mpr
  intro c among
  rcases known c among with digit | rfl | rfl
  · exact isNumeralChar_of_digit digit
  · rfl
  · rfl

/-- Digits, groups of digits behind their marks, and the digits behind the point. -/
structure Written where
  first : List Char
  groups : List (Char × List Char)
  fraction : List Char

namespace Written

/-- The whole part with its marks. -/
def whole (w : Written) : List Char := w.first ++ w.groups.flatMap fun g => g.1 :: g.2

def digits (w : Written) : List Char := w.first ++ w.groups.flatMap Prod.snd

/-- The numeral with a mark for its point; without a fraction it has none. -/
def text (w : Written) (point : Char) : List Char :=
  w.whole ++ if w.fraction = [] then [] else point :: w.fraction

def value (w : Written) : ℚ := Reading.number w.digits w.fraction

structure Formed (mark : Char → Prop) (w : Written) : Prop where
  first : Digits w.first
  some : w.first ≠ []
  short : w.groups ≠ [] → w.first.length ≤ 3
  groups : ∀ g ∈ w.groups, mark g.1 ∧ g.2.length = 3 ∧ Digits g.2
  fraction : Digits w.fraction

theorem formed_iff (mark : Char → Prop) [DecidablePred mark] (w : Written) : w.Formed mark ↔
    w.first.all Reading.isDigit = true ∧ w.first ≠ [] ∧
      (w.groups ≠ [] → w.first.length ≤ 3) ∧
      (w.groups.all fun g => mark g.1 && g.2.length = 3 && g.2.all Reading.isDigit) = true ∧
      w.fraction.all Reading.isDigit = true := by
  simp only [List.all_eq_true, Bool.and_eq_true, decide_eq_true_eq, and_assoc]
  constructor
  · rintro ⟨first, some, short, groups, fraction⟩
    exact ⟨first, some, short, groups, fraction⟩
  · rintro ⟨first, some, short, groups, fraction⟩
    exact ⟨first, some, short, groups, fraction⟩

instance (mark : Char → Prop) [DecidablePred mark] (w : Written) : Decidable (w.Formed mark) :=
  decidable_of_iff _ (formed_iff mark w).symm

/-- No needless zero leads the whole part. -/
def Canonical (w : Written) : Prop := w.digits.head? = some '0' → w.digits = ['0']

instance (w : Written) : Decidable w.Canonical :=
  inferInstanceAs (Decidable (w.digits.head? = some '0' → w.digits = ['0']))

section Formed
variable {w : Written} {mark : Char → Prop} (formed : w.Formed mark)
include formed

theorem Formed.digits : Digits w.digits := by
  intro c known
  rcases List.mem_append.mp known with known | known
  · exact formed.first c known
  · obtain ⟨g, among, inside⟩ := List.mem_flatMap.mp known
    exact (formed.groups g among).2.2 c inside

theorem Formed.digits_ne_nil : w.digits ≠ [] := List.append_ne_nil_of_left_ne_nil formed.some _

theorem Formed.three_lt (some : w.groups ≠ []) : 3 < w.digits.length := by
  obtain ⟨g, gs, stands⟩ := List.exists_cons_of_ne_nil some
  have three := (formed.groups g (stands ▸ List.mem_cons_self)).2.1
  have one := List.length_pos_iff.mpr formed.some
  simp only [Written.digits, stands, List.flatMap_cons, List.length_append, three]
  omega

theorem Formed.digits_ne_zero (some : w.groups ≠ []) : w.digits ≠ ['0'] := by
  intro same
  have long := formed.three_lt some
  rw [same] at long
  simp at long

/-- What keeps digits and drops marks leaves the digits of the whole part. -/
theorem Formed.filter_whole {keep : Char → Bool}
    (keeps : ∀ c, Reading.isDigit c = true → keep c = true)
    (drops : ∀ c, mark c → keep c = false) : w.whole.filter keep = w.digits := by
  have groups (gs : List (Char × List Char)) (known : ∀ g ∈ gs, g ∈ w.groups) :
      (gs.flatMap fun g => g.1 :: g.2).filter keep = gs.flatMap Prod.snd := by
    induction gs with
    | nil => rfl
    | cons g gs ih =>
      obtain ⟨parts, -, digits⟩ := formed.groups g (known g List.mem_cons_self)
      have rest := ih fun g among => known g (List.mem_cons_of_mem _ among)
      have kept : g.2.filter keep = g.2 :=
        List.filter_eq_self.mpr fun c inside => keeps c (digits c inside)
      simp only [List.flatMap_cons, List.filter_append, List.filter_cons, drops _ parts, kept, rest]
      rfl
  have first : w.first.filter keep = w.first :=
    List.filter_eq_self.mpr fun c inside => keeps c (formed.first c inside)
  rw [whole, List.filter_append, first, groups w.groups fun g known => known]
  rfl

theorem Formed.mem_whole {c : Char} (known : c ∈ w.whole) :
    Reading.isDigit c = true ∨ mark c := by
  rcases List.mem_append.mp known with known | known
  · exact .inl (formed.first c known)
  · obtain ⟨g, among, inside⟩ := List.mem_flatMap.mp known
    obtain ⟨parts, -, digits⟩ := formed.groups g among
    rcases List.mem_cons.mp inside with rfl | inside
    · exact .inr parts
    · exact .inl (digits c inside)

theorem Formed.not_mem_whole {c : Char} (digit : Reading.isDigit c = false)
    (different : ¬ mark c) : c ∉ w.whole := by
  intro known
  rcases formed.mem_whole known with inside | same
  · rw [inside] at digit
    cases digit
  · exact different same

end Formed

theorem whole_of_ungrouped {w : Written} (none : w.groups = []) :
    w.whole = w.first ∧ w.digits = w.first := by
  simp [whole, digits, none]

theorem text_whole {w : Written} (none : w.fraction = []) (point : Char) :
    w.text point = w.whole := by simp [text, none]

theorem text_fraction {w : Written} (some : w.fraction ≠ []) (point : Char) :
    w.text point = w.whole ++ point :: w.fraction := by rw [text, if_neg some]

section Same
variable {w : Written} {m : Char} (formed : w.Formed (· = m)) (other : Reading.isDigit m = false)
include formed other

theorem Formed.without_whole : without m w.whole = w.digits := by
  apply formed.filter_whole
  · intro c digit
    have different : c ≠ m := by
      rintro rfl
      rw [digit] at other
      cases other
    simpa using different
  · rintro c rfl
    simp

theorem Formed.count_whole : w.whole.count m = w.groups.length := by
  have groups (gs : List (Char × List Char)) (known : ∀ g ∈ gs, g ∈ w.groups) :
      (gs.flatMap fun g => g.1 :: g.2).count m = gs.length := by
    induction gs with
    | nil => rfl
    | cons g gs ih =>
      obtain ⟨same, -, digits⟩ := formed.groups g (known g List.mem_cons_self)
      have rest := ih fun g among => known g (List.mem_cons_of_mem _ among)
      have none := List.count_eq_zero.mpr (not_mem_of_digits digits other)
      rw [List.flatMap_cons, List.count_append, List.count_cons, none, rest, List.length_cons, same]
      simp
      omega
  have first := List.count_eq_zero.mpr (not_mem_of_digits formed.first other)
  rw [whole, List.count_append, first, groups w.groups fun g known => known, Nat.zero_add]

theorem Formed.mark_mem (some : w.groups ≠ []) : m ∈ w.whole := by
  rw [← List.count_pos_iff, formed.count_whole other]
  exact List.length_pos_iff.mpr some

end Same

/-- Commas between groups and a point before a fraction, or points between groups and a comma before
the fraction; with points there are groups and a fraction. -/
inductive Usual (w : Written) : Char → Prop
  | commas : w.Formed (· = ',') → w.Canonical → w.Usual '.'
  | points : w.Formed (· = '.') → w.groups ≠ [] → w.fraction ≠ [] → w.Usual ','

/-- The digits with a point for the fraction, if there is one. -/
def plain (w : Written) : List Char :=
  w.digits ++ if w.fraction = [] then [] else '.' :: w.fraction

theorem withPoint_whole {w : Written} (formed : w.Formed (· = ',')) (canonical : w.Canonical) :
    withPoint w.whole = w.digits := by
  have point : '.' ∉ w.whole := formed.not_mem_whole point_not_digit (by decide)
  have count := formed.count_whole comma_not_digit
  match groups : w.groups with
  | [] =>
    obtain ⟨whole, digits⟩ := whole_of_ungrouped groups
    rw [whole, digits]
    exact withPoint_digits formed.first
  | [g] =>
    obtain ⟨same, three, behind⟩ := formed.groups g (by rw [groups]; exact List.mem_singleton_self g)
    have digits : w.digits = w.first ++ g.2 := by simp [Written.digits, groups]
    have whole : w.whole = w.first ++ ',' :: g.2 := by simp [Written.whole, groups, same]
    have nonzero : w.first ≠ ['0'] := by
      intro zero
      have leads : w.digits.head? = some '0' := by rw [digits, zero]; rfl
      exact formed.digits_ne_zero (by rw [groups]; exact List.cons_ne_nil _ _) (canonical leads)
    rw [whole, withPoint_comma formed.first behind, if_pos ⟨three, nonzero⟩, digits]
  | _ :: _ :: _ =>
    rw [groups, List.length_cons, List.length_cons] at count
    rw [withPoint_commas (by omega) point]
    exact formed.without_whole comma_not_digit

theorem withPoint_text {w : Written} {point : Char} (usual : w.Usual point) :
    withPoint (w.text point) = w.plain := by
  cases usual with
  | commas formed canonical =>
    by_cases fraction : w.fraction = []
    · rw [text_whole fraction, withPoint_whole formed canonical, plain, if_pos fraction,
        List.append_nil]
    · rw [text_fraction fraction, plain, if_neg fraction]
      by_cases groups : w.groups = []
      · obtain ⟨whole, digits⟩ := whole_of_ungrouped groups
        rw [whole, digits]
        exact withPoint_point formed.first formed.fraction
      · rw [withPoint_lastPoint (formed.mark_mem comma_not_digit groups) formed.fraction,
          formed.without_whole comma_not_digit]
  | points formed groups fraction =>
    have comma : ',' ∉ w.whole := formed.not_mem_whole comma_not_digit (by decide)
    rw [text_fraction fraction, plain, if_neg fraction,
      withPoint_lastComma (formed.mark_mem point_not_digit groups) comma formed.fraction,
      formed.without_whole point_not_digit]

theorem filter_text {w : Written} {point : Char} (usual : w.Usual point) :
    (w.text point).filter isNumeralChar = w.text point := by
  apply filter_isNumeralChar
  intro c known
  have parts : c ∈ w.whole ∨ c = point ∨ c ∈ w.fraction := by
    unfold text at known
    split at known
    · exact .inl (by simpa using known)
    · simpa using known
  cases usual with
  | commas formed canonical =>
    rcases parts with whole | rfl | fraction
    · exact (formed.mem_whole whole).imp_right .inl
    · exact .inr (.inr rfl)
    · exact .inl (formed.fraction c fraction)
  | points formed groups some =>
    rcases parts with whole | rfl | fraction
    · exact (formed.mem_whole whole).imp_right .inr
    · exact .inr (.inl rfl)
    · exact .inl (formed.fraction c fraction)

theorem read?_plain {w : Written} {mark : Char → Prop} (formed : w.Formed mark)
    (held : ∃ d : Decimal96, d.Fits ∧ d.value = w.value) :
    ∃ d, Decimal96.read? w.plain = some d ∧ d.Fits ∧ d.value = w.value := by
  rw [plain]
  split
  · rename_i none
    rw [value, none] at held ⊢
    rw [List.append_nil]
    exact Decimal96.read?_digits_exact formed.digits_ne_nil formed.digits held
  · exact Decimal96.read?_exact formed.digits_ne_nil formed.digits formed.fraction held

/-- A numeral with commas between its groups and a point, or with points and a comma, is read as the
number that it writes, if a decimal can hold that. -/
theorem value?_usual {w : Written} {point : Char} (usual : w.Usual point)
    (held : ∃ d : Decimal96, d.Fits ∧ d.value = w.value) :
    ∃ d, Numeral.value? (w.text point) = some d ∧ d.Fits ∧ d.value = w.value := by
  rw [Numeral.value?, filter_text usual, withPoint_text usual]
  cases usual with
  | commas formed _ => exact read?_plain formed held
  | points formed _ _ => exact read?_plain formed held

/-- Two groups, and four digits behind the point. -/
def million : Written := ⟨['1'], [(',', ['2', '3', '4']), (',', ['5', '6', '7'])], ['8', '9', '1', '2']⟩

theorem value?_usual_million : million.Usual '.' ∧
    (∃ d : Decimal96, d.Fits ∧ d.value = million.value) ∧
      ∃ d, Numeral.value? "1,234,567.8912".toList = some d ∧ d.Fits ∧ d.value = million.value := by
  have usual : million.Usual '.' := .commas (by decide) (by decide)
  have held : ∃ d : Decimal96, d.Fits ∧ d.value = million.value :=
    ⟨⟨false, 12345678912, 4⟩, ⟨by decide, by decide⟩,
      (Decimal96.value_eq_iff 12345678912 4 12345678912 4).mpr rfl⟩
  exact ⟨usual, held, value?_usual usual held⟩

/-- A space that does not let its two sides part. -/
abbrev IsFixedSpace (c : Char) : Prop := c = '\u00a0' ∨ c = '\u202f'

section Spaced
variable {w : Written} (formed : w.Formed IsFixedSpace) (groups : w.groups ≠ [])
  (fractional : w.fraction ≠ [])
include formed groups fractional

theorem value?_comma : Numeral.value? (w.text ',') =
    Decimal96.read? (if w.fraction.length = 3 then w.digits ++ w.fraction
      else w.digits ++ '.' :: w.fraction) := by
  have whole : w.whole.filter isNumeralChar = w.digits := by
    apply formed.filter_whole
    · intro c digit
      exact isNumeralChar_of_digit digit
    · rintro c (rfl | rfl) <;> rfl
  have fraction : w.fraction.filter isNumeralChar = w.fraction :=
    filter_isNumeralChar fun c known => .inl (formed.fraction c known)
  have comma : isNumeralChar ',' = true := rfl
  rw [Numeral.value?, text_fraction fractional, List.filter_append, List.filter_cons, if_pos comma,
    whole, fraction, withPoint_comma formed.digits formed.fraction]
  simp only [ne_eq, formed.digits_ne_zero groups, not_false_eq_true, and_true]

theorem value?_three (three : w.fraction.length = 3) : Numeral.value? (w.text ',') =
    if Decimal96.limit ≤ Reading.natural (w.digits ++ w.fraction) then none
    else some ⟨false, Reading.natural (w.digits ++ w.fraction), 0⟩ := by
  have some : w.digits ++ w.fraction ≠ [] :=
    List.append_ne_nil_of_left_ne_nil formed.digits_ne_nil _
  have digits : Digits (w.digits ++ w.fraction) :=
    List.forall_mem_append.mpr ⟨formed.digits, formed.fraction⟩
  rw [value?_comma formed groups fractional, if_pos three]
  exact Decimal96.read?_digits some digits

/-- Behind groups that fixed spaces part, the digits after a comma are read as a fraction unless there
are three of them. Those are read as one more group, and the number comes out a thousand times too
great. -/
theorem value?_spaced_iff (held : ∃ d : Decimal96, d.Fits ∧ d.value = w.value) :
    ((∃ d, Numeral.value? (w.text ',') = some d ∧ d.value = w.value) ↔
      w.fraction.length ≠ 3 ∨ w.value = 0) ∧
    ∀ d, w.fraction.length = 3 → Numeral.value? (w.text ',') = some d →
      d.value = 1000 * w.value := by
  by_cases three : w.fraction.length = 3
  · have read := value?_three formed groups fractional three
    have written : (Reading.natural (w.digits ++ w.fraction) : ℚ) = 1000 * w.value := by
      rw [value, Reading.number, three]
      ring
    have whole (n : Nat) : Decimal96.value ⟨false, n, 0⟩ = n := by simp [Decimal96.value]
    have thousandfold (d : Decimal96) (known : Numeral.value? (w.text ',') = some d) :
        d.value = 1000 * w.value := by
      rw [read] at known
      split at known
      · cases known
      · cases known
        rw [whole, written]
    refine ⟨⟨?_, ?_⟩, fun d _ => thousandfold d⟩
    · rintro ⟨d, known, same⟩
      have greater := thousandfold d known
      right
      linarith
    · rintro (other | zero)
      · exact absurd three other
      · have none : Reading.natural (w.digits ++ w.fraction) = 0 := by
          rw [zero, mul_zero] at written
          exact_mod_cast written
        rw [none, if_neg (by decide)] at read
        exact ⟨_, read, by rw [whole, zero, Nat.cast_zero]⟩
  · have read := value?_comma formed groups fractional
    rw [if_neg three] at read
    obtain ⟨d, known, -, same⟩ :=
      Decimal96.read?_exact formed.digits_ne_nil formed.digits formed.fraction held
    refine ⟨⟨fun _ => .inl three, fun _ => ⟨d, read.trans known, same⟩⟩, ?_⟩
    intro d other
    exact absurd other three

end Spaced

def price : Written := ⟨['1'], [('\u00a0', ['2', '5', '0'])], ['7', '5']⟩

theorem value?_spaced_iff_price : (price.Formed IsFixedSpace ∧ price.groups ≠ [] ∧
    price.fraction ≠ [] ∧ ∃ d : Decimal96, d.Fits ∧ d.value = price.value) ∧
      ∃ d, Numeral.value? "1\u00a0250,75".toList = some d ∧ d.value = price.value := by
  have formed : price.Formed IsFixedSpace := by decide
  have held : ∃ d : Decimal96, d.Fits ∧ d.value = price.value :=
    ⟨⟨false, 125075, 2⟩, ⟨by decide, by decide⟩, (Decimal96.value_eq_iff 125075 2 125075 2).mpr rfl⟩
  have groups : price.groups ≠ [] := by decide
  have fraction : price.fraction ≠ [] := by decide
  exact ⟨⟨formed, groups, fraction, held⟩,
    (value?_spaced_iff formed groups fraction held).1.mpr (.inl (by decide))⟩

/-- A price in thousandths. -/
def finePrice : Written := ⟨['1'], [('\u00a0', ['2', '5', '0'])], ['7', '5', '5']⟩

theorem finePrice_misread : finePrice.Formed IsFixedSpace ∧ finePrice.groups ≠ [] ∧
    finePrice.fraction ≠ [] ∧ finePrice.text ',' = "1\u00a0250,755".toList ∧
      finePrice.value = 1250.755 ∧
        Numeral.value? (finePrice.text ',') = some ⟨false, 1250755, 0⟩ ∧
          Numeral.firstNumber? "1\u00a0250,755" = some 1250755.0 := by
  have formed : finePrice.Formed IsFixedSpace := by decide
  have digits : Reading.natural (finePrice.digits ++ finePrice.fraction) = 1250755 := by decide
  have written : finePrice.value = 1250.755 := by
    rw [value, Reading.number, digits]
    norm_num [finePrice]
  exact ⟨formed, by decide, by decide, by decide, written, by decide, by decide +kernel⟩

end Written
end Numeral
end Docket
