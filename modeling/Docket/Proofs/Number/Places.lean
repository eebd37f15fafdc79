import Mathlib
import Docket.Number.Decimal96

/-! Decimals read from digits. Digits are taken as long as there is room for them, and what finds no
room is rounded away. A number that some decimal holds loses nothing but zeros by that, however
many digits it is written with. -/
namespace Docket

namespace Reading

abbrev Digits (ds : List Char) : Prop := ∀ c ∈ ds, isDigit c = true

theorem natural_from (n : Nat) (ds : List Char) :
    ds.foldl (fun n c => 10 * n + (c.toNat - '0'.toNat)) n = n * 10 ^ ds.length + natural ds := by
  induction ds generalizing n with
  | nil => simp [natural]
  | cons c ds ih =>
    simp only [natural, List.foldl_cons, List.length_cons]
    rw [ih, ih]
    ring

theorem natural_append (front back : List Char) :
    natural (front ++ back) = natural front * 10 ^ back.length + natural back := by
  rw [natural, List.foldl_append]
  exact natural_from _ back

theorem natural_cons (c : Char) (ds : List Char) :
    natural (c :: ds) = natural [c] * 10 ^ ds.length + natural ds := natural_append [c] ds

/-- One digit more behind those that have been taken. -/
theorem natural_push (m : Nat) (c : Char) (ds : List Char) :
    m * 10 ^ (c :: ds).length + natural (c :: ds) =
      (10 * m + natural [c]) * 10 ^ ds.length + natural ds := by
  rw [natural_cons, List.length_cons, Nat.pow_succ]
  ring

theorem natural_singleton (c : Char) : natural [c] = c.toNat - 48 := by
  simp only [natural, List.foldl_cons, List.foldl_nil, Nat.mul_zero, Nat.zero_add]
  rfl

theorem isDigit_iff (c : Char) : isDigit c = true ↔ 48 ≤ c.toNat ∧ c.toNat ≤ 57 := by
  simp only [isDigit, Bool.and_eq_true, decide_eq_true_eq, Char.le_def, UInt32.le_iff_toNat_le]
  exact Iff.rfl

theorem digit?_eq {c : Char} (digit : isDigit c = true) :
    digit? c = some (natural [c]) ∧ natural [c] < 10 := by
  rw [natural_singleton]
  have range := (isDigit_iff c).mp digit
  constructor
  · rw [digit?, if_pos]
    · rfl
    · simpa [isDigit] using digit
  · omega

theorem natural_lt {ds : List Char} (digits : Digits ds) : natural ds < 10 ^ ds.length := by
  induction ds with
  | nil => exact Nat.one_pos
  | cons c ds ih =>
    have first := (digit?_eq (digits c List.mem_cons_self)).2
    have rest := ih fun c known => digits c (List.mem_cons_of_mem _ known)
    rw [natural_cons, List.length_cons, Nat.pow_succ]
    calc natural [c] * 10 ^ ds.length + natural ds
        < natural [c] * 10 ^ ds.length + 10 ^ ds.length := Nat.add_lt_add_left rest _
      _ = (natural [c] + 1) * 10 ^ ds.length := by ring
      _ ≤ 10 * 10 ^ ds.length := Nat.mul_le_mul_right _ first
      _ = 10 ^ ds.length * 10 := Nat.mul_comm _ _

theorem natural_eq_zero_iff {ds : List Char} (digits : Digits ds) :
    natural ds = 0 ↔ ∀ c ∈ ds, c = '0' := by
  induction ds with
  | nil => simp [natural]
  | cons c ds ih =>
    have digit := digits c List.mem_cons_self
    have zero : natural [c] = 0 ↔ c = '0' := by
      have range := (isDigit_iff c).mp digit
      have code : '0'.toNat = 48 := rfl
      rw [natural_singleton, ← Char.toNat_inj, code]
      omega
    have power := Nat.pow_pos (n := ds.length) (show 0 < 10 by decide)
    rw [natural_cons, Nat.add_eq_zero_iff, Nat.mul_eq_zero, zero,
      ih fun c known => digits c (List.mem_cons_of_mem _ known), List.forall_mem_cons]
    constructor
    · rintro ⟨first | none, rest⟩
      · exact ⟨first, rest⟩
      · omega
    · rintro ⟨first, rest⟩
      exact ⟨.inl first, rest⟩

/-- The number that digits write before and behind a point. -/
def number (whole fraction : List Char) : ℚ := natural (whole ++ fraction) / 10 ^ fraction.length

theorem takeWhile_stretch {p : Char → Bool} {front rest : List Char} (inside : ∀ c ∈ front, p c = true)
    (ends : rest.takeWhile p = []) :
    (front ++ rest).takeWhile p = front ∧ (front ++ rest).dropWhile p = rest := by
  constructor
  · rw [List.takeWhile_append_of_pos inside, ends, List.append_nil]
  · rw [List.dropWhile_append_of_pos inside]
    have parts := List.takeWhile_append_dropWhile (p := p) (l := rest)
    rwa [ends] at parts

end Reading

namespace Decimal96
open Reading (Digits natural natural_cons natural_append natural_push number)

/-- No more bits and places than a decimal has. -/
structure Fits (d : Decimal96) : Prop where
  mantissa : d.mantissa < limit
  scale : d.scale ≤ maxScale

def value (d : Decimal96) : ℚ := (if d.negative then -1 else 1) * (d.mantissa / 10 ^ d.scale)

/-- Some decimal is `n / 10 ^ places`. -/
def Holds (n places : Nat) : Prop :=
  ∃ m s, m < limit ∧ s ≤ maxScale ∧ m * 10 ^ places = n * 10 ^ s

/-- The two sides of an equation between decimals without their denominators. -/
theorem value_eq_iff (m s n places : Nat) :
    value ⟨false, m, s⟩ = (n : ℚ) / 10 ^ places ↔ m * 10 ^ places = n * 10 ^ s := by
  have left : (10 : ℚ) ^ s ≠ 0 := by positivity
  have right : (10 : ℚ) ^ places ≠ 0 := by positivity
  rw [value, if_neg Bool.false_ne_true, one_mul, div_eq_div_iff left right]
  exact_mod_cast Iff.rfl

theorem holds_of_value {d : Decimal96} (fits : d.Fits) {n places : Nat}
    (same : d.value = (n : ℚ) / 10 ^ places) : Holds n places := by
  obtain ⟨negative, m, s⟩ := d
  cases negative with
  | false => exact ⟨m, s, fits.mantissa, fits.scale, (value_eq_iff m s n places).mp same⟩
  | true =>
    -- what is negative and yet no less than zero is zero
    have below : value ⟨true, m, s⟩ ≤ 0 := by
      rw [value, if_pos rfl, neg_one_mul]
      exact neg_nonpos.mpr (by positivity)
    have above : (0 : ℚ) ≤ n / 10 ^ places := by positivity
    have none : (n : ℚ) / 10 ^ places = 0 := le_antisymm (same ▸ below) above
    have zero : n = 0 := by
      have power : (10 : ℚ) ^ places ≠ 0 := by positivity
      exact_mod_cast (div_eq_zero_iff.mp none).resolve_right power
    exact ⟨0, 0, Nat.two_pow_pos 96, Nat.zero_le _, by rw [zero]; simp⟩

theorem Holds.whole_lt {n places whole rest : Nat} (held : Holds n places)
    (parts : n = whole * 10 ^ places + rest) : whole < limit := by
  obtain ⟨m, s, small, -, same⟩ := held
  have power : 0 < 10 ^ places := Nat.pow_pos (by decide)
  have reaches : whole * 10 ^ places ≤ m * 10 ^ places := by
    calc whole * 10 ^ places ≤ n := by omega
      _ ≤ n * 10 ^ s := Nat.le_mul_of_pos_right n (Nat.pow_pos (by decide))
      _ = m * 10 ^ places := same.symm
  exact Nat.lt_of_le_of_lt (Nat.le_of_mul_le_mul_right reaches power) small

/-- All digits that fit are taken. -/
theorem readFraction_fits {ds : List Char} (digits : Digits ds) {m s : Nat}
    (room : m * 10 ^ ds.length + natural ds < limit) (places : s + ds.length ≤ maxScale) :
    readFraction m s ds = some ⟨false, m * 10 ^ ds.length + natural ds, s + ds.length⟩ := by
  induction ds generalizing m s with
  | nil => simp [readFraction, natural]
  | cons c ds ih =>
    obtain ⟨read, -⟩ := Reading.digit?_eq (digits c List.mem_cons_self)
    have power : 0 < 10 ^ ds.length := Nat.pow_pos (by decide)
    have next : 10 * m + natural [c] ≤ (10 * m + natural [c]) * 10 ^ ds.length :=
      Nat.le_mul_of_pos_right _ power
    rw [List.length_cons] at places
    rw [natural_push] at room ⊢
    simp only [readFraction, read]
    rw [if_pos ⟨by omega, by omega⟩,
      ih (fun c known => digits c (List.mem_cons_of_mem _ known)) room (by omega), List.length_cons]
    congr 2
    omega

/-- Where a number is held and there is no room for its next digit, only zeros are left. -/
theorem no_room {ds : List Char} (digits : Digits ds) {c : Char} (digit : Reading.isDigit c = true)
    {m s : Nat} (held : Holds (m * 10 ^ (c :: ds).length + natural (c :: ds)) (s + (c :: ds).length))
    (full : s < maxScale → limit ≤ 10 * m + natural [c]) (places : s ≤ maxScale) :
    natural (c :: ds) = 0 := by
  obtain ⟨n, t, small, short, same⟩ := held
  by_cases more : t ≤ s
  · -- the number is a multiple of the place that the last digit taken has
    obtain ⟨k, rfl⟩ := Nat.exists_eq_add_of_le more
    have power : 0 < 10 ^ t := Nat.pow_pos (by decide)
    have multiple : n * 10 ^ k * 10 ^ (c :: ds).length =
        m * 10 ^ (c :: ds).length + natural (c :: ds) := by
      apply Nat.eq_of_mul_eq_mul_right power
      rw [← same]
      ring
    have divides : 10 ^ (c :: ds).length ∣ natural (c :: ds) :=
      (Nat.dvd_add_right (Nat.dvd_mul_left _ m)).mp (multiple ▸ Nat.dvd_mul_left _ _)
    have less : natural (c :: ds) < 10 ^ (c :: ds).length :=
      Reading.natural_lt (List.forall_mem_cons.mpr ⟨digit, digits⟩)
    exact Nat.eq_zero_of_dvd_of_lt divides less
  · -- with a place more the decimal that holds the number would be too great
    obtain ⟨k, rfl⟩ := Nat.exists_eq_add_of_lt (Nat.lt_of_not_le more)
    have great := full (by omega)
    rw [natural_push] at same
    have power : 0 < 10 ^ (s + 1) := Nat.pow_pos (by decide)
    have equal : n * 10 ^ ds.length =
        ((10 * m + natural [c]) * 10 ^ ds.length + natural ds) * 10 ^ k := by
      apply Nat.eq_of_mul_eq_mul_right power
      calc n * 10 ^ ds.length * 10 ^ (s + 1) = n * 10 ^ (s + (c :: ds).length) := by
            rw [List.length_cons]
            ring
        _ = ((10 * m + natural [c]) * 10 ^ ds.length + natural ds) * 10 ^ (s + k + 1) := same
        _ = ((10 * m + natural [c]) * 10 ^ ds.length + natural ds) * 10 ^ k * 10 ^ (s + 1) := by
            ring
    have reaches : limit * 10 ^ ds.length ≤ n * 10 ^ ds.length := by
      calc limit * 10 ^ ds.length ≤ (10 * m + natural [c]) * 10 ^ ds.length :=
            Nat.mul_le_mul_right _ great
        _ ≤ (10 * m + natural [c]) * 10 ^ ds.length + natural ds := Nat.le_add_right _ _
        _ ≤ _ := Nat.le_mul_of_pos_right _ (Nat.pow_pos (by decide))
        _ = n * 10 ^ ds.length := equal.symm
    have above := Nat.le_of_mul_le_mul_right reaches (Nat.pow_pos (by decide))
    omega

theorem readFraction_exact {ds : List Char} (digits : Digits ds) {m s : Nat} (small : m < limit)
    (places : s ≤ maxScale) (held : Holds (m * 10 ^ ds.length + natural ds) (s + ds.length)) :
    ∃ n t, readFraction m s ds = some ⟨false, n, t⟩ ∧ n < limit ∧ t ≤ maxScale ∧
      n * 10 ^ (s + ds.length) = (m * 10 ^ ds.length + natural ds) * 10 ^ t := by
  induction ds generalizing m s with
  | nil => exact ⟨m, s, rfl, small, places, by simp [natural]⟩
  | cons c ds ih =>
    have digit := digits c List.mem_cons_self
    have behind : Digits ds := fun c known => digits c (List.mem_cons_of_mem _ known)
    obtain ⟨read, -⟩ := Reading.digit?_eq digit
    simp only [readFraction, read]
    split
    · rename_i room
      have length : s + (c :: ds).length = s + 1 + ds.length := by
        rw [List.length_cons]
        omega
      rw [natural_push, length] at held ⊢
      exact ih behind room.2 room.1 held
    · rename_i room
      have zero := no_room behind digit held (fun short => by
        by_contra less
        exact room ⟨short, Nat.lt_of_not_le less⟩) places
      have first : natural [c] = 0 := by
        have power := Nat.pow_pos (n := ds.length) (show 0 < 10 by decide)
        rw [natural_cons, Nat.add_eq_zero_iff, Nat.mul_eq_zero] at zero
        exact zero.1.resolve_right power.ne'
      have all : ds.all Reading.isDigit = true := List.all_eq_true.mpr behind
      refine ⟨m, s, ?_, small, places, ?_⟩
      · simp [all, first]
      · rw [zero]
        ring

section Read
variable {whole fraction : List Char} (some : whole ≠ []) (digits : Digits whole)
include some digits

theorem read?_point (fraction : List Char) : read? (whole ++ '.' :: fraction) =
    if limit ≤ natural whole then none else readFraction (natural whole) 0 fraction := by
  have mark : ('.' :: fraction).takeWhile Reading.isDigit = [] := rfl
  obtain ⟨run, behind⟩ := Reading.takeWhile_stretch digits mark
  simp only [read?, run, behind]
  rw [if_neg (by simp [some])]

theorem read?_digits : read? whole =
    if limit ≤ natural whole then none else Option.some ⟨false, natural whole, 0⟩ := by
  have none : [].takeWhile Reading.isDigit = [] := rfl
  obtain ⟨run, behind⟩ := Reading.takeWhile_stretch digits none
  rw [List.append_nil] at run behind
  simp only [read?, run, behind]
  rw [if_neg (by simp [some])]
  rfl

/-- Digits that fit are read as they are written. -/
theorem read?_fits (behind : Digits fraction) (room : natural (whole ++ fraction) < limit)
    (places : fraction.length ≤ maxScale) : read? (whole ++ '.' :: fraction) =
      Option.some ⟨false, natural (whole ++ fraction), fraction.length⟩ := by
  rw [natural_append] at room ⊢
  have power : 0 < 10 ^ fraction.length := Nat.pow_pos (by decide)
  have less : natural whole ≤ natural whole * 10 ^ fraction.length :=
    Nat.le_mul_of_pos_right _ power
  rw [read?_point some digits, if_neg (by omega),
    readFraction_fits behind room (by omega), Nat.zero_add]

/-- A number that some decimal holds is read exactly. -/
theorem read?_exact (behind : Digits fraction)
    (held : ∃ d : Decimal96, d.Fits ∧ d.value = number whole fraction) :
    ∃ d, read? (whole ++ '.' :: fraction) = Option.some d ∧ d.Fits ∧
      d.value = number whole fraction := by
  obtain ⟨d, fits, same⟩ := held
  have held := holds_of_value fits same
  have small := held.whole_lt (natural_append whole fraction)
  rw [natural_append, ← Nat.zero_add fraction.length] at held
  rw [read?_point some digits, if_neg (Nat.not_le_of_lt small)]
  obtain ⟨n, t, read, low, short, equal⟩ :=
    readFraction_exact behind small (Nat.zero_le _) (by simpa using held)
  refine ⟨⟨false, n, t⟩, read, ⟨low, short⟩, ?_⟩
  rw [Nat.zero_add, ← natural_append] at equal
  exact (value_eq_iff n t _ _).mpr equal

theorem read?_digits_exact (held : ∃ d : Decimal96, d.Fits ∧ d.value = number whole []) :
    ∃ d, read? whole = Option.some d ∧ d.Fits ∧ d.value = number whole [] := by
  obtain ⟨d, fits, same⟩ := held
  have held := holds_of_value fits same
  have alone : natural (whole ++ []) = natural whole * 10 ^ ([] : List Char).length + 0 := by simp
  have small := held.whole_lt alone
  rw [read?_digits some digits, if_neg (Nat.not_le_of_lt small)]
  refine ⟨_, rfl, ⟨small, Nat.zero_le _⟩, ?_⟩
  exact (value_eq_iff _ _ _ _).mpr (by simp)

end Read

end Decimal96
end Docket
