import Docket.Proofs.Number.Dividing

/-! The whole numbers nearest to doubles. The dyadic that is read off the bits has the exact value of
the double; a half goes away from zero and what is beyond 64 bits to their ends, so the whole numbers
are in the order of the doubles, infinities included. -/
namespace Docket.Double

open Float.Model UnpackedFloat

/-- A sign, a mantissa and an exponent as a dyadic. -/
def dyadic? : UnpackedFloat → Option Dyadic
  | .finite s m e _ => some ⟨s == .negative, m, e⟩
  | .zero s => some ⟨s == .negative, 0, -1074⟩
  | _ => none

/-- The dyadic that is read off the bits of a double is the one it stands for. -/
theorem ofFloat?_eq (x : Float) : Dyadic.ofFloat? x = dyadic? (unpacked x) := by
  have top : (x.toBits >>> 63 == 1) = (sign (bitsOf x) == .negative) := by
    rw [Bool.eq_iff_iff, signField_iff]
    exact beq_iff_eq.symm
  have unit : twoTo 52 = 2 ^ 52 := by decide
  have bias : (Format.binary64.exponentBias : Int) = 1023 := rfl
  have same : Sign.ofBitVec (@unpackSign .binary64
      (bits (sign (bitsOf x)) (exponent (bitsOf x)) (mantissa (bitsOf x)))) = sign (bitsOf x) :=
    sign_bits ..
  have highest : (exponent (bitsOf x)).toNat = 0x7FF ↔ exponent (bitsOf x) = -1#11 :=
    ⟨fun field => BitVec.eq_of_toNat_eq field, congrArg BitVec.toNat⟩
  have lowest : (exponent (bitsOf x)).toNat = 0 ↔ exponent (bitsOf x) = 0#11 :=
    ⟨fun field => BitVec.eq_of_toNat_eq field, congrArg BitVec.toNat⟩
  rw [unpacked, ← bits_parts (bitsOf x), UnpackedFloat.unpack, same]
  simp only [bits, unpackMantissa_packComponents, unpackExponent_packComponents]
  simp only [Dyadic.ofFloat?, top, toNat_exponentField, toNat_fractionField, unit, beq_iff_eq,
    highest, lowest]
  by_cases special : exponent (bitsOf x) = -1#11
  · rw [if_pos special, if_pos special]
    split <;> rfl
  · rw [if_neg special, if_neg special]
    by_cases least : exponent (bitsOf x) = 0#11
    · rw [if_pos least, if_pos least]
      split
      · rename_i zero
        simp [zero, dyadic?]
      · have field : (exponent (bitsOf x)).toNat = 0 := lowest.mpr least
        simp [dyadic?, field, bias]
    · have whole : (1#1 ++ mantissa (bitsOf x)).toNat = 2 ^ 52 + (mantissa (bitsOf x)).toNat :=
        append_toNat 1#1 _
      rw [if_neg least, if_neg least]
      simp [dyadic?, whole, bias, add_comm]

/-- A value rounded to a whole number, a half going away from zero. -/
def halfAway (x : ℚ) : ℤ := if x < 0 then -round (-x) else round x

theorem halfAway_mono {x y : ℚ} (le : x ≤ y) : halfAway x ≤ halfAway y := by
  have mono {a b : ℚ} (le : a ≤ b) : round a ≤ round b := by
    rw [round_eq, round_eq]
    exact Int.floor_mono (by gcongr)
  have nonneg {a : ℚ} (le : 0 ≤ a) : 0 ≤ round a := round_zero (α := ℚ) ▸ mono le
  unfold halfAway
  split_ifs with below below'
  · exact neg_le_neg (mono (neg_le_neg le))
  · have first := nonneg (neg_nonneg.mpr below.le)
    have second := nonneg (not_lt.mp below')
    omega
  · linarith
  · exact mono le

/-- Numerator and denominator of a dyadic make up its magnitude. -/
theorem fraction_eq (d : Dyadic) :
    0 < d.fraction.2 ∧ (d.fraction.1 / d.fraction.2 : ℚ) = d.significand * 2 ^ d.exponent := by
  have power (n : Nat) : ((twoTo n : Nat) : ℚ) = 2 ^ (n : Int) := by
    rw [twoTo, zpow_natCast]
    exact_mod_cast rfl
  unfold Dyadic.fraction
  split
  · rename_i whole
    have same : (d.exponent.toNat : Int) = d.exponent := by omega
    exact ⟨Nat.one_pos, by rw [Nat.cast_mul, power, same, Nat.cast_one, div_one]⟩
  · have same : ((-d.exponent).toNat : Int) = -d.exponent := by omega
    exact ⟨Nat.two_pow_pos _, by rw [power, same, zpow_neg, div_inv_eq_mul]⟩

theorem rounded_eq (d : Dyadic) :
    (d.rounded : ℤ) = round (d.significand * 2 ^ d.exponent : ℚ) := by
  obtain ⟨positive, magnitude⟩ := fraction_eq d
  rw [← magnitude, round_eq, Dyadic.rounded]
  generalize d.fraction.1 = n
  generalize d.fraction.2 = k at positive
  have unit : (0 : ℚ) < k := by exact_mod_cast positive
  have sum : (n : ℚ) / k + 1 / 2 = ((2 * n + k : Nat) : ℚ) / (2 * k : Nat) := by
    push_cast
    field_simp
  rw [sum, Rat.floor_natCast_div_natCast, Int.natCast_ediv]

theorem halfAway_signed {x : ℚ} (nonneg : 0 ≤ x) :
    halfAway x = round x ∧ halfAway (-x) = -round x := by
  refine ⟨if_neg (not_lt.mpr nonneg), ?_⟩
  unfold halfAway
  split
  · rw [neg_neg]
  · have zero : x = 0 := by linarith
    simp [zero]

theorem signed_rounded {u : UnpackedFloat} {d : Dyadic} (told : dyadic? u = some d) :
    Dyadic.signed d.negative d.rounded = halfAway (value u) := by
  rw [Dyadic.signed, rounded_eq]
  cases u with
  | notANumber => cases told
  | infinity s => cases told
  | zero s =>
    cases told
    simp [value, halfAway]
  | finite s m e positive =>
    cases told
    have nonneg : (0 : ℚ) ≤ m * 2 ^ e := by positivity
    cases s with
    | negative => exact (halfAway_signed nonneg).2.symm
    | positive => exact (halfAway_signed nonneg).1.symm

/-- The nearest whole number of a finite double, within 64 bits. -/
theorem nearest_eq {x : Float} (finite : x.isFinite = true) :
    Rounding.nearest x =
      Rounding.clamp (-twoTo 63) (twoTo 63 - 1) (halfAway (value (unpacked x))) := by
  obtain ⟨d, told, -⟩ := ofFloat?_of_isFinite finite
  rw [Rounding.nearest, Rounding.toRange, told]
  rw [ofFloat?_eq] at told
  simp only [signed_rounded told]

theorem clamp_mono {lo hi : Int} (ends : lo ≤ hi) {n n' : Int} (le : n ≤ n') :
    Rounding.clamp lo hi n ≤ Rounding.clamp lo hi n' := by
  unfold Rounding.clamp
  split_ifs <;> omega

theorem clamp_bounds {lo hi : Int} (ends : lo ≤ hi) (n : Int) :
    lo ≤ Rounding.clamp lo hi n ∧ Rounding.clamp lo hi n ≤ hi := by
  unfold Rounding.clamp
  split_ifs <;> omega

/-- Infinities go to the ends of the 64 bits. -/
theorem nearest_infinity {x : Float} {s : Sign} (told : unpacked x = .infinity s) :
    Rounding.nearest x = if s == .negative then -(twoTo 63 : Int) else twoTo 63 - 1 := by
  have none : Dyadic.ofFloat? x = none := by rw [ofFloat?_eq, told]; rfl
  have number : x.isNaN = false := congrArg UnpackedFloat.isNaN told
  have below : x < 0 ↔ rank (.infinity s) < rank (.zero .positive) := by
    rw [lt_iff_rank_of_alike (number.trans rfl), told]
    rfl
  rw [Rounding.nearest, Rounding.toRange, none]
  simp only [number, below, Bool.false_eq_true, if_false]
  cases s <;> rfl

theorem finite_or_infinity {x : Float} (number : x.isNaN = false) :
    x.isFinite = true ∨ ∃ s, unpacked x = .infinity s := by
  have same : x.isFinite = (unpacked x).isFinite := rfl
  have none : (unpacked x).isNaN = false := number
  rw [same]
  cases told : unpacked x with
  | notANumber => rw [told] at none; cases none
  | infinity s => exact .inr ⟨s, rfl⟩
  | zero s => exact .inl rfl
  | finite s m e positive => exact .inl rfl

theorem nearest_bounds {x : Float} (number : x.isNaN = false) :
    -twoTo 63 ≤ Rounding.nearest x ∧ Rounding.nearest x ≤ twoTo 63 - 1 := by
  rcases finite_or_infinity number with finite | ⟨s, told⟩
  · rw [nearest_eq finite]
    exact clamp_bounds (by decide) _
  · rw [nearest_infinity told]
    cases s <;> decide

theorem rank_between {u : UnpackedFloat} (finite : u.isFinite = true) :
    rank (.infinity .negative) < rank u ∧ rank u < rank (.infinity .positive) := by
  rcases u with ⟨⟨⟩⟩ | _ | _ | ⟨⟨⟩, m, e, positive⟩ <;> try cases finite
  all_goals simp [rank, Prod.Lex.toLex_lt_toLex]

/-- The nearest whole numbers of doubles are in the order of the doubles. -/
theorem nearest_le {x y : Float} (le : x ≤ y) : Rounding.nearest x ≤ Rounding.nearest y := by
  obtain ⟨number, number', order⟩ := (le_iff_rank x y).mp le
  rcases finite_or_infinity number with finite | ⟨s, told⟩ <;>
    rcases finite_or_infinity number' with finite' | ⟨t, told'⟩
  · rw [nearest_eq finite, nearest_eq finite']
    have values := value_le (held_unpacked finite) (held_unpacked finite') order
    exact clamp_mono (by decide) (halfAway_mono values)
  · rw [told'] at order
    cases t with
    | positive => exact nearest_infinity told' ▸ (nearest_bounds number).2
    | negative => exact absurd (rank_between finite).1 (not_lt.mpr order)
  · rw [told] at order
    cases s with
    | negative => exact nearest_infinity told ▸ (nearest_bounds number').1
    | positive => exact absurd (rank_between finite').2 (not_lt.mpr order)
  · rw [nearest_infinity told, nearest_infinity told']
    rw [told, told'] at order
    cases s <;> cases t
    case positive.negative => exact absurd order (by decide)
    all_goals decide

end Docket.Double
