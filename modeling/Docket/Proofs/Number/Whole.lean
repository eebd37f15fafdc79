import Docket.Number.Decimal96
import Docket.Proofs.Number.Sign

/-! Whole numbers as doubles. One of at most 53 bits is held exactly: its mantissa is shifted up to 53
bits, which no rounding touches. So it comes back from the bits as it was, and its decimal, from which
the shift is taken out again, has no places that could be rounded away. -/
namespace Docket.Double

open Float.Model UnpackedFloat

theorem shiftRight_exact (p j : Nat) :
    (⟨p * 2 ^ j, false, false⟩ : ExtendedMantissa) >>> j = ⟨p, false, false⟩ := by
  induction j generalizing p with
  | zero => rw [Nat.pow_zero, Nat.mul_one]; rfl
  | succ j ih =>
    have double : p * 2 ^ (j + 1) = 2 * p * 2 ^ j := by ring
    have step : (⟨2 * p * 2 ^ j, false, false⟩ : ExtendedMantissa) >>> (j + 1) =
        ((⟨2 * p * 2 ^ j, false, false⟩ : ExtendedMantissa) >>> j).shiftRightOne := rfl
    rw [double, step, ih, ExtendedMantissa.shiftRightOne]
    simp

theorem minExponent_eq : Format.binary64.minExponent = -1074 := by decide

/-- A mantissa of 53 bits. -/
structure Normal (p : Nat) : Prop where
  low : 2 ^ 52 ≤ p
  high : p < 2 ^ 53

theorem Normal.log2_shifted {p : Nat} (normal : Normal p) (j : Nat) :
    (p * 2 ^ j).log2 = 52 + j := by
  have low : 2 ^ (52 + j) ≤ p * 2 ^ j := by
    rw [Nat.pow_add]
    exact Nat.mul_le_mul_right _ normal.low
  have high : p * 2 ^ j < 2 ^ (52 + j + 1) := by
    rw [Nat.add_right_comm, Nat.pow_add]
    exact Nat.mul_lt_mul_of_pos_right normal.high (Nat.two_pow_pos j)
  exact (Nat.log2_eq_iff (Nat.ne_of_gt (Nat.lt_of_lt_of_le (Nat.two_pow_pos _) low))).mpr ⟨low, high⟩

theorem Normal.pos {p : Nat} (normal : Normal p) : 0 < p :=
  Nat.lt_of_lt_of_le (Nat.two_pow_pos 52) normal.low

/-- Rounding leaves a number with a mantissa of 53 bits, however it was scaled. -/
theorem shift_exact {p : Nat} (normal : Normal p) (j : Nat) {e : Int} (low : -1074 ≤ e) :
    shiftToTargetExponent .binary64 (p * 2 ^ j) (e - j) .exact = (⟨p, false, false⟩, e) := by
  have target : Format.binary64.targetExponent (totalExponent (p * 2 ^ j) (e - j)) = e := by
    have bits : Format.binary64.mantissaBits = 53 := rfl
    rw [Format.targetExponent, totalExponent, normal.log2_shifted, bits, minExponent_eq]
    omega
  have amount : (e - (e - (j : Int))).toNat = j := by omega
  rw [shiftToTargetExponent, target, shiftToExponent]
  simp only [amount, ExtendedMantissa.ofMantissaAndAccuracy, shiftRight_exact]
  congr 1
  omega

theorem roundWithAccuracy_exact {p : Nat} (normal : Normal p) (s : Sign) (j : Nat) {e : Int}
    (low : -1074 ≤ e) :
    roundWithAccuracy .binary64 s (p * 2 ^ j) (e - j) .exact = .finite s p e normal.pos := by
  have again := shift_exact normal 0 low
  rw [Nat.pow_zero, Nat.mul_one, Nat.cast_zero, sub_zero] at again
  have positive := normal.pos
  rw [roundWithAccuracy, shift_exact normal j low]
  simp only [ExtendedMantissa.roundedMantissa, ExtendedMantissa.accuracy,
    Accuracy.roundToNearestEven, again]
  rw [dif_neg (by omega)]

/-- A number with a mantissa of 53 bits, packed into its bits and unpacked again. -/
theorem pack_normal {p : Nat} (normal : Normal p) (s : Sign) {e : Int} (low : -1074 ≤ e)
    (high : e ≤ 971) : UnpackedFloat.pack .binary64 (.finite s p e normal.pos) =
      bits s (BitVec.ofNat 11 (e + 1075).toNat) (BitVec.ofNat 52 p) := by
  have bias : (e + Format.binary64.exponentBias + (52 : Nat)).toNat = (e + 1075).toNat := by
    have value : (Format.binary64.exponentBias : Int) = 1023 := rfl
    omega
  have long : p.log2 = 52 := by
    have unscaled := normal.log2_shifted 0
    rwa [Nat.pow_zero, Nat.mul_one] at unscaled
  have implicit : 52 + 1 = Format.binary64.mantissaBits := rfl
  simp only [UnpackedFloat.pack, long, bias]
  rw [if_neg (by omega), if_pos implicit]
  rfl

theorem unpack_normal {p : Nat} (normal : Normal p) (s : Sign) {e : Int} (low : -1074 ≤ e)
    (high : e ≤ 971) : UnpackedFloat.unpack .binary64
      (bits s (BitVec.ofNat 11 (e + 1075).toNat) (BitVec.ofNat 52 p)) =
        .finite s p e normal.pos := by
  have field : (BitVec.ofNat 11 (e + 1075).toNat).toNat = (e + 1075).toNat := by
    rw [BitVec.toNat_ofNat, Nat.mod_eq_of_lt (by omega)]
  have ordinary : BitVec.ofNat 11 (e + 1075).toNat ≠ -1#11 := by
    intro special
    have top : (e + 1075).toNat = 2047 := field.symm.trans (congrArg BitVec.toNat special)
    omega
  have nonzero : BitVec.ofNat 11 (e + 1075).toNat ≠ 0#11 := by
    intro special
    have bottom : (e + 1075).toNat = 0 := field.symm.trans (congrArg BitVec.toNat special)
    omega
  have same : Sign.ofBitVec (@unpackSign .binary64
      (bits s (BitVec.ofNat 11 (e + 1075).toNat) (BitVec.ofNat 52 p))) = s := sign_bits s _ _
  have whole : (1#1 ++ BitVec.ofNat 52 p).toNat = p := by
    have parts : (1#1 ++ BitVec.ofNat 52 p).toNat = 2 ^ 52 + p % 2 ^ 52 := append_toNat 1#1 _
    have low := normal.low
    have high := normal.high
    omega
  have exponent : ((e + 1075).toNat : Int) -
      ((Format.binary64.exponentBias : Int) + (52 : Nat)) = e := by
    have value : (Format.binary64.exponentBias : Int) = 1023 := rfl
    omega
  rw [UnpackedFloat.unpack, same]
  simp only [bits, unpackMantissa_packComponents, unpackExponent_packComponents]
  rw [if_neg ordinary, if_neg nonzero]
  simp only [field, whole, exponent]

/-- How far a number of at most 53 bits is from having 53. -/
def room (n : Nat) : Nat := 52 - n.log2

theorem normal_shifted {n : Nat} (positive : n ≠ 0) (short : n < 2 ^ 53) :
    Normal (n * 2 ^ room n) := by
  have log : n.log2 < 53 := (Nat.log2_lt positive).mpr short
  have low := Nat.log2_self_le positive
  have high := Nat.lt_log2_self (n := n)
  have exponent : n.log2 + room n = 52 := by
    rw [room]
    omega
  constructor
  · calc 2 ^ 52 = 2 ^ n.log2 * 2 ^ room n := by rw [← Nat.pow_add, exponent]
      _ ≤ n * 2 ^ room n := Nat.mul_le_mul_right _ low
  · calc n * 2 ^ room n < 2 ^ (n.log2 + 1) * 2 ^ room n :=
          Nat.mul_lt_mul_of_pos_right high (Nat.two_pow_pos _)
      _ = 2 ^ 53 := by rw [← Nat.pow_add, Nat.add_right_comm, exponent]

theorem unpackedOfNat_eq {n : Nat} (positive : n ≠ 0) (short : n < 2 ^ 53) :
    UnpackedFloat.ofNat .binary64 n =
      .finite .positive (n * 2 ^ room n) (-room n) (normal_shifted positive short).pos := by
  have log : n.log2 < 53 := (Nat.log2_lt positive).mpr short
  have order : Ord.compare (n : Int) 0 = .gt := by
    rw [compare_gt_iff_gt]
    omega
  have target : Format.binary64.targetExponent (totalExponent n 0) = -room n := by
    have bits : Format.binary64.mantissaBits = 53 := rfl
    rw [Format.targetExponent, totalExponent, bits, minExponent_eq, room]
    omega
  have shifted : decreaseExponent n 0 (-(room n : Int)) = (n * 2 ^ room n, -(room n : Int)) := by
    simp [decreaseExponent, Nat.shiftLeft_eq]
  have low : (-1074 : Int) ≤ -room n := by
    rw [room]
    omega
  have rounded := roundWithAccuracy_exact (normal_shifted positive short) .positive 0 low
  rw [Nat.pow_zero, Nat.mul_one, Nat.cast_zero, sub_zero] at rounded
  rw [UnpackedFloat.ofNat, UnpackedFloat.ofInt, UnpackedFloat.normalize]
  simp only [order, Int.toNat_natCast, UnpackedFloat.round, target, shifted, rounded]

/-- The bits of a whole number that a double holds exactly. -/
theorem bitsOf_ofNat {n : Nat} (positive : n ≠ 0) (short : n < 2 ^ 53) :
    bitsOf (Float.ofNat n) =
      bits .positive (BitVec.ofNat 11 (-(room n : Int) + 1075).toNat)
        (BitVec.ofNat 52 (n * 2 ^ room n)) := by
  have normal := normal_shifted positive short
  have least : room n ≤ 52 := Nat.sub_le 52 _
  have low : (-1074 : Int) ≤ -room n := by omega
  have high : -(room n : Int) ≤ 971 := by omega
  have product : Float.ofNat n =
      n.toUInt64.toFloat * Float.ofBits 4607182418800017408 := by
    have scientific : Float.ofNat n = Float.ofScientific n false 0 := rfl
    rw [scientific, Float.ofScientific, dif_pos ⟨short, by decide⟩]
    rfl
  have word : n.toUInt64.toNat = n := Nat.mod_eq_of_lt (by omega)
  have factor : bitsOf n.toUInt64.toFloat =
      UnpackedFloat.pack .binary64 (UnpackedFloat.ofNat .binary64 n.toUInt64.toNat) := rfl
  have one : UnpackedFloat.unpack .binary64 (bitsOf (Float.ofBits 4607182418800017408)) =
      .finite .positive (2 ^ 52) (-52) (by decide) := rfl
  have multiplied : bitsOf (n.toUInt64.toFloat * Float.ofBits 4607182418800017408) =
      UnpackedFloat.pack .binary64 (UnpackedFloat.mul .binary64
        (UnpackedFloat.unpack .binary64 (bitsOf n.toUInt64.toFloat))
        (UnpackedFloat.unpack .binary64 (bitsOf (Float.ofBits 4607182418800017408)))) := rfl
  have sum : -(room n : Int) + -52 = -(room n : Int) - (52 : Nat) := by omega
  have sign : Sign.positive * Sign.positive = Sign.positive := rfl
  rw [product, multiplied, factor, word, unpackedOfNat_eq positive short,
    pack_normal normal .positive low high, unpack_normal normal .positive low high, one,
    UnpackedFloat.mul, sum, sign, roundWithAccuracy_exact normal .positive 52 low,
    pack_normal normal .positive low high]

/-- The dyadic of a double whose bits are those of a number with a mantissa of 53 bits. -/
theorem ofFloat?_normal {x : Float} {p : Nat} {s : Sign} {e : Int} (normal : Normal p)
    (low : -1074 ≤ e) (high : e ≤ 971)
    (same : bitsOf x = bits s (BitVec.ofNat 11 (e + 1075).toNat) (BitVec.ofNat 52 p)) :
    Dyadic.ofFloat? x = some ⟨s == .negative, p, e⟩ := by
  have field : ((x.toBits >>> 52) &&& 0x7FF).toNat = (e + 1075).toNat := by
    have part : exponent (bitsOf x) = BitVec.ofNat 11 (e + 1075).toNat := by
      rw [same]
      exact unpackExponent_packComponents ..
    rw [toNat_exponentField, part, BitVec.toNat_ofNat, Nat.mod_eq_of_lt (by omega)]
  have fraction : (x.toBits &&& 0xFFFFFFFFFFFFF).toNat + twoTo 52 = p := by
    have part : mantissa (bitsOf x) = BitVec.ofNat 52 p := by
      rw [same]
      exact unpackMantissa_packComponents ..
    have least := normal.low
    have most := normal.high
    have unit : twoTo 52 = 2 ^ 52 := by decide
    rw [toNat_fractionField, part, BitVec.toNat_ofNat]
    omega
  have top : (x.toBits >>> 63 == 1) = (s == .negative) := by
    rw [Bool.eq_iff_iff, signField_iff, same, sign_bits]
    exact beq_iff_eq.symm
  have exponent : ((e + 1075).toNat : Int) - 1075 = e := by omega
  unfold Dyadic.ofFloat?
  simp only [field, fraction, top, exponent, beq_iff_eq]
  rw [if_neg (by omega), if_neg (by omega)]

/-- A whole number under either sign, as a dyadic. -/
theorem ofFloat?_ofNat {n : Nat} (positive : n ≠ 0) (short : n < 2 ^ 53) :
    Dyadic.ofFloat? (Float.ofNat n) = some ⟨false, n * 2 ^ room n, -room n⟩ ∧
      Dyadic.ofFloat? (-Float.ofNat n) = some ⟨true, n * 2 ^ room n, -room n⟩ := by
  have normal := normal_shifted positive short
  have least : room n ≤ 52 := Nat.sub_le 52 _
  have low : (-1074 : Int) ≤ -room n := by omega
  have high : -(room n : Int) ≤ 971 := by omega
  have plain := bitsOf_ofNat positive short
  constructor
  · exact ofFloat?_normal normal low high plain
  · refine ofFloat?_normal (s := .negative) normal low high ?_
    have negated : bitsOf (-Float.ofNat n) =
        UnpackedFloat.pack .binary64 (UnpackedFloat.unpack .binary64
          (bitsOf (Float.ofNat n))).neg := rfl
    rw [negated, plain, unpack_normal normal .positive low high]
    exact pack_normal normal .negative low high

end Docket.Double

namespace Docket
namespace Decimal96

/-- Halving takes the twos out of a mantissa, one for each power of two that the value is short. -/
theorem fromHalves_shifted (n k : Nat) : fromHalves (n * 2 ^ k) (-k) k = (n, 0) := by
  have go (e : Int) : fromHalves (n * 2 ^ k) e k = (n, e + k) := by
    induction k generalizing e with
    | zero => simp [fromHalves]
    | succ k ih =>
      have even : n * 2 ^ (k + 1) % 2 = 0 := by
        rw [Nat.pow_succ, ← Nat.mul_assoc, Nat.mul_mod_left]
      have half : n * 2 ^ (k + 1) / 2 = n * 2 ^ k := by
        rw [Nat.pow_succ, ← Nat.mul_assoc, Nat.mul_div_cancel _ (by decide)]
      rw [fromHalves, if_pos even, half, ih, Nat.cast_succ]
      congr 1
      omega
  rw [go]
  congr 1
  omega

theorem ofFloat?_whole {x : Float} {negative : Bool} {n k : Nat} (positive : n ≠ 0)
    (dyadic : Dyadic.ofFloat? x = some ⟨negative, n * 2 ^ k, -k⟩) :
    ofFloat? x = some ⟨negative, n, 0⟩ := by
  have nonzero : n * 2 ^ k ≠ 0 := Nat.mul_ne_zero positive (Nat.two_pow_pos k).ne'
  have exponent : (-(k : Int)) ≤ 0 := by omega
  have steps : (-(-(k : Int))).toNat = k := by omega
  have sign : (negative && n != 0) = negative := by simp [positive]
  unfold ofFloat?
  simp only [dyadic, if_neg nonzero, if_pos exponent, steps, fromHalves_shifted, settle, le_refl,
    if_true, Int.toNat_zero, spread, Option.map_some, narrowed, stripped, sign]

end Decimal96

/-- A whole number of at most 53 bits; of the two zeros, the one without a sign. -/
def Double.Whole (x : Float) : Prop :=
  ∃ n < 2 ^ 53, x = Float.ofNat n ∨ n ≠ 0 ∧ x = -Float.ofNat n

theorem roundDecimal_of_decimal {x : Float} {negative : Bool} {n : Nat} (positive : n ≠ 0)
    (decimal : Decimal96.ofFloat? x = some ⟨negative, n, 0⟩) (places : Nat) :
    roundDecimal x places = Rounding.whole negative n := by
  rw [roundDecimal, decimal]
  simp only [Decimal96.roundTo, Nat.zero_le, if_true, Decimal96.toFloat, if_neg positive]

/-- Rounding to decimal places leaves whole numbers. -/
theorem roundDecimal_whole {x : Float} (whole : Double.Whole x) (places : Nat) :
    roundDecimal x places = x := by
  obtain ⟨n, short, value⟩ := whole
  by_cases zero : n = 0
  · subst n
    obtain rfl : x = Float.ofNat 0 := value.resolve_right fun other => other.1 rfl
    have decimal : Decimal96.ofFloat? (Float.ofNat 0) = some ⟨false, 0, 0⟩ := by decide +kernel
    rw [roundDecimal, decimal]
    rfl
  · have dyadics := Double.ofFloat?_ofNat zero short
    rcases value with rfl | ⟨-, rfl⟩
    · rw [roundDecimal_of_decimal zero (Decimal96.ofFloat?_whole zero dyadics.1)]
      rfl
    · rw [roundDecimal_of_decimal zero (Decimal96.ofFloat?_whole zero dyadics.2)]
      rfl

end Docket
