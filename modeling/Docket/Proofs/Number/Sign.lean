import Mathlib
import Docket.Number.Dyadic

/-! The sign of a finite double. Its bits are a sign, an exponent and a mantissa, and packing what
was unpacked with another sign changes the sign alone. So a finite double is its magnitude, negated
if its sign bit is set. -/
namespace Docket.Double

open Float.Model UnpackedFloat

def signed (s : Sign) : UnpackedFloat → UnpackedFloat
  | .notANumber => .notANumber
  | .infinity _ => .infinity s
  | .zero _ => .zero s
  | .finite _ m e positive => .finite s m e positive

theorem abs_eq_signed (u : UnpackedFloat) : u.abs = signed .positive u := by
  cases u <;> rfl

theorem neg_signed (u : UnpackedFloat) : (signed .positive u).neg = signed .negative u := by
  cases u <;> rfl

def bits (s : Sign) (e : BitVec 11) (m : BitVec 52) : BitVec 64 := packComponents .binary64 s e m

theorem append_toNat {v w : Nat} (a : BitVec v) (b : BitVec w) :
    (a ++ b).toNat = a.toNat * 2 ^ w + b.toNat := by
  rw [BitVec.toNat_append, ← Nat.shiftLeft_add_eq_or_of_lt b.isLt, Nat.shiftLeft_eq]

theorem bits_toNat (s : Sign) (e : BitVec 11) (m : BitVec 52) :
    (bits s e m).toNat = s.toBitVec.toNat * 2 ^ 63 + e.toNat * 2 ^ 52 + m.toNat := by
  have parts : (bits s e m).toNat = (s.toBitVec.toNat * 2 ^ 11 + e.toNat) * 2 ^ 52 + m.toNat := by
    rw [← append_toNat, ← append_toNat]
    rfl
  rw [parts, Nat.add_mul, Nat.mul_assoc, ← Nat.pow_add]

def mantissa (b : BitVec 64) : BitVec 52 := @unpackMantissa .binary64 b

def exponent (b : BitVec 64) : BitVec 11 := @unpackExponent .binary64 b

def sign (b : BitVec 64) : Sign := .ofBitVec (@unpackSign .binary64 b)

theorem mantissa_toNat (b : BitVec 64) : (mantissa b).toNat = b.toNat % 2 ^ 52 := by
  simp [mantissa, unpackMantissa, BitVec.extractLsb_toNat]

theorem exponent_toNat (b : BitVec 64) : (exponent b).toNat = b.toNat / 2 ^ 52 % 2 ^ 11 := by
  simp [exponent, unpackExponent, BitVec.extractLsb_toNat, Nat.shiftRight_eq_div_pow]

theorem sign_toNat (b : BitVec 64) : (sign b).toBitVec.toNat = b.toNat / 2 ^ 63 := by
  have back (v : BitVec 1) : (Sign.ofBitVec v).toBitVec = v := by
    rcases BitVec.eq_zero_or_eq_one v with rfl | rfl <;> rfl
  have small : b.toNat < 2 ^ 64 := b.isLt
  simp only [sign, back, unpackSign, BitVec.toNat_cast, BitVec.extractLsb_toNat,
    Nat.shiftRight_eq_div_pow]
  exact Nat.mod_eq_of_lt (Nat.div_lt_of_lt_mul small)

theorem bits_parts (b : BitVec 64) : bits (sign b) (exponent b) (mantissa b) = b := by
  apply BitVec.eq_of_toNat_eq
  rw [bits_toNat, sign_toNat, exponent_toNat, mantissa_toNat]
  have small : b.toNat < 2 ^ 64 := b.isLt
  omega

theorem toBitVec_injective {s t : Sign} (same : s.toBitVec.toNat = t.toBitVec.toNat) : s = t := by
  cases s <;> cases t <;> first | rfl | cases same

theorem sign_bits (s : Sign) (e : BitVec 11) (m : BitVec 52) : sign (bits s e m) = s := by
  apply toBitVec_injective
  rw [sign_toNat, bits_toNat]
  have high := e.isLt
  have low := m.isLt
  omega

theorem signed_unpack (s : Sign) (e : BitVec 11) (m : BitVec 52) :
    signed s (UnpackedFloat.unpack .binary64 (bits s e m)) =
      UnpackedFloat.unpack .binary64 (bits s e m) := by
  have same : Sign.ofBitVec (@unpackSign .binary64 (bits s e m)) = s := sign_bits s e m
  rw [UnpackedFloat.unpack, same]
  split
  · split <;> rfl
  · split
    · split <;> rfl
    · rfl

/-- Packing finite parts under another sign changes the sign alone. -/
theorem pack_signed (s s' : Sign) (e : BitVec 11) (m : BitVec 52) (finite : e ≠ -1#11) :
    UnpackedFloat.pack .binary64 (signed s' (UnpackedFloat.unpack .binary64 (bits s e m))) =
      bits s' e m := by
  have small : e.toNat + 1 < 2 ^ 11 := by
    have bound := e.isLt
    have other : e.toNat ≠ 2 ^ 11 - 1 := fun h => finite (BitVec.eq_of_toNat_eq h)
    omega
  rw [UnpackedFloat.unpack]
  simp only [bits, unpackMantissa_packComponents, unpackExponent_packComponents]
  rw [if_neg finite]
  by_cases subnormal : e = 0#11
  · rw [if_pos subnormal]
    split
    · rename_i zero
      rw [subnormal, zero]
      rfl
    · -- Packing knows a subnormal number by its short mantissa, not by the exponent.
      rename_i nonzero
      have positive : m.toNat ≠ 0 := fun h => nonzero (BitVec.eq_of_toNat_eq h)
      have short : m.toNat.log2 < 52 := (Nat.log2_lt positive).mpr m.isLt
      have implicit : Format.binary64.mantissaBits = 53 := rfl
      have least : e.toNat = 0 := congrArg BitVec.toNat subnormal
      simp only [signed, UnpackedFloat.pack]
      rw [if_neg (by omega), if_neg (by omega), subnormal, BitVec.ofNat_toNat, BitVec.setWidth_eq]
  · rw [if_neg subnormal]
    have whole : (1#1 ++ m).toNat = 2 ^ 52 + m.toNat := append_toNat 1#1 m
    have long : (2 ^ 52 + m.toNat).log2 = 52 := by
      rw [Nat.log2_eq_iff (by omega)]
      have bound := m.isLt
      omega
    have bias : (e.toNat - ((Format.binary64.exponentBias : Int) + (52 : Nat)) +
        Format.binary64.exponentBias + (52 : Nat)).toNat = e.toNat := by omega
    simp only [signed, UnpackedFloat.pack, whole, long, bias]
    have implicit : 52 + 1 = Format.binary64.mantissaBits := rfl
    rw [if_neg (by omega), if_pos implicit]
    congr 1
    · simp
    · apply BitVec.eq_of_toNat_eq
      rw [BitVec.toNat_ofNat, Nat.add_mod_left, Nat.mod_eq_of_lt m.isLt]

def bitsOf (x : Float) : BitVec 64 := x.toModel.toBits.toBitVec

theorem eq_of_bits {x y : Float} (same : bitsOf x = bitsOf y) : x = y := by
  obtain ⟨⟨a, _⟩⟩ := x
  obtain ⟨⟨b, _⟩⟩ := y
  obtain rfl : a = b := UInt64.eq_of_toBitVec_eq same
  rfl

theorem exponent_of_isFinite {x : Float} (finite : x.isFinite = true) :
    exponent (bitsOf x) ≠ -1#11 := by
  intro special
  have unpacked : x.isFinite = (UnpackedFloat.unpack .binary64 (bitsOf x)).isFinite := rfl
  rw [unpacked, UnpackedFloat.unpack] at finite
  have top : @unpackExponent .binary64 (bitsOf x) = -1#_ := special
  simp only [top, if_true] at finite
  split at finite <;> cases finite

theorem bitsOf_abs {x : Float} (finite : x.isFinite = true) :
    bitsOf x.abs = bits .positive (exponent (bitsOf x)) (mantissa (bitsOf x)) := by
  rw [← pack_signed (sign (bitsOf x)) _ _ _ (exponent_of_isFinite finite), bits_parts,
    ← abs_eq_signed]
  rfl

theorem bitsOf_neg_abs {x : Float} (finite : x.isFinite = true) :
    bitsOf (-x.abs) = bits .negative (exponent (bitsOf x)) (mantissa (bitsOf x)) := by
  have negated : bitsOf (-x.abs) =
      UnpackedFloat.pack .binary64 (UnpackedFloat.unpack .binary64 (bitsOf x.abs)).neg := rfl
  rw [negated, bitsOf_abs finite, ← signed_unpack, neg_signed]
  exact pack_signed _ _ _ _ (exponent_of_isFinite finite)

/-- A finite double with a clear sign bit is its magnitude. -/
theorem abs_of_positive {x : Float} (finite : x.isFinite = true)
    (positive : sign (bitsOf x) = .positive) : x.abs = x := by
  apply eq_of_bits
  rw [bitsOf_abs finite, ← positive, bits_parts]

/-- A finite double with its sign bit set is its magnitude negated. -/
theorem neg_abs_of_negative {x : Float} (finite : x.isFinite = true)
    (negative : sign (bitsOf x) = .negative) : -x.abs = x := by
  apply eq_of_bits
  rw [bitsOf_neg_abs finite, ← negative, bits_parts]

theorem toNat_exponentField (x : Float) :
    ((x.toBits >>> 52) &&& 0x7FF).toNat = (exponent (bitsOf x)).toNat := by
  have word : x.toBits.toNat = (bitsOf x).toNat := rfl
  rw [exponent_toNat, ← word, UInt64.toNat_and, UInt64.toNat_shiftRight, Nat.shiftRight_eq_div_pow]
  exact Nat.and_two_pow_sub_one_eq_mod _ 11

theorem toNat_fractionField (x : Float) :
    (x.toBits &&& 0xFFFFFFFFFFFFF).toNat = (mantissa (bitsOf x)).toNat := by
  have word : x.toBits.toNat = (bitsOf x).toNat := rfl
  rw [mantissa_toNat, ← word, UInt64.toNat_and]
  exact Nat.and_two_pow_sub_one_eq_mod _ 52

theorem signField_iff (x : Float) :
    (x.toBits >>> 63 == 1) = true ↔ sign (bitsOf x) = .negative := by
  rw [beq_iff_eq, ← UInt64.toNat_inj, UInt64.toNat_shiftRight, Nat.shiftRight_eq_div_pow]
  have same : x.toBits.toNat / 2 ^ 63 = (sign (bitsOf x)).toBitVec.toNat := (sign_toNat _).symm
  constructor
  · intro one
    exact toBitVec_injective (same.symm.trans one)
  · intro negative
    rw [negative] at same
    exact same

/-- A finite double is a dyadic with the sign of its bits. -/
theorem ofFloat?_of_isFinite {x : Float} (finite : x.isFinite = true) :
    ∃ d, Dyadic.ofFloat? x = some d ∧ (d.negative = true ↔ sign (bitsOf x) = .negative) := by
  have ordinary : ((x.toBits >>> 52) &&& 0x7FF).toNat ≠ 0x7FF := fun h =>
    exponent_of_isFinite finite (BitVec.eq_of_toNat_eq ((toNat_exponentField x).symm.trans h))
  have top := signField_iff x
  unfold Dyadic.ofFloat?
  simp only [beq_iff_eq, ordinary, if_false]
  split
  · exact ⟨_, rfl, top⟩
  · exact ⟨_, rfl, top⟩

end Docket.Double
